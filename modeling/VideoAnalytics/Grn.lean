import VideoAnalytics.ExtLayer
import VideoAnalytics.Library.Reduction
import Mathlib.Algebra.BigOperators.Field
import Mathlib.Tactic.NormNum

/-! The GRN layer of the CPU extension: each place of an image is divided by the norm over
its channels, in a parallel loop over the places. In exact arithmetic. -/
namespace VideoAnalytics.Grn
open Loop Memory InPlace ParallelLoop

variable {F : Type} [Field F] (sqrt : F → F)

def sumOfSquares (x : Nat → F) (C HW cell : Nat) : F :=
  ∑ c ∈ Finset.range C, x (cell / (C * HW) * (C * HW) + c * HW + cell % HW) ^ 2

section Region

variable (N C H W : Nat) (bias : F)

def column (place : Nat) : List Nat :=
  (List.range C).map fun c => element C H W (place / (H * W)) c (place / W % H) (place % W)

def places : Region F F where
  count := N * H * W
  gathered := column C H W
  cells := column C H W
  first := 0
  gather variance value := variance + value ^ 2
  finish variance := sqrt (variance + bias)
  rewrite variance value := value / variance

/-- What an element is divided by. -/
def norm (x : Nat → F) (cell : Nat) : F := sqrt (sumOfSquares x C (H * W) cell + bias)

/-- What the layer makes of an element. -/
def normalized (x : Nat → F) (cell : Nat) : F :=
  x cell / sqrt (sumOfSquares x C (H * W) cell + bias)

end Region

/-- The dimensions that are missing count as 1. -/
def execute (bias : F) (dims : List Nat) (src dst : Nat) (schedule : List Nat) (memory : Memory F) :
    Except Refused (Memory F) :=
  run (places sqrt (dims.getD 0 1) (dims.getD 1 1) (dims.getD 2 1) (dims.getD 3 1) bias) src dst
    schedule memory

section Places

variable {N C H W : Nat}

private theorem place_eq (place H W : Nat) : place / W % H * W + place % W = place % (H * W) := by
  rw [Nat.mul_comm H W,Nat.mod_mul,Nat.mul_comm W]
  omega

theorem batch_eq {b c p HW : Nat} (row : c < C) (inside : p < HW) :
    ((b * C + c) * HW + p) / (C * HW) = b := by
  rw [Nat.mul_comm C,← Nat.div_div_eq_div_mul,cell_row _ inside,cell_row _ row]

/-- The place of an element of the output. -/
def placeOf (C HW cell : Nat) : Nat := cell / (C * HW) * HW + cell % HW

/-- The elements of an iteration are those at its place. -/
theorem mem_column {place cell : Nat} (low : place < N * H * W) :
    cell ∈ column C H W place ↔ cell < N * C * H * W ∧ placeOf C (H * W) cell = place := by
  have some : 0 < H * W := by
    rw [Nat.mul_assoc] at low
    exact Nat.pos_of_lt_mul_left low
  have image : place / (H * W) < N := by
    rw [Nat.mul_assoc] at low
    exact Nat.div_lt_of_lt_mul (by rwa [Nat.mul_comm])
  have inside := Nat.mod_lt place some
  simp only [column,List.mem_map,List.mem_range,element_eq,place_eq]
  constructor
  · rintro ⟨c,row,rfl⟩
    have plane := cell_within image row
    constructor
    · have cells := cell_within plane inside
      calc _ < N * C * (H * W) := cells
        _ = N * C * H * W := by ring
    · unfold placeOf
      rw [batch_eq row inside,cell_col _ inside]
      exact Nat.div_add_mod' place (H * W)
  · rintro ⟨below,rfl⟩
    have row : 0 < C := by
      by_contra none
      simp [Nat.eq_zero_of_not_pos none] at below
    have column := Nat.mod_lt cell some
    refine ⟨cell / (H * W) % C,Nat.mod_lt _ row,?_⟩
    unfold placeOf
    rw [cell_row _ column,cell_col _ column,Nat.mul_comm C,← Nat.div_div_eq_div_mul,
      Nat.div_add_mod',Nat.div_add_mod']

private theorem column_nodup {place : Nat} (some : 0 < H * W) : (column C H W place).Nodup := by
  apply (List.nodup_range (n := C)).map
  intro c other same
  dsimp only at same
  rw [element_eq,element_eq] at same
  have planes := Nat.eq_of_mul_eq_mul_right some (Nat.add_right_cancel same)
  omega

private theorem column_squares (x : Nat → F) {place cell : Nat} (low : place < N * H * W)
    (member : cell ∈ column C H W place) :
    ((column C H W place).map fun other => x other ^ 2).sum = sumOfSquares x C (H * W) cell := by
  obtain ⟨c,row,rfl⟩ := List.mem_map.mp member
  have some : 0 < H * W := by
    rw [Nat.mul_assoc] at low
    exact Nat.pos_of_lt_mul_left low
  have inside := Nat.mod_lt place some
  unfold sumOfSquares column
  rw [element_eq,place_eq,batch_eq (List.mem_range.mp row) inside,cell_col _ inside,List.map_map,
    Finset.sum_eq_multiset_sum]
  apply congrArg List.sum
  apply List.map_congr_left
  intro other _
  simp only [Function.comp_apply,element_eq,place_eq]
  congr 2
  ring

private theorem places_separate (bias : F) {src dst : Nat}
    (placed : Placed src dst (N * C * H * W)) :
    Separate (places sqrt N C H W bias) src dst (N * C * H * W) where
  apart i j cell low below first second := by
    rw [← ((mem_column low).mp first).2,((mem_column below).mp second).2]
  once i low := by
    have low : i < N * (H * W) := by rwa [← Nat.mul_assoc]
    exact column_nodup (Nat.pos_of_lt_mul_left low)
  own _ _ := List.Subset.refl _
  within i low cell member := ((mem_column low).mp member).1
  placed := placed

private theorem places_rewrites (bias : F) {src dst : Nat} {schedule : List Nat}
    {before after : Memory F} (placed : Placed src dst (N * C * H * W))
    (ran : run (places sqrt N C H W bias) src dst schedule before = .ok after) :
    Rewrites src dst (N * C * H * W) (normalized sqrt C H W bias) before after := by
  have right (i : Nat) (low : i < N * H * W) (cell : Nat) (member : cell ∈ column C H W i) :
      image (places sqrt N C H W bias) src before i cell =
        normalized sqrt C H W bias (before.offset src) cell := by
    have squares := Reduction.foldl_add (fun cell => before.offset src cell ^ 2) (column C H W i) 0
    rw [column_squares (before.offset src) low member,zero_add] at squares
    unfold normalized
    rw [← squares]
    rfl
  apply (run_rewrites (places_separate sqrt bias placed) ran right).congr
  intro cell low
  simp only [iff_true]
  have place : placeOf C (H * W) cell < N * H * W := by
    have planes : cell < N * (C * (H * W)) := by
      calc _ < N * C * H * W := low
        _ = N * (C * (H * W)) := by ring
    have some : 0 < C * (H * W) := Nat.pos_of_lt_mul_left planes
    have image : cell / (C * (H * W)) < N :=
      Nat.div_lt_of_lt_mul (by rwa [Nat.mul_comm] at planes)
    rw [Nat.mul_assoc]
    exact cell_within image (Nat.mod_lt cell (Nat.pos_of_mul_pos_left some))
  exact ⟨placeOf C (H * W) cell,place,(mem_column place).mpr ⟨low,rfl⟩⟩

end Places

/-- The layer can be run, and in whatever order the places take their turns, from one area to
another or in place, it divides each element by the norm at its place, which is not 0, and
changes nothing else. -/
theorem execute_divides (bias : F) (dims : List Nat) {src dst : Nat} (before : Memory F)
    (placed : Placed src dst (elements dims))
    (divides : ∀ cell < elements dims,
      norm sqrt (dims.getD 1 1) (dims.getD 2 1) (dims.getD 3 1) bias (before.offset src) cell ≠ 0) :
    (∃ schedule after, execute sqrt bias dims src dst schedule before = .ok after) ∧
      ∀ schedule after, execute sqrt bias dims src dst schedule before = .ok after →
        Rewrites src dst (elements dims)
          (normalized sqrt (dims.getD 1 1) (dims.getD 2 1) (dims.getD 3 1) bias) before after ∧
        ∀ cell < elements dims, after (dst + cell) *
          norm sqrt (dims.getD 1 1) (dims.getD 2 1) (dims.getD 3 1) bias (before.offset src) cell =
            before (src + cell) := by
  have size : elements dims = dims.getD 0 1 * dims.getD 1 1 * dims.getD 2 1 * dims.getD 3 1 := by
    unfold elements
    ring
  rw [size] at placed divides ⊢
  refine ⟨exists_run _ src dst before,?_⟩
  intro schedule after ran
  have rewrites := places_rewrites sqrt bias placed ran
  refine ⟨rewrites,?_⟩
  intro cell below
  rw [rewrites.cells cell below trivial]
  exact div_mul_cancel₀ _ (divides cell below)

theorem execute_divides_in_place :
    ∃ schedule after, execute (fun square : Rat => if square = 9 then 3 else 9) 1 [1,2,1,2] 7 7
        schedule (fun address => [2,4,2,8].getD (address - 7) 0) = .ok after ∧
      after 7 = 2 / 3 ∧ after 8 = 4 / 9 ∧ after 9 = 2 / 3 ∧ after 10 = 8 / 9 := by
  have divides := execute_divides (fun square : Rat => if square = 9 then 3 else 9) 1 [1,2,1,2]
    (fun address => [2,4,2,8].getD (address - 7) 0) (.inl rfl : Placed 7 7 (elements [1,2,1,2]))
    (by decide +kernel)
  obtain ⟨schedule,after,ran⟩ := divides.1
  have cells := (divides.2 schedule after ran).1.cells
  refine ⟨schedule,after,ran,?_,?_,?_,?_⟩
  · rw [cells 0 (by decide) trivial]
    norm_num [normalized,sumOfSquares,Finset.sum_range_succ]
  · rw [cells 1 (by decide) trivial]
    norm_num [normalized,sumOfSquares,Finset.sum_range_succ]
  · rw [cells 2 (by decide) trivial]
    norm_num [normalized,sumOfSquares,Finset.sum_range_succ]
  · rw [cells 3 (by decide) trivial]
    norm_num [normalized,sumOfSquares,Finset.sum_range_succ]

end VideoAnalytics.Grn
