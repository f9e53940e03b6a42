import VideoAnalytics.SpatialTransformer
import Mathlib.Data.Rat.Floor
import Mathlib.Tactic.NormNum

/-! What the SpatialTransformer layer makes of the identity, and where it reads. -/
namespace VideoAnalytics.SpatialTransformer
open Loop Memory

variable {F : Type} [Field F] [LinearOrder F] [IsStrictOrderedRing F] [FloorRing F]

/-- The weight of a neighbour at a distance along one axis. -/
def hat (distance : F) : F := max 0 (1 - |distance|)

/-- What a neighbour adds to a sample. -/
def neighbour (pic : Memory F) (x y : F) (m n : Int) : F :=
  if 0 ≤ m ∧ m < 24 ∧ 0 ≤ n ∧ n < 94 then
    hat (x - (m : F)) * hat (y - (n : F)) * pic (m * 94 + n).toNat
  else 0

omit [IsStrictOrderedRing F] in
@[simp] theorem addNeighbour_res (pic : Memory F) (x y : F) (m n : Int) (sample : Sample F) :
    (addNeighbour pic 24 94 x y m n sample).res = sample.res + neighbour pic x y m n := by
  unfold addNeighbour neighbour hat
  split
  · simp only [stdMax_eq,Int.cast_zero,Int.cast_one]
    rfl
  · exact (add_zero _).symm

omit [IsStrictOrderedRing F] in
private theorem addNeighbour_reads (pic : Memory F) (x y : F) (m n : Int) (sample : Sample F) :
    (addNeighbour pic 24 94 x y m n sample).reads = sample.reads ++
      if 0 ≤ m ∧ m < 24 ∧ 0 ≤ n ∧ n < 94 then [(m * 94 + n).toNat] else [] := by
  unfold addNeighbour
  split
  · rfl
  · exact (List.append_nil _).symm

section Transform

variable (pic : Memory F) {px py x y : F} (row : (px + 1) / 2 * 24 = x)
  (column : (py + 1) / 2 * 94 = y)
include row column

omit [IsStrictOrderedRing F] in
private theorem transform_eq : transformForwardCpu pic px py =
    addNeighbour pic 24 94 x y (⌊x⌋ + 1) (⌊y⌋ + 1) (addNeighbour pic 24 94 x y ⌊x⌋ (⌊y⌋ + 1)
      (addNeighbour pic 24 94 x y (⌊x⌋ + 1) ⌊y⌋ (addNeighbour pic 24 94 x y ⌊x⌋ ⌊y⌋ ⟨0,[]⟩))) := by
  subst row column
  unfold transformForwardCpu
  push_cast
  rfl

omit [IsStrictOrderedRing F] in
private theorem transform_res : (transformForwardCpu pic px py).res =
    neighbour pic x y ⌊x⌋ ⌊y⌋ + neighbour pic x y (⌊x⌋ + 1) ⌊y⌋ +
      neighbour pic x y ⌊x⌋ (⌊y⌋ + 1) + neighbour pic x y (⌊x⌋ + 1) (⌊y⌋ + 1) := by
  rw [transform_eq pic row column]
  simp only [addNeighbour_res,zero_add]

omit [IsStrictOrderedRing F] in
private theorem transform_reads_low {place : Nat}
    (read : place ∈ (transformForwardCpu pic px py).reads) : place < 2256 := by
  have low : ∀ m n : Int,
      place ∈ (if 0 ≤ m ∧ m < 24 ∧ 0 ≤ n ∧ n < 94 then [(m * 94 + n).toNat] else []) →
        place < 2256 := by
    intro m n member
    split at member
    · rw [List.mem_singleton.mp member]
      omega
    · cases member
  rw [transform_eq pic row column] at read
  simp only [addNeighbour_reads,List.mem_append,List.nil_append] at read
  rcases read with ((first | second) | third) | fourth
  · exact low _ _ first
  · exact low _ _ second
  · exact low _ _ third
  · exact low _ _ fourth

omit [IsStrictOrderedRing F] in
private theorem transform_reads_mem (rows : 0 ≤ ⌊x⌋ ∧ ⌊x⌋ < 24) (columns : 0 ≤ ⌊y⌋ ∧ ⌊y⌋ < 94) :
    (⌊x⌋ * 94 + ⌊y⌋).toNat ∈ (transformForwardCpu pic px py).reads := by
  rw [transform_eq pic row column]
  simp only [addNeighbour_reads,List.mem_append,List.nil_append]
  left
  left
  left
  rw [if_pos ⟨rows.1,rows.2,columns⟩]
  exact List.mem_singleton_self _

end Transform

section Whole

variable (pic : Memory F)

omit [FloorRing F] in
private theorem hat_zero : hat (0 : F) = 1 := by simp [hat]

omit [FloorRing F] in
private theorem hat_far {distance : F} (far : 1 ≤ |distance|) : hat distance = 0 :=
  max_eq_left (by linarith)

omit [FloorRing F] in
/-- At a whole row the row below has no weight. -/
theorem neighbour_row_below (y : F) (m n : Int) : neighbour pic (m : F) y (m + 1) n = 0 := by
  have far : hat ((m : F) - ((m + 1 : Int) : F)) = 0 := hat_far (by push_cast; simp)
  unfold neighbour
  rw [far]
  simp

omit [FloorRing F] in
private theorem neighbour_column_right (x : F) (m n : Int) : neighbour pic x (n : F) m
    (n + 1) = 0 := by
  have far : hat ((n : F) - ((n + 1 : Int) : F)) = 0 := hat_far (by push_cast; simp)
  unfold neighbour
  rw [far]
  simp

private theorem transform_whole_row {px py y : F} {m : Int} (row : (px + 1) / 2 * 24 = m)
    (column : (py + 1) / 2 * 94 = y) : (transformForwardCpu pic px py).res =
      neighbour pic m y m ⌊y⌋ + neighbour pic m y m (⌊y⌋ + 1) := by
  rw [transform_res pic row column,Int.floor_intCast,neighbour_row_below,neighbour_row_below,add_zero,
    add_zero]

private theorem transform_whole_column {px py x : F} {n : Int} (row : (px + 1) / 2 * 24 = x)
    (column : (py + 1) / 2 * 94 = n) : (transformForwardCpu pic px py).res =
      neighbour pic x n ⌊x⌋ n + neighbour pic x n (⌊x⌋ + 1) n := by
  rw [transform_res pic row column,Int.floor_intCast,neighbour_column_right,neighbour_column_right,
    add_zero,add_zero]

private theorem transform_whole {px py : F} {m n : Nat} (row : (px + 1) / 2 * 24 = m)
    (column : (py + 1) / 2 * 94 = n) (rows : m < 24) (columns : n < 94) :
    (transformForwardCpu pic px py).res = pic (m * 94 + n) := by
  have line : (px + 1) / 2 * 24 = ((m : Int) : F) := by rw [row,Int.cast_natCast]
  have place : (py + 1) / 2 * 94 = ((n : Int) : F) := by rw [column,Int.cast_natCast]
  rw [transform_whole_row pic line place,Int.floor_intCast,neighbour_column_right,add_zero]
  unfold neighbour
  rw [if_pos (by omega),sub_self,sub_self,hat_zero,one_mul,one_mul]
  rfl

end Whole

section Coordinates

variable {theta : Memory F} {i H W : Nat}

omit [IsStrictOrderedRing F] [FloorRing F] in
private theorem coordinate_sum (theta : Memory F) (H W i row k : Nat) :
    coordinate theta H W i row k = gridEntry H W row 0 * theta (6 * i + (k * 3 + 0)) +
      gridEntry H W row 1 * theta (6 * i + (k * 3 + 1)) +
        gridEntry H W row 2 * theta (6 * i + (k * 3 + 2)) := by
  simp [coordinate,forLoop]

omit [IsStrictOrderedRing F] [FloorRing F] in
private theorem coordinate_identity (identity : theta.Holds (6 * i) [1,0,0,0,1,0]) (row : Nat) :
    coordinate theta H W i row 0 = gridEntry H W row 0 ∧
      coordinate theta H W i row 1 = gridEntry H W row 1 := by
  have t0 := identity 0 (by simp)
  have t1 := identity 1 (by simp)
  have t2 := identity 2 (by simp)
  have t3 := identity 3 (by simp)
  have t4 := identity 4 (by simp)
  have t5 := identity 5 (by simp)
  simp only [List.getElem_cons_zero,List.getElem_cons_succ] at t0 t1 t2 t3 t4 t5
  constructor
  · rw [coordinate_sum,Nat.zero_mul,Nat.zero_add,Nat.zero_add,Nat.zero_add,t0,t1,t2]
    ring
  · rw [coordinate_sum,Nat.one_mul,t3,t4,t5]
    ring

omit [IsStrictOrderedRing F] in
/-- The identity takes a pixel to its own share of the height and of the width. -/
theorem identity_position (identity : theta.Holds (6 * i) [1,0,0,0,1,0]) {s t : Nat}
    (column : t < W) :
    (coordinate theta H W i (W * s + t) 0 + 1) / 2 = (s : F) / H ∧
      (coordinate theta H W i (W * s + t) 1 + 1) / 2 = (t : F) / W := by
  obtain ⟨first,second⟩ := coordinate_identity (H := H) (W := W) identity (W * s + t)
  have row : (W * s + t) / W = s := by rw [Nat.mul_comm,cell_row s column]
  have place : (W * s + t) % W = t := by rw [Nat.mul_comm,cell_col s column]
  rw [first,second]
  unfold gridEntry
  rw [if_pos rfl,if_neg Nat.one_ne_zero,if_pos rfl,row,place]
  push_cast
  constructor
  · ring
  · ring

end Coordinates

section Sizes

variable (F)

/-- The layer with the identity for every image outputs the input. -/
def KeepsInput (N C H W : Nat) : Prop :=
  ∀ (src theta dst : Memory F) (dims : List Nat),
    (∀ i, i < N → theta.Holds (6 * i) [1,0,0,0,1,0]) →
    ∀ address, address < N * (C * (H * W)) →
      (execute ⟨[N,C,H,W],src⟩ ⟨dims,theta⟩ ⟨[N,C,H,W],dst⟩).dst address = src address

/-- Every read of a picture is one of its plane. -/
def ReadsInside (N C H W : Nat) : Prop :=
  ∀ (src theta dst : Memory F) (dims : List Nat),
    ∀ read ∈ (execute ⟨[N,C,H,W],src⟩ ⟨dims,theta⟩ ⟨[N,C,H,W],dst⟩).reads, read.2 < H * W

variable {F} {N C H W : Nat}

omit [IsStrictOrderedRing F] in
private theorem sampleAt_first (src theta : Memory F) {s t : Nat} (channels : 1 ≤ C) (row : s < H)
    (column : t < W) : sampleAt src theta C H W (s * W + t) =
      transformForwardCpu src (coordinate theta H W 0 (W * s + t) 0)
        (coordinate theta H W 0 (W * s + t) 1) := by
  have pixel := cell_within row column
  have image : s * W + t < C * (H * W) := Nat.lt_of_lt_of_le pixel (Nat.le_mul_of_pos_left _ channels)
  have start : src.offset (((0 * C + 0) * H + 0) * W + 0) = src := by
    ext place
    simp
  unfold sampleAt pixelSample
  rw [Nat.div_eq_of_lt image,Nat.mod_eq_of_lt image,Nat.div_eq_of_lt pixel,Nat.mod_eq_of_lt pixel,
    cell_row s column,cell_col s column,start]

/-- One transform for every image. -/
def everyImage (theta : List F) : Memory F := fun place => theta.getD (place % 6) 0

omit [LinearOrder F] [IsStrictOrderedRing F] [FloorRing F] in
private theorem everyImage_holds {theta : List F} (six : theta.length = 6) (i : Nat) :
    (everyImage theta).Holds (6 * i) theta := by
  intro c within
  have place : (6 * i + c) % 6 = c := by omega
  unfold everyImage
  rw [place,List.getD_eq_getElem?_getD,List.getElem?_eq_getElem within]
  rfl

omit [IsStrictOrderedRing F] in
private theorem keeps_pixel (keeps : KeepsInput F N C H W) (images : 1 ≤ N) (channels : 1 ≤ C)
    {s t : Nat} (row : s < H) (column : t < W) (pic : Memory F) :
    ∃ px py : F, (px + 1) / 2 * 24 = (s : F) / H * 24 ∧ (py + 1) / 2 * 94 = (t : F) / W * 94 ∧
      (transformForwardCpu pic px py).res = pic (s * W + t) := by
  have identity : ∀ i, (everyImage [1,0,0,0,1,0]).Holds (6 * i) [1,0,0,0,1,(0 : F)] :=
    everyImage_holds rfl
  have position := identity_position (H := H) (s := s) (identity 0) column
  have pixel := cell_within row column
  have low : s * W + t < N * (C * (H * W)) := Nat.lt_of_lt_of_le pixel
    ((Nat.le_mul_of_pos_left _ channels).trans (Nat.le_mul_of_pos_left _ images))
  have kept := keeps pic _ pic [] (fun i _ => identity i) (s * W + t) low
  rw [execute_dst] at kept
  refine ⟨_,_,congrArg (· * 24) position.1,congrArg (· * 94) position.2,?_⟩
  rw [← sampleAt_first pic _ channels row column]
  exact (if_pos low).symm.trans kept

private theorem reads_last (inside : ReadsInside F N C H W) (images : 1 ≤ N) (channels : 1 ≤ C)
    (rows : 1 ≤ H) (columns : 1 ≤ W) : 2256 ≤ H * W := by
  let theta : Memory F := everyImage [0,0,23 / 12 - 1,0,0,93 / 47 - 1]
  have first : (coordinate theta H W 0 (W * 0 + 0) 0 + 1) / 2 * 24 = ((23 : Int) : F) := by
    rw [coordinate_sum]
    simp only [theta,everyImage,gridEntry,Nat.mul_zero,Nat.zero_mul,Nat.zero_add,Nat.add_zero]
    norm_num
  have second : (coordinate theta H W 0 (W * 0 + 0) 1 + 1) / 2 * 94 = ((93 : Int) : F) := by
    rw [coordinate_sum]
    simp only [theta,everyImage,gridEntry,Nat.mul_zero,Nat.zero_add,Nat.one_mul,Nat.add_zero]
    norm_num
  have read := transform_reads_mem (fun _ => 0) first second (by simp) (by simp)
  rw [Int.floor_intCast,Int.floor_intCast,← sampleAt_first (C := C) _ theta channels rows columns]
    at read
  have some : 0 < N * (C * (H * W)) :=
    Nat.mul_pos images (Nat.mul_pos channels (Nat.mul_pos rows columns))
  have member : (planeOf H W 0,2255) ∈
      (execute ⟨[N,C,H,W],fun _ => 0⟩ ⟨[],theta⟩ ⟨[N,C,H,W],fun _ => 0⟩).reads := by
    rw [execute_reads]
    rw [Nat.zero_mul] at read
    exact List.mem_flatMap.mpr ⟨0,List.mem_range.mpr some,List.mem_map.mpr ⟨2255,read,rfl⟩⟩
  have low := inside _ _ _ _ _ member
  omega

/-- A picture with one element set. -/
def spot (m n : Nat) : Memory F := fun place => if place = m * 94 + n then 1 else 0

omit [IsStrictOrderedRing F] [FloorRing F] in
/-- Of the neighbours of a position only the one that is set adds to the sample. -/
theorem neighbour_spot (x y : F) {m0 n0 : Nat} (rows : m0 < 24) (columns : n0 < 94) (m n : Int) :
    neighbour (spot m0 n0) x y m n =
      if m = m0 ∧ n = n0 then hat (x - (m0 : F)) * hat (y - (n0 : F)) else 0 := by
  unfold neighbour spot
  by_cases here : m = m0 ∧ n = n0
  · obtain ⟨rfl,rfl⟩ := here
    rw [if_pos (by omega),if_pos (by omega),if_pos ⟨rfl,rfl⟩,mul_one,Int.cast_natCast,
      Int.cast_natCast]
  · rw [if_neg here]
    split
    · rw [if_neg (by omega),mul_zero]
    · rfl

omit [FloorRing F] in
private theorem hat_full {distance : F} (full : hat distance = 1) : distance = 0 := by
  have far : |distance| ≤ 0 := by
    unfold hat at full
    rcases max_choice 0 (1 - |distance|) with zero | rest
    · rw [zero] at full
      exact absurd full zero_ne_one
    · rw [rest] at full
      linarith
  exact abs_eq_zero.mp (le_antisymm far (abs_nonneg distance))

omit [FloorRing F] in
/-- A step that is as long as a pixel of the picture is one of its size. -/
theorem size_of_step {size extent : Nat} (some : 1 ≤ size)
    (full : hat (((1 : Nat) : F) / size * extent - ((1 : Nat) : F)) = 1) : size = extent := by
  have positive : (size : F) ≠ 0 := Nat.cast_ne_zero.mpr (by omega)
  have step := sub_eq_zero.mp (hat_full full)
  rw [Nat.cast_one,one_div,inv_mul_eq_div,div_eq_one_iff_eq positive] at step
  exact (Nat.cast_injective step).symm

private theorem keeps_width (keeps : KeepsInput F N C H W) (images : 1 ≤ N) (channels : 1 ≤ C)
    (rows : 1 ≤ H) (columns : 2 ≤ W) : W = 94 := by
  obtain ⟨px,py,row,column,kept⟩ := keeps_pixel keeps images channels (s := 0) (t := 1) rows columns
    (spot 0 1)
  have top : (px + 1) / 2 * 24 = ((0 : Int) : F) := by
    rw [row]
    simp
  rw [transform_whole_row _ top column,neighbour_spot _ _ (by decide) (by decide),
    neighbour_spot _ _ (by decide) (by decide)] at kept
  simp only [spot,Nat.zero_mul,Nat.zero_add,if_pos,Int.cast_zero,Nat.cast_zero,sub_self,hat_zero,
    one_mul] at kept
  apply size_of_step (F := F) (by omega)
  split at kept
  · next first =>
    rw [if_neg (by omega),add_zero] at kept
    exact kept
  · split at kept
    · rw [zero_add] at kept
      exact kept
    · rw [add_zero] at kept
      exact absurd kept zero_ne_one

private theorem keeps_height (keeps : KeepsInput F N C H 94) (images : 1 ≤ N) (channels : 1 ≤ C)
    (rows : 2 ≤ H) : H = 24 := by
  obtain ⟨px,py,row,column,kept⟩ := keeps_pixel keeps images channels (s := 1) (t := 0) rows
    (by decide) (spot 1 0)
  have left : (py + 1) / 2 * 94 = ((0 : Int) : F) := by
    rw [column]
    simp
  rw [transform_whole_column _ row left,neighbour_spot _ _ (by decide) (by decide),
    neighbour_spot _ _ (by decide) (by decide)] at kept
  simp only [spot,if_pos,Int.cast_zero,Nat.cast_zero,sub_self,hat_zero,mul_one,and_true] at kept
  apply size_of_step (F := F) (by omega)
  split at kept
  · next first =>
    rw [if_neg (by omega),add_zero] at kept
    exact kept
  · split at kept
    · rw [zero_add] at kept
      exact kept
    · rw [add_zero] at kept
      exact absurd kept zero_ne_one

/-- In a picture of one column the second row is mixed with the first. -/
theorem keeps_column (keeps : KeepsInput F N C H 1) (images : 1 ≤ N) (channels : 1 ≤ C)
    (rows : 25 ≤ H) : False := by
  obtain ⟨px,py,row,column,kept⟩ := keeps_pixel keeps images channels (s := 1) (t := 0) (by omega)
    (by decide) (spot 0 0)
  have left : (py + 1) / 2 * 94 = ((0 : Int) : F) := by
    rw [column]
    simp
  have tall : (24 : F) < H := by
    have cast : ((24 : Nat) : F) < H := Nat.cast_lt.mpr (by omega)
    simpa using cast
  have share : 0 ≤ ((1 : Nat) : F) / H * 24 ∧ ((1 : Nat) : F) / H * 24 < 1 := by
    rw [Nat.cast_one,one_div,inv_mul_eq_div,div_lt_one (by linarith)]
    exact ⟨div_nonneg (by norm_num) (by linarith),tall⟩
  have above : ⌊((1 : Nat) : F) / H * 24⌋ = 0 := Int.floor_eq_zero_iff.mpr share
  rw [transform_whole_column _ row left,above,neighbour_spot _ _ (by decide) (by decide),
    neighbour_spot _ _ (by decide) (by decide),if_pos ⟨rfl,rfl⟩,if_neg (by omega),add_zero] at kept
  have none : spot (F := F) 0 0 (1 * 1 + 0) = 0 := if_neg (by decide)
  rw [none,Int.cast_zero,Nat.cast_zero,sub_zero,sub_self,hat_zero,mul_one] at kept
  have weight : 0 < hat (((1 : Nat) : F) / H * 24) := by
    unfold hat
    rw [abs_of_nonneg share.1]
    exact lt_max_of_lt_right (by linarith)
  linarith

private theorem keeps_input (N C : Nat) : KeepsInput F N C 24 94 := by
  intro src theta dst dims identity address low
  have image : address / (C * (24 * 94)) < N :=
    Nat.div_lt_of_lt_mul (by rwa [Nat.mul_comm])
  have pixel : address % (C * (24 * 94)) % (24 * 94) < 24 * 94 := Nat.mod_lt _ (by decide)
  have line : address % (C * (24 * 94)) % (24 * 94) / 94 < 24 := Nat.div_lt_of_lt_mul pixel
  have column : address % (C * (24 * 94)) % (24 * 94) % 94 < 94 := Nat.mod_lt _ (by decide)
  obtain ⟨down,across⟩ := identity_position (H := 24)
    (s := address % (C * (24 * 94)) % (24 * 94) / 94) (identity _ image) column
  have kept := transform_whole
    (src.offset ((((address / (C * (24 * 94))) * C + address % (C * (24 * 94)) / (24 * 94)) * 24 + 0) *
      94 + 0))
    (by rw [down]; simp) (by rw [across]; simp) line column
  rw [execute_dst]
  refine (if_pos low).trans (kept.trans ?_)
  rw [offset_apply,plane_number]
  congr 1
  calc _ = (address / (24 * 94) * 24 + address % (C * (24 * 94)) % (24 * 94) / 94) * 94 +
        address % (C * (24 * 94)) % (24 * 94) % 94 := by ring
    _ = address := cell_number C 24 94 address

omit [IsStrictOrderedRing F] in
private theorem reads_inside (N C : Nat) : ReadsInside F N C 24 94 := by
  intro src theta dst dims read member
  rw [execute_reads] at member
  obtain ⟨n,_,sampled⟩ := List.mem_flatMap.mp member
  obtain ⟨place,taken,rfl⟩ := List.mem_map.mp sampled
  exact transform_reads_low _ rfl rfl taken

/-- The layer keeps its input under the identity and reads inside the planes under every
transform, if and only if the pictures have the size of those it was written for. -/
theorem identity_kept_iff {N C H W : Nat} (images : 1 ≤ N) (channels : 1 ≤ C) (rows : 1 ≤ H)
    (columns : 1 ≤ W) : KeepsInput F N C H W ∧ ReadsInside F N C H W ↔ H = 24 ∧ W = 94 := by
  constructor
  · rintro ⟨keeps,inside⟩
    have area := reads_last inside images channels rows columns
    have wide : 2 ≤ W := by
      by_contra narrow
      obtain rfl : W = 1 := by omega
      exact keeps_column keeps images channels (by omega)
    obtain rfl := keeps_width keeps images channels rows wide
    exact ⟨keeps_height keeps images channels (by omega),rfl⟩
  · rintro ⟨rfl,rfl⟩
    exact ⟨keeps_input N C,reads_inside N C⟩

end Sizes

theorem identity_kept_iff_plate : KeepsInput Rat 1 1 24 94 ∧ ReadsInside Rat 1 1 24 94 :=
  (identity_kept_iff (by decide) (by decide) (by decide) (by decide)).mpr (by decide)

/-- A picture of one row and two columns does not keep its second element. -/
theorem two_columns_lost : ¬KeepsInput Rat 1 1 1 2 := by
  intro keeps
  have width := keeps_width keeps (by decide) (by decide) (by decide) (by decide)
  omega

end VideoAnalytics.SpatialTransformer
