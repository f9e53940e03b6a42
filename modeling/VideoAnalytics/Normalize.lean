import VideoAnalytics.Grn
import VideoAnalytics.Library.InPlace
import VideoAnalytics.Softmax
import Mathlib.Algebra.BigOperators.Field
import Mathlib.Algebra.BigOperators.Fin
import Mathlib.Tactic.FieldSimp
import Mathlib.Tactic.NormNum

/-! The Normalize layer of the CPU extension in its builds with and without vectors: each
element is divided by the norm of its image or of its place, and scaled. In exact
arithmetic. -/
namespace VideoAnalytics.Normalize
open Loop Memory Lanes InPlace BlockedLayout Softmax
open Grn (sumOfSquares batch_eq)

structure NormalizeImpl (F : Type) where
  weights : List F
  acrossSpatial : Bool
  channelShared : Bool
  eps : F

variable {F : Type} [Field F]

section Vectors

/-- The lane of a register that an instruction reads. -/
def pick {width : Nat} (v : Lanes width F) (lane : Nat) : F :=
  if low : lane < width then v ⟨lane,low⟩ else 0

def movehdup (v : Lanes 4 F) : Lanes 4 F := fun lane => pick v (lane / 2 * 2 + 1)

def movehl (a b : Lanes 4 F) : Lanes 4 F :=
  fun lane => if lane.val < 2 then pick b (lane + 2) else pick a lane

def hsumSse (v : Lanes 4 F) : F :=
  let shuf := movehdup v
  let sum := zip (· + ·) v shuf
  let shuf := movehl shuf sum
  pick sum 0 + pick shuf 0

def hsumAvx2 (v : Lanes 8 F) : F :=
  let vlow : Lanes 4 F := fun lane => pick v lane
  let vhigh : Lanes 4 F := fun lane => pick v (lane + 4)
  hsumSse (zip (· + ·) vlow vhigh)

end Vectors

section Image

variable (sqrt : F → F) (layer : NormalizeImpl F) (C HW src dst size base : Nat)

/-- The scale of a channel, if the weights have it. -/
def scl (c : Nat) : Except Outside F :=
  let i := if layer.channelShared then 0 else c
  match layer.weights[i]? with
  | some weight => .ok weight
  | none => .error (.at i)

/-- Adds the squares of the lanes from an offset on. -/
def addSquares {width : Nat} (memory : Memory F) (offset : Nat) (sum : Lanes width F) :
    Except Outside (Lanes width F) := do
  let vsrc : Lanes width F ← loadu (src + size) memory (src + (base + offset))
  return fun lane => vsrc lane * vsrc lane + sum lane

/-- The norm over an image up to where the vectors reach. -/
def vectorNorm (build : Build) (memory : Memory F) : Except Outside F :=
  match build with
  | .plain => .ok layer.eps
  | .sse => do
    let vsum : Lanes 4 F ← tryLoop (C * HW / 4)
      (fun pass => addSquares src size base memory (pass * 4)) (set1 0)
    return layer.eps + hsumSse vsum
  | _ => do
    let vsum : Lanes 8 F ← tryLoop (C * HW / 8)
      (fun pass => addSquares src size base memory (pass * 8)) (set1 0)
    return layer.eps + hsumAvx2 vsum

def imageNorm (build : Build) (memory : Memory F) : Except Outside F := do
  let norm ← vectorNorm layer C HW src size base build memory
  let start := vectorPasses build (C * HW) * lanes build
  let norm : Lanes 1 F ← tryLoop (C * HW - start)
    (fun pass => addSquares src size base memory (start + pass)) (set1 norm)
  return 1 / sqrt (pick norm 0)

/-- Loads the lanes from an offset on and stores what becomes of them. -/
def rewriteBlock (width : Nat) (rewrite : Fin width → F → F) (offset : Nat) (memory : Memory F) :
    Except Outside (Memory F) := do
  let vsrc : Lanes width F ← loadu (src + size) memory (src + (base + offset))
  storeu (dst + size) memory (dst + (base + offset)) fun lane => rewrite lane (vsrc lane)

/-- The builds with vectors scale the norm first and then the elements. -/
def scaleVectors (build : Build) (norm : F) (c : Nat) (memory : Memory F) :
    Except Outside (Memory F) :=
  if build = .plain then .ok memory
  else do
    let vscl ← scl layer c
    tryLoop (HW / lanes build) (fun pass =>
      rewriteBlock src dst size base (lanes build) (fun _ value => value * (norm * vscl))
        (c * HW + pass * lanes build)) memory

def scaleChannel (build : Build) (norm : F) (c : Nat) (memory : Memory F) :
    Except Outside (Memory F) := do
  let memory ← scaleVectors layer HW src dst size base build norm c memory
  let start := vectorPasses build HW * lanes build
  tryLoop (HW - start) (fun pass memory => do
    let s ← scl layer c
    rewriteBlock src dst size base 1 (fun _ value => value * norm * s) (c * HW + (start + pass))
      memory) memory

def normalizeImage (build : Build) (memory : Memory F) : Except Outside (Memory F) := do
  let norm ← imageNorm sqrt layer C HW src size base build memory
  tryLoop C (scaleChannel layer HW src dst size base build norm) memory

/-- The channels of so many places from one on, each with the norm of its place. -/
def normalizePlaces (width wh : Nat) (memory : Memory F) : Except Outside (Memory F) := do
  let vnorm : Lanes width F ← tryLoop C (fun c => addSquares src size base memory (c * HW + wh))
    (set1 layer.eps)
  tryLoop C (fun c memory => do
    let vscl ← scl layer c
    rewriteBlock src dst size base width
      (fun lane value => value * (1 / sqrt (vnorm lane)) * vscl) (c * HW + wh) memory) memory

def normalizeEach (build : Build) (memory : Memory F) : Except Outside (Memory F) := do
  let memory ← tryLoop (vectorPasses build HW) (fun pass =>
    normalizePlaces sqrt layer C HW src dst size base (lanes build) (pass * lanes build)) memory
  let start := vectorPasses build HW * lanes build
  tryLoop (HW - start) (fun pass =>
    normalizePlaces sqrt layer C HW src dst size base 1 (start + pass)) memory

end Image

variable (sqrt : F → F)

/-- What the layer does with blobs of four dimensions. -/
def execute (build : Build) (layer : NormalizeImpl F) (inputs outputs N C H W src dst : Nat)
    (memory : Memory F) : Except ExtFailure (Memory F) :=
  if inputs ≠ 1 ∨ outputs = 0 then .error incorrectEdges
  else
    let size := N * (C * (H * W))
    (tryLoop N (fun n =>
      if layer.acrossSpatial then
        normalizeImage sqrt layer C (H * W) src dst size (n * C * H * W) build
      else normalizeEach sqrt layer C (H * W) src dst size (n * C * H * W) build) memory).mapError
        fun | .at first => .outside first

/-- The scale of a channel. -/
def weight (layer : NormalizeImpl F) (c : Nat) : F :=
  layer.weights.getD (if layer.channelShared then 0 else c) 0

/-- What an element is divided by. -/
def norm (layer : NormalizeImpl F) (C HW : Nat) (x : Nat → F) (cell : Nat) : F :=
  sqrt (layer.eps +
    if layer.acrossSpatial then
      ∑ i ∈ Finset.range (C * HW), x (cell / (C * HW) * (C * HW) + i) ^ 2
    else sumOfSquares x C HW cell)

/-- What the layer makes of an element. -/
def normalized (layer : NormalizeImpl F) (C HW : Nat) (x : Nat → F) (cell : Nat) : F :=
  let squares :=
    if layer.acrossSpatial then
      ∑ i ∈ Finset.range (C * HW), x (cell / (C * HW) * (C * HW) + i) ^ 2
    else sumOfSquares x C HW cell
  x cell * (1 / sqrt (layer.eps + squares)) * weight layer (cell / HW % C)

section Vectors

private theorem hsumSse_eq (v : Lanes 4 F) : hsumSse v = ∑ lane, v lane := by
  rw [Fin.sum_univ_four]
  simp [hsumSse,movehdup,movehl,zip,pick]
  ring

private theorem hsumAvx2_eq (v : Lanes 8 F) : hsumAvx2 v = ∑ lane, v lane := by
  unfold hsumAvx2
  rw [hsumSse_eq,Fin.sum_univ_four,Fin.sum_univ_eight]
  simp [zip,pick]
  ring

end Vectors

section Blocks

variable {layer : NormalizeImpl F} {C HW src dst size base : Nat}

private theorem scl_eq {c : Nat} (row : c < C)
    (weights : (if layer.channelShared then 1 else C) ≤ layer.weights.length) :
    scl layer c = .ok (weight layer c) := by
  have low : (if layer.channelShared then 0 else c) < layer.weights.length := by
    split_ifs at weights ⊢ <;> omega
  unfold scl weight
  dsimp only
  rw [List.getElem?_eq_getElem low,List.getD_eq_getElem _ _ low]

omit [Field F] in
private theorem rewriteBlock_partly {image : (Nat → F) → Nat → F} {before memory : Memory F}
    {done : Nat → Prop} {width offset : Nat} (rewrite : Fin width → F → F)
    (partly : Partly src dst size image before memory done) (placed : Placed src dst size)
    (within : base + offset + width ≤ size)
    (left : ∀ lane : Fin width, ¬done (base + offset + lane))
    (right : ∀ lane : Fin width, rewrite lane (before.offset src (base + offset + lane)) =
      image (before.offset src) (base + offset + lane)) :
    ∃ next, rewriteBlock src dst size base width rewrite offset memory = .ok next ∧
      Partly src dst size image before next
        fun cell => done cell ∨ base + offset ≤ cell ∧ cell < base + offset + width := by
  unfold rewriteBlock
  rw [partly.loadu placed within left]
  exact partly.storeu within right

private theorem addSquares_eq {image : (Nat → F) → Nat → F} {before memory : Memory F}
    {done : Nat → Prop} {width offset : Nat} (partly : Partly src dst size image before memory done)
    (placed : Placed src dst size) (within : base + offset + width ≤ size)
    (left : ∀ lane : Fin width, ¬done (base + offset + lane)) (sum : Lanes width F) :
    addSquares src size base memory offset sum = .ok fun lane =>
      before.offset src (base + offset + lane) ^ 2 + sum lane := by
  unfold addSquares
  rw [partly.loadu placed within left]
  simp only [sq]
  rfl

/-- Passes of addSquares from an offset on add up the squares of what they load. -/
theorem squares_sum (src size base start passes : Nat) {width : Nat} (memory : Memory F)
    (within : base + (start + passes * width) ≤ size) (sum : Lanes width F) :
    ∃ after, tryLoop passes (fun pass => addSquares src size base memory (start + pass * width)) sum =
        .ok after ∧
      ∑ lane, after lane =
        ∑ lane, sum lane +
          ∑ i ∈ Finset.range (passes * width), memory (src + (base + (start + i))) ^ 2 := by
  apply tryLoop_induct (fun passes (after : Lanes width F) => ∑ lane, after lane =
    ∑ lane, sum lane + ∑ i ∈ Finset.range (passes * width), memory (src + (base + (start + i))) ^ 2)
  · simp
  · intro pass after low summed
    have last := Nat.mul_le_mul_right width (Nat.succ_le_of_lt low)
    rw [Nat.succ_mul] at last
    have none : Partly src src size (fun x => x) memory memory fun _ => False := partly_none memory
    refine ⟨_,addSquares_eq none (.inl rfl) (by omega) (by simp) after,?_⟩
    have lanes := Fin.sum_univ_eq_sum_range
      (fun lane => memory (src + (base + (start + pass * width) + lane)) ^ 2) width
    simp only [offset_apply]
    rw [Finset.sum_add_distrib,summed,lanes,Nat.succ_mul,Finset.sum_range_add]
    simp only [Nat.add_assoc]
    ring

private theorem vectorNorm_eq (build : Build) (memory : Memory F) (within : base + C * HW ≤ size) :
    vectorNorm layer C HW src size base build memory = .ok (layer.eps +
      ∑ i ∈ Finset.range (vectorPasses build (C * HW) * lanes build),
        memory (src + (base + i)) ^ 2) := by
  have blocks (width : Nat) (hsum : Lanes width F → F) (added : ∀ v, hsum v = ∑ lane, v lane) :
      (do
        let vsum : Lanes width F ← tryLoop (C * HW / width)
          (fun pass => addSquares src size base memory (pass * width)) (set1 0)
        return layer.eps + hsum vsum : Except Outside F) = .ok (layer.eps +
          ∑ i ∈ Finset.range (C * HW / width * width), memory (src + (base + i)) ^ 2) := by
    have low := Nat.div_mul_le_self (C * HW) width
    obtain ⟨vsum,ran,summed⟩ := squares_sum src size base 0 (C * HW / width) memory (by omega)
      (set1 (0 : F) : Lanes width F)
    simp only [Nat.zero_add] at ran summed
    rw [ran]
    show Except.ok _ = _
    rw [added,summed]
    simp [set1]
  cases build with
  | plain => simp [vectorNorm,vectorPasses]
  | sse => exact blocks 4 hsumSse hsumSse_eq
  | avx2 => exact blocks 8 hsumAvx2 hsumAvx2_eq
  | avx512 => exact blocks 8 hsumAvx2 hsumAvx2_eq

/-- Each build computes the norm of an image. -/
theorem imageNorm_eq (sqrt : F → F) (build : Build) (memory : Memory F)
    (within : base + C * HW ≤ size) :
    imageNorm sqrt layer C HW src size base build memory = .ok (1 / sqrt (layer.eps +
      ∑ i ∈ Finset.range (C * HW), memory (src + (base + i)) ^ 2)) := by
  have low := vectorPasses_within build (C * HW)
  obtain ⟨norm,ran,summed⟩ := squares_sum src size base (vectorPasses build (C * HW) * lanes build)
    (C * HW - vectorPasses build (C * HW) * lanes build) memory (by omega)
    (set1 (layer.eps + ∑ i ∈ Finset.range (vectorPasses build (C * HW) * lanes build),
      memory (src + (base + i)) ^ 2) : Lanes 1 F)
  have single (lanes : Lanes 1 F) : ∑ lane, lanes lane = pick lanes 0 := by simp [pick]
  simp only [Nat.mul_one] at ran summed
  rw [single,single] at summed
  unfold imageNorm
  rw [vectorNorm_eq build memory within]
  show (do
    let norm : Lanes 1 F ← tryLoop (C * HW - vectorPasses build (C * HW) * lanes build)
      (fun pass => addSquares src size base memory
        (vectorPasses build (C * HW) * lanes build + pass)) (set1 _)
    return 1 / sqrt (pick norm 0) : Except Outside F) = _
  rw [ran]
  show Except.ok _ = _
  rw [summed]
  congr 3
  conv_rhs => rw [← Nat.add_sub_cancel' low,Finset.sum_range_add]
  simp [pick,set1,add_assoc]

/-- The entries of an image up to an offset. -/
def Upto (base reach cell : Nat) : Prop := base ≤ cell ∧ cell < base + reach

omit [Field F] in
/-- The next block behind those that have been rewritten. -/
theorem rewriteBlock_next {image : (Nat → F) → Nat → F} {before memory : Memory F}
    {width offset : Nat} {rewrite : Fin width → F → F}
    (partly : Partly src dst size image before memory (Upto base offset)) (placed : Placed src dst size)
    (within : base + offset + width ≤ size)
    (right : ∀ lane : Fin width, rewrite lane (before.offset src (base + offset + lane)) =
      image (before.offset src) (base + offset + lane)) :
    ∃ next, rewriteBlock src dst size base width rewrite offset memory = .ok next ∧
      Partly src dst size image before next (Upto base (offset + width)) := by
  obtain ⟨next,ran,after⟩ := rewriteBlock_partly rewrite partly placed within
    (fun lane inside => by unfold Upto at inside; omega) right
  refine ⟨next,ran,after.congr ?_⟩
  intro cell _
  unfold Upto
  omega

omit [Field F] in
/-- Blocks of a channel one after the other. -/
theorem blocks_upto {image : (Nat → F) → Nat → F} {before memory : Memory F} {c : Nat}
    (width start passes : Nat) (rewrite : F → F) (placed : Placed src dst size)
    (room : base + (c * HW + HW) ≤ size)
    (right : ∀ l < HW, rewrite (before.offset src (base + (c * HW + l))) =
      image (before.offset src) (base + (c * HW + l)))
    (partly : Partly src dst size image before memory (Upto base (c * HW + start)))
    (within : start + passes * width ≤ HW) :
    ∃ next, tryLoop passes (fun pass => rewriteBlock src dst size base width (fun _ => rewrite)
        (c * HW + (start + pass * width))) memory = .ok next ∧
      Partly src dst size image before next (Upto base (c * HW + (start + passes * width))) := by
  apply tryLoop_induct (fun pass next => Partly src dst size image before next
    (Upto base (c * HW + (start + pass * width))))
  · simpa using partly
  · intro pass next low reached
    have last := Nat.mul_le_mul_right width (Nat.succ_le_of_lt low)
    rw [Nat.succ_mul] at last
    have values (lane : Fin width) :
        rewrite (before.offset src (base + (c * HW + (start + pass * width)) + lane)) =
          image (before.offset src) (base + (c * HW + (start + pass * width)) + lane) := by
      have place := lane.isLt
      rw [Nat.add_assoc,Nat.add_assoc]
      exact right (start + pass * width + lane) (by omega)
    have block := rewriteBlock_next reached placed (by omega) values
    rwa [Nat.add_assoc,Nat.add_assoc,← Nat.succ_mul] at block

end Blocks

section Image

variable {layer : NormalizeImpl F} {C HW src dst size n : Nat} {before memory : Memory F}

/-- Where an element of a channel lies. -/
theorem element_of {c l : Nat} (row : c < C) (place : l < HW) :
    (n * (C * HW) + (c * HW + l)) / (C * HW) = n ∧
      (n * (C * HW) + (c * HW + l)) / HW % C = c ∧ (n * (C * HW) + (c * HW + l)) % HW = l := by
  have split : n * (C * HW) + (c * HW + l) = (n * C + c) * HW + l := by ring
  rw [split,batch_eq row place,cell_row _ place,cell_col _ place,cell_col _ row]
  exact ⟨rfl,rfl,rfl⟩

private theorem scaleChannel_partly (build : Build) {norm : F} {c : Nat} (row : c < C)
    (placed : Placed src dst size) (room : n * (C * HW) + C * HW ≤ size)
    (weights : (if layer.channelShared then 1 else C) ≤ layer.weights.length)
    (across : layer.acrossSpatial = true)
    (right : norm = 1 / sqrt (layer.eps +
      ∑ i ∈ Finset.range (C * HW), before (src + (n * (C * HW) + i)) ^ 2))
    (partly : Partly src dst size (normalized sqrt layer C HW) before memory
      (Upto (n * (C * HW)) (c * HW))) :
    ∃ next, scaleChannel layer HW src dst size (n * (C * HW)) build norm c memory = .ok next ∧
      Partly src dst size (normalized sqrt layer C HW) before next
        (Upto (n * (C * HW)) ((c + 1) * HW)) := by
  have last := Nat.mul_le_mul_right HW (Nat.succ_le_of_lt row)
  rw [Nat.succ_mul] at last
  have low := vectorPasses_within build HW
  have value (l : Nat) (place : l < HW) :
      normalized sqrt layer C HW (before.offset src) (n * (C * HW) + (c * HW + l)) =
        before.offset src (n * (C * HW) + (c * HW + l)) * norm * weight layer c := by
    have here := element_of (n := n) row place
    unfold normalized
    rw [here.1,here.2.1,across,right]
    rfl
  obtain ⟨between,ran,vectors⟩ : ∃ between,
      scaleVectors layer HW src dst size (n * (C * HW)) build norm c memory = .ok between ∧
        Partly src dst size (normalized sqrt layer C HW) before between
          (Upto (n * (C * HW)) (c * HW + vectorPasses build HW * lanes build)) := by
    unfold scaleVectors
    by_cases plain : build = .plain
    · rw [if_pos plain]
      exact ⟨memory,rfl,by simpa [vectorPasses,plain] using partly⟩
    · have passes : vectorPasses build HW = HW / lanes build := if_neg plain
      rw [passes] at low ⊢
      rw [if_neg plain,scl_eq row weights]
      have blocks := blocks_upto (lanes build) 0 (HW / lanes build)
        (fun value => value * (norm * weight layer c)) placed (by omega)
        (fun l place => by rw [value l place,mul_assoc]) partly (by omega)
      simp only [Nat.zero_add] at blocks
      exact blocks
  have tail := blocks_upto 1 (vectorPasses build HW * lanes build)
    (HW - vectorPasses build HW * lanes build)
    (fun value => value * norm * weight layer c) placed (by omega)
    (fun l place => (value l place).symm) vectors (by omega)
  simp only [Nat.mul_one,Nat.add_sub_cancel' low] at tail
  unfold scaleChannel
  rw [ran]
  simp only [scl_eq row weights]
  rw [Nat.succ_mul]
  exact tail

private theorem normalizeImage_partly (build : Build) (placed : Placed src dst size)
    (room : n * (C * HW) + C * HW ≤ size)
    (weights : (if layer.channelShared then 1 else C) ≤ layer.weights.length)
    (across : layer.acrossSpatial = true) (before : Memory F) :
    ∃ next, normalizeImage sqrt layer C HW src dst size (n * (C * HW)) build before = .ok next ∧
      Partly src dst size (normalized sqrt layer C HW) before next
        (Upto (n * (C * HW)) (C * HW)) := by
  unfold normalizeImage
  rw [imageNorm_eq sqrt build before room]
  apply tryLoop_induct (fun c next => Partly src dst size (normalized sqrt layer C HW) before next
    (Upto (n * (C * HW)) (c * HW)))
  · apply (partly_none before).congr
    intro cell _
    simp [Upto]
  · intro c memory row partly
    exact scaleChannel_partly sqrt build row placed room weights across rfl partly

/-- The rows so far have been rewritten from a place on, and all rows at the places before. -/
def Columns (base C HW wh width rows cell : Nat) : Prop :=
  ∃ c < C, ∃ l < HW, cell = base + (c * HW + l) ∧ (l < wh ∨ c < rows ∧ l < wh + width)

private theorem columns_cell {base wh width rows c l : Nat} (row : c < C) (place : l < HW) :
    Columns base C HW wh width rows (base + (c * HW + l)) ↔ l < wh ∨ c < rows ∧ l < wh + width := by
  constructor
  · rintro ⟨other,_,k,inside,same,reached⟩
    obtain ⟨rfl,rfl⟩ := (cell_inj c other place inside).mp (Nat.add_left_cancel same)
    exact reached
  · intro reached
    exact ⟨c,row,l,place,rfl,reached⟩

private theorem columns_next {base wh width c cell : Nat} (row : c < C) (fits : wh + width ≤ HW) :
    Columns base C HW wh width c cell ∨
        base + (c * HW + wh) ≤ cell ∧ cell < base + (c * HW + wh) + width ↔
      Columns base C HW wh width (c + 1) cell := by
  constructor
  · rintro (⟨other,within,l,place,rfl,reached⟩ | inside)
    · exact ⟨other,within,l,place,rfl,by omega⟩
    · exact ⟨c,row,cell - (base + c * HW),by omega,by omega,by omega⟩
  · rintro ⟨other,within,l,place,rfl,reached⟩
    by_cases earlier : l < wh ∨ other < c ∧ l < wh + width
    · exact .inl ⟨other,within,l,place,rfl,earlier⟩
    · obtain rfl : other = c := by omega
      exact .inr (by omega)

/-- The sum of squares that a place has. -/
theorem placeNorm_eq (layer : NormalizeImpl F) {image : (Nat → F) → Nat → F} {wh width : Nat}
    (placed : Placed src dst size) (room : n * (C * HW) + C * HW ≤ size) (fits : wh + width ≤ HW)
    (partly : Partly src dst size image before memory (Columns (n * (C * HW)) C HW wh 0 0)) :
    ∃ vnorm : Lanes width F, tryLoop C
        (fun c => addSquares src size (n * (C * HW)) memory (c * HW + wh)) (set1 layer.eps) = .ok vnorm ∧
      ∀ lane : Fin width, vnorm lane = layer.eps + ∑ c ∈ Finset.range C,
        before.offset src (n * (C * HW) + (c * HW + (wh + lane))) ^ 2 := by
  apply tryLoop_induct (fun rows (vnorm : Lanes width F) => ∀ lane : Fin width, vnorm lane =
    layer.eps + ∑ c ∈ Finset.range rows,
      before.offset src (n * (C * HW) + (c * HW + (wh + lane))) ^ 2)
  · simp [set1]
  · intro c vnorm row summed
    have last := Nat.mul_le_mul_right HW (Nat.succ_le_of_lt row)
    rw [Nat.succ_mul] at last
    refine ⟨_,addSquares_eq partly placed (by omega) ?_ vnorm,?_⟩
    · intro lane done
      have place := lane.isLt
      rw [Nat.add_assoc,Nat.add_assoc,columns_cell row (by omega)] at done
      omega
    · intro lane
      rw [summed lane,Finset.sum_range_succ,Nat.add_assoc,Nat.add_assoc]
      ring

private theorem normalized_place {c l : Nat} (row : c < C) (place : l < HW)
    (across : layer.acrossSpatial = false) (x : Nat → F) :
    normalized sqrt layer C HW x (n * (C * HW) + (c * HW + l)) =
      x (n * (C * HW) + (c * HW + l)) * (1 / sqrt (layer.eps +
        ∑ other ∈ Finset.range C, x (n * (C * HW) + (other * HW + l)) ^ 2)) * weight layer c := by
  have here := element_of (n := n) row place
  unfold normalized sumOfSquares
  simp only [here.1,here.2.1,here.2.2,across,Nat.add_assoc]
  rfl

private theorem normalizePlaces_partly {wh : Nat} (width : Nat) (placed : Placed src dst size)
    (room : n * (C * HW) + C * HW ≤ size) (fits : wh + width ≤ HW)
    (weights : (if layer.channelShared then 1 else C) ≤ layer.weights.length)
    (across : layer.acrossSpatial = false)
    (partly : Partly src dst size (normalized sqrt layer C HW) before memory
      (Columns (n * (C * HW)) C HW wh 0 0)) :
    ∃ next, normalizePlaces sqrt layer C HW src dst size (n * (C * HW)) width wh memory = .ok next ∧
      Partly src dst size (normalized sqrt layer C HW) before next
        (Columns (n * (C * HW)) C HW (wh + width) 0 0) := by
  obtain ⟨vnorm,ran,norms⟩ := placeNorm_eq layer placed room fits partly
  have rows : ∃ next, tryLoop C (fun c memory => do
      let vscl ← scl layer c
      rewriteBlock src dst size (n * (C * HW)) width
        (fun lane value => value * (1 / sqrt (vnorm lane)) * vscl) (c * HW + wh) memory) memory =
          .ok next ∧
      Partly src dst size (normalized sqrt layer C HW) before next
        (Columns (n * (C * HW)) C HW wh width C) := by
    apply tryLoop_induct (fun rows next => Partly src dst size (normalized sqrt layer C HW) before next
      (Columns (n * (C * HW)) C HW wh width rows))
    · apply partly.congr
      intro cell _
      simp [Columns]
    · intro c next row reached
      have last := Nat.mul_le_mul_right HW (Nat.succ_le_of_lt row)
      rw [Nat.succ_mul] at last
      rw [scl_eq row weights]
      have left (lane : Fin width) : ¬Columns (n * (C * HW)) C HW wh width c
          (n * (C * HW) + (c * HW + wh) + lane) := by
        have place := lane.isLt
        rw [Nat.add_assoc,Nat.add_assoc,columns_cell row (by omega)]
        omega
      have right (lane : Fin width) :
          before.offset src (n * (C * HW) + (c * HW + wh) + lane) * (1 / sqrt (vnorm lane)) *
              weight layer c =
            normalized sqrt layer C HW (before.offset src) (n * (C * HW) + (c * HW + wh) + lane) := by
        have place := lane.isLt
        rw [Nat.add_assoc,Nat.add_assoc,normalized_place sqrt row (by omega) across,norms lane]
      obtain ⟨after,wrote,rewritten⟩ := rewriteBlock_partly
        (fun lane value => value * (1 / sqrt (vnorm lane)) * weight layer c) reached placed (by omega)
        left right
      exact ⟨after,wrote,rewritten.congr fun cell _ => columns_next row fits⟩
  obtain ⟨next,wrote,rewritten⟩ := rows
  refine ⟨next,?_,rewritten.congr ?_⟩
  · unfold normalizePlaces
    rw [ran]
    exact wrote
  · intro cell _
    constructor
    · rintro ⟨c,row,l,place,rfl,reached⟩
      exact ⟨c,row,l,place,rfl,by omega⟩
    · rintro ⟨c,row,l,place,rfl,reached⟩
      exact ⟨c,row,l,place,rfl,by omega⟩

private theorem columns_all (base cell : Nat) : Columns base C HW HW 0 0 cell ↔ Upto base
    (C * HW) cell := by
  constructor
  · rintro ⟨c,row,l,place,rfl,-⟩
    have inside := cell_within row place
    unfold Upto
    omega
  · rintro ⟨low,high⟩
    have some : 0 < HW := Nat.pos_of_lt_mul_left (show cell - base < C * HW by omega)
    have row : (cell - base) / HW < C := Nat.div_lt_of_lt_mul (by rw [Nat.mul_comm]; omega)
    refine ⟨(cell - base) / HW,row,(cell - base) % HW,Nat.mod_lt _ some,?_,.inl (Nat.mod_lt _ some)⟩
    rw [Nat.div_add_mod']
    omega

/-- Blocks of places one after the other. -/
theorem places_columns (width start passes : Nat) (placed : Placed src dst size)
    (room : n * (C * HW) + C * HW ≤ size) (within : start + passes * width ≤ HW)
    (weights : (if layer.channelShared then 1 else C) ≤ layer.weights.length)
    (across : layer.acrossSpatial = false)
    (partly : Partly src dst size (normalized sqrt layer C HW) before memory
      (Columns (n * (C * HW)) C HW start 0 0)) :
    ∃ next, tryLoop passes (fun pass => normalizePlaces sqrt layer C HW src dst size (n * (C * HW))
        width (start + pass * width)) memory = .ok next ∧
      Partly src dst size (normalized sqrt layer C HW) before next
        (Columns (n * (C * HW)) C HW (start + passes * width) 0 0) := by
  apply tryLoop_induct (fun pass next => Partly src dst size (normalized sqrt layer C HW) before next
    (Columns (n * (C * HW)) C HW (start + pass * width) 0 0))
  · simpa using partly
  · intro pass next low reached
    have last := Nat.mul_le_mul_right width (Nat.succ_le_of_lt low)
    rw [Nat.succ_mul] at last
    have block := normalizePlaces_partly sqrt width placed room (by omega) weights across reached
    rwa [Nat.add_assoc,← Nat.succ_mul] at block

private theorem normalizeEach_partly (build : Build) (placed : Placed src dst size)
    (room : n * (C * HW) + C * HW ≤ size)
    (weights : (if layer.channelShared then 1 else C) ≤ layer.weights.length)
    (across : layer.acrossSpatial = false) (before : Memory F) :
    ∃ next, normalizeEach sqrt layer C HW src dst size (n * (C * HW)) build before = .ok next ∧
      Partly src dst size (normalized sqrt layer C HW) before next
        (Upto (n * (C * HW)) (C * HW)) := by
  have low := vectorPasses_within build HW
  have none : Partly src dst size (normalized sqrt layer C HW) before before
      (Columns (n * (C * HW)) C HW 0 0 0) :=
    (partly_none before).congr fun cell _ => by simp [Columns]
  obtain ⟨between,vectors,reached⟩ := places_columns sqrt (lanes build) 0 (vectorPasses build HW)
    placed room (by omega) weights across none
  have tail := places_columns sqrt 1 (0 + vectorPasses build HW * lanes build)
    (HW - vectorPasses build HW * lanes build) placed room (by omega) weights across reached
  simp only [Nat.zero_add,Nat.mul_one,Nat.add_sub_cancel' low] at vectors tail
  obtain ⟨next,single,rewritten⟩ := tail
  refine ⟨next,?_,rewritten.congr fun cell _ => columns_all _ cell⟩
  unfold normalizeEach
  rw [vectors]
  exact single

end Image

section Layer

variable {layer : NormalizeImpl F} {N C H W src dst : Nat}

private theorem normalized_local (layer : NormalizeImpl F) (C HW : Nat) :
    Local (C * HW) (normalized sqrt layer C HW) := by
  intro x y cell same
  have image (i : Nat) (low : i < C * HW) :
      x (cell / (C * HW) * (C * HW) + i) = y (cell / (C * HW) * (C * HW) + i) :=
    same _ (cell_row _ low)
  have place (c : Nat) (row : c < C) : x (cell / (C * HW) * (C * HW) + c * HW + cell % HW) =
      y (cell / (C * HW) * (C * HW) + c * HW + cell % HW) := by
    by_cases none : HW = 0
    · exact same _ (by simp [none])
    · rw [Nat.add_assoc]
      exact image _ (cell_within row (Nat.mod_lt _ (Nat.pos_of_ne_zero none)))
  have images := Finset.sum_congr rfl fun i member =>
    congrArg (fun value : F => value ^ 2) (image i (Finset.mem_range.mp member))
  have places := Finset.sum_congr rfl fun c member =>
    congrArg (fun value : F => value ^ 2) (place c (Finset.mem_range.mp member))
  unfold normalized sumOfSquares
  rw [images,places,same cell rfl]

private theorem execute_rewrites (build : Build) {outputs : Nat} (edges : 0 < outputs)
    (before : Memory F) (placed : Placed src dst (N * (C * (H * W))))
    (weights : (if layer.channelShared then 1 else C) ≤ layer.weights.length) :
    ∃ after, execute sqrt build layer 1 outputs N C H W src dst before = .ok after ∧
      Rewrites src dst (N * (C * (H * W))) (normalized sqrt layer C (H * W)) before after := by
  have images : ∃ after, tryLoop N (fun n =>
      if layer.acrossSpatial then
        normalizeImage sqrt layer C (H * W) src dst (N * (C * (H * W))) (n * C * H * W) build
      else normalizeEach sqrt layer C (H * W) src dst (N * (C * (H * W))) (n * C * H * W) build)
        before = .ok after ∧
      Rewrites src dst (N * (C * (H * W))) (normalized sqrt layer C (H * W)) before after := by
    apply exists_blocks before placed (normalized_local sqrt layer C (H * W))
    intro n memory low
    have base : n * C * H * W = n * (C * (H * W)) := by ring
    have room : n * (C * (H * W)) + C * (H * W) ≤ N * (C * (H * W)) := by
      rw [← Nat.succ_mul]
      exact Nat.mul_le_mul_right _ (Nat.succ_le_of_lt low)
    have whole (cell : Nat) (inside : cell < N * (C * (H * W))) :
        Upto (n * (C * (H * W))) (C * (H * W)) cell ↔ cell / (C * (H * W)) = n := by
      have some : 0 < C * (H * W) := Nat.pos_of_lt_mul_left inside
      unfold Upto
      rw [Nat.div_eq_iff some]
      omega
    rw [base]
    by_cases across : layer.acrossSpatial = true
    · obtain ⟨next,ran,partly⟩ := normalizeImage_partly sqrt build placed room weights across memory
      exact ⟨next,by rw [if_pos across,ran],partly.congr whole⟩
    · obtain ⟨next,ran,partly⟩ := normalizeEach_partly sqrt build placed room weights
        (Bool.eq_false_iff.mpr across) memory
      exact ⟨next,by rw [if_neg across,ran],partly.congr whole⟩
  obtain ⟨after,ran,rewrites⟩ := images
  refine ⟨after,?_,rewrites⟩
  unfold execute
  rw [if_neg (by omega)]
  dsimp only
  rw [ran]
  rfl

/-- All builds, from one area to another or in place, keep within their buffers and come to the
same: each element has been divided by the norm of its image or its place, which is not 0, and
scaled, and nothing else has changed. -/
theorem builds_normalize (layer : NormalizeImpl F) {outputs : Nat} (edges : 0 < outputs)
    (before : Memory F) (placed : Placed src dst (N * (C * (H * W))))
    (weights : (if layer.channelShared then 1 else C) ≤ layer.weights.length)
    (divides : ∀ cell < N * (C * (H * W)),
      norm sqrt layer C (H * W) (before.offset src) cell ≠ 0) :
    ∃ after, (∀ build, execute sqrt build layer 1 outputs N C H W src dst before = .ok after) ∧
      Rewrites src dst (N * (C * (H * W))) (normalized sqrt layer C (H * W)) before after ∧
      ∀ cell < N * (C * (H * W)),
        after (dst + cell) * norm sqrt layer C (H * W) (before.offset src) cell =
          before (src + cell) * weight layer (cell / (H * W) % C) := by
  obtain ⟨after,-,rewrites⟩ := execute_rewrites sqrt .plain edges before placed weights
  refine ⟨after,?_,rewrites,?_⟩
  · intro build
    obtain ⟨other,ran,also⟩ := execute_rewrites sqrt build edges before placed weights
    rw [ran,rewrites.unique also]
  · intro cell below
    have nonzero := divides cell below
    have value : normalized sqrt layer C (H * W) (before.offset src) cell =
        before (src + cell) * (1 / norm sqrt layer C (H * W) (before.offset src) cell) *
          weight layer (cell / (H * W) % C) := rfl
    rw [rewrites.cells cell below trivial,value]
    field_simp

theorem builds_normalize_places :
    ∃ after, (∀ build, execute (fun square : Rat => if square = 9 then 3 else 9) build
        ⟨[2,10],false,false,1⟩ 1 1 1 2 1 2 7 7 (fun address => [2,4,2,8].getD (address - 7) 0) =
          .ok after) ∧
      after 7 = 4 / 3 ∧ after 8 = 8 / 9 ∧ after 9 = 20 / 3 ∧ after 10 = 80 / 9 := by
  obtain ⟨after,ran,rewrites,-⟩ := builds_normalize (fun square : Rat => if square = 9 then 3 else 9)
    ⟨[2,10],false,false,1⟩ (N := 1) (C := 2) (H := 1) (W := 2) (Nat.one_pos : 0 < 1)
    (fun address => [2,4,2,8].getD (address - 7) 0) (.inl rfl : Placed 7 7 _) (by decide)
    (by decide +kernel)
  refine ⟨after,ran,?_,?_,?_,?_⟩
  · rw [rewrites.cells 0 (by decide) trivial]
    norm_num [normalized,sumOfSquares,weight,Finset.sum_range_succ]
  · rw [rewrites.cells 1 (by decide) trivial]
    norm_num [normalized,sumOfSquares,weight,Finset.sum_range_succ]
  · rw [rewrites.cells 2 (by decide) trivial]
    norm_num [normalized,sumOfSquares,weight,Finset.sum_range_succ]
  · rw [rewrites.cells 3 (by decide) trivial]
    norm_num [normalized,sumOfSquares,weight,Finset.sum_range_succ]

end Layer

end VideoAnalytics.Normalize
