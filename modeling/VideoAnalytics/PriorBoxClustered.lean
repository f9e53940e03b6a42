import VideoAnalytics.DetectionOutput
import VideoAnalytics.ExtLayer
import Mathlib.Tactic.Ring

/-! The PriorBoxClustered layer of the CPU extension and the variances that
DetectionOutput reads in its output. -/
namespace VideoAnalytics.PriorBoxClustered
open Loop Memory

variable {F D : Type}

structure Impl (F : Type) where
  widths : List F
  heights : List F
  clip : Bool
  variance : List F
  imgH : Int
  imgW : Int
  step : F
  stepH : F
  stepW : F
  offset : F
  deriving DecidableEq

/-- float and double with the conversions between them, and the constant 0.1. -/
structure Doubles (F D : Type) where
  widen : F → D
  narrow : D → F
  tenth : D

structure Grid (F : Type) where
  layerWidth : Nat
  layerHeight : Nat
  imgWidth : Int
  imgHeight : Int
  stepW : F
  stepH : F

section Execute

variable [FloatType F] [FloatType D] (doubles : Doubles F D) (impl : Impl F) (grid : Grid F)

def gridOf (data image : ExtBlob F) : Grid F where
  layerWidth := data.dim 3
  layerHeight := data.dim 2
  imgWidth := if impl.imgW = 0 then (image.dim 3 : Int) else impl.imgW
  imgHeight := if impl.imgH = 0 then (image.dim 2 : Int) else impl.imgH
  stepW := if impl.stepW == ((0 : Int) : F) then impl.step else impl.stepW
  stepH := if impl.stepH == ((0 : Int) : F) then impl.step else impl.stepH

def sides (center size : F) (img : Int) : F × F :=
  let half := doubles.widen size / ((2 : Int) : D)
  let low := doubles.narrow ((doubles.widen center - half) / (img : D))
  let high := doubles.narrow ((doubles.widen center + half) / (img : D))
  let bounded (side : F) := stdMin (stdMax side ((0 : Int) : F)) ((1 : Int) : F)
  if impl.clip then (bounded low,bounded high) else (low,high)

def writePrior (varSize topData1 h w s : Nat) (memory : Memory F) : Memory F :=
  let numPriors := impl.widths.length
  let zero : F := ((0 : Int) : F)
  let x := sides doubles impl ((((w : Int) : F) + impl.offset) * grid.stepW)
    (impl.widths.getD s zero) grid.imgWidth
  let y := sides doubles impl ((((h : Int) : F) + impl.offset) * grid.stepH)
    (impl.heights.getD s zero) grid.imgHeight
  let topData0 := h * grid.layerWidth * numPriors * 4 + w * numPriors * 4 + s * 4
  let memory := (((memory.write (topData0 + 0) x.1).write (topData0 + 1) y.1).write
    (topData0 + 2) x.2).write (topData0 + 3) y.2
  forLoop varSize (fun j memory => memory.write (topData1 + (h * grid.layerWidth * numPriors * varSize +
    w * numPriors * varSize + s * varSize + j)) (impl.variance.getD j zero)) memory

/-- The layer keeps the variance that it takes for an empty list. -/
def execute (data image output : ExtBlob F) : Impl F × Memory F :=
  let impl := if impl.variance.isEmpty then {impl with variance := [doubles.narrow doubles.tenth]}
    else impl
  let grid := gridOf impl data image
  let topData1 := output.dim 2
  let varSize := impl.variance.length
  (impl,forLoop grid.layerHeight (fun h => forLoop grid.layerWidth fun w =>
    forLoop impl.widths.length fun s => writePrior doubles impl grid varSize topData1 h w s)
      output.data)

end Execute

/-- What decodeBBoxes reads as variance_data. -/
def varianceData (reader : DetectionOutput.Impl F) (priorData : Memory F) : Memory F :=
  priorData.offset (reader.numPriors * reader.priorSize)

section Variances

private theorem flat_index (n rows cols size : Nat) :
    n / (rows * cols) * rows * cols * size + n % (rows * cols) / cols * cols * size +
      n % (rows * cols) % cols * size = n * size := by
  have row := Nat.div_add_mod (n % (rows * cols)) cols
  have plane := Nat.div_add_mod n (rows * cols)
  calc _ = (rows * cols * (n / (rows * cols)) + (cols * (n % (rows * cols) / cols) +
        n % (rows * cols) % cols)) * size := by ring
    _ = n * size := by rw [row,plane]

variable [FloatType F] [FloatType D] (doubles : Doubles F D) (impl : Impl F) (grid : Grid F)

private theorem writePrior_variances {varSize topData1 h w s n : Nat} (memory : Memory F)
    (flat : ∀ size, h * grid.layerWidth * impl.widths.length * size +
      w * impl.widths.length * size + s * size = n * size)
    (within : n * 4 + 4 ≤ topData1) (i : Nat) :
    writePrior doubles impl grid varSize topData1 h w s memory (topData1 + i) =
      if n * varSize ≤ i ∧ i < n * varSize + varSize then
        impl.variance.getD (i - n * varSize) ((0 : Int) : F)
      else memory (topData1 + i) := by
  unfold writePrior
  simp only [flat,← Nat.add_assoc topData1]
  rw [forLoop_write,write_other _ _ _ _ (by omega),write_other _ _ _ _ (by omega),
    write_other _ _ _ _ (by omega),write_other _ _ _ _ (by omega),Nat.add_assoc topData1,
    Nat.add_sub_add_left]
  apply if_congr _ rfl rfl
  omega

/-- The variances lie one behind the other in the second row, as many for each prior
as the layer has. -/
theorem writePriors_variances (varSize topData1 : Nat) (dst : Memory F)
    (rows : topData1 = grid.layerHeight * (grid.layerWidth * impl.widths.length) * 4) (i : Nat) :
    forLoop grid.layerHeight (fun h => forLoop grid.layerWidth fun w =>
      forLoop impl.widths.length fun s => writePrior doubles impl grid varSize topData1 h w s)
        dst (topData1 + i) =
      if i < grid.layerHeight * (grid.layerWidth * impl.widths.length) * varSize then
        impl.variance.getD (i % varSize) ((0 : Int) : F)
      else dst (topData1 + i) := by
  rw [forLoop_planes]
  apply forLoop_induct fun n (memory : Memory F) => memory (topData1 + i) =
    if i < n * varSize then impl.variance.getD (i % varSize) ((0 : Int) : F)
    else dst (topData1 + i)
  · rw [Nat.zero_mul,if_neg (Nat.not_lt_zero i)]
  · intro n memory within before
    have room : n * 4 + 4 ≤ topData1 := by
      rw [rows]
      omega
    rw [writePrior_variances doubles impl grid memory (flat_index n _ _) room,before,Nat.succ_mul]
    by_cases earlier : i < n * varSize
    · rw [if_neg (by omega),if_pos earlier,if_pos (by omega)]
    · by_cases here : i < n * varSize + varSize
      · have offset : i % varSize = i - n * varSize := by
          rw [show i = n * varSize + (i - n * varSize) by omega,cell_col n (by omega)]
          omega
        rw [if_pos ⟨by omega,here⟩,if_pos here,offset]
      · rw [if_neg (by omega),if_neg earlier,if_neg here]

end Variances

section Reader

variable [FloatType F] [FloatType D]

def varianceOr (doubles : Doubles F D) (impl : Impl F) : List F :=
  if impl.variance.isEmpty then [doubles.narrow doubles.tenth] else impl.variance

/-- The variance of a coordinate: its own, or the single one. -/
def varianceOf (variances : List F) (k : Nat) : F :=
  variances.getD (if variances.length = 1 then 0 else k) ((0 : Int) : F)

/-- For each prior and coordinate the reader finds the variance that the layer has. -/
def VariancesRead (doubles : Doubles F D) (impl : Impl F) (data image output : ExtBlob F)
    (reader : DetectionOutput.Impl F) : Prop :=
  ∀ p, p < reader.numPriors → ∀ k, k < 4 →
    varianceData reader (execute doubles impl data image output).2 (p * 4 + k) =
      varianceOf (varianceOr doubles impl) k

private theorem execute_variances (doubles : Doubles F D) (impl : Impl F)
    (data image output : ExtBlob F)
    (row : output.dim 2 = data.dim 2 * (data.dim 3 * impl.widths.length) * 4) (i : Nat) :
    (execute doubles impl data image output).2 (output.dim 2 + i) =
      if i < data.dim 2 * (data.dim 3 * impl.widths.length) * (varianceOr doubles impl).length then
        (varianceOr doubles impl).getD (i % (varianceOr doubles impl).length) ((0 : Int) : F)
      else output.data (output.dim 2 + i) := by
  unfold execute varianceOr
  dsimp only
  split
  · exact writePriors_variances doubles _ _ _ _ _ row i
  · exact writePriors_variances doubles _ _ _ _ _ row i

/-- The reader finds the variances if and only if there are four, or the rest of their
row already holds the single one. -/
theorem variances_read_iff (doubles : Doubles F D) (impl : Impl F) (data image output : ExtBlob F)
    (reader : DetectionOutput.Impl F)
    (accepted : impl.variance.length = 0 ∨ impl.variance.length = 1 ∨ impl.variance.length = 4)
    (rows : output.dims = [1,2,data.dim 2 * (data.dim 3 * impl.widths.length) * 4])
    (normalized : reader.normalized = true)
    (priors : reader.numPriors = output.dim 2 / reader.priorSize) :
    VariancesRead doubles impl data image output reader ↔ impl.variance.length = 4 ∨
      ∀ i, reader.numPriors ≤ i → i < reader.numPriors * 4 →
        output.data (output.dim 2 + i) = varianceOf (varianceOr doubles impl) 0 := by
  have four : reader.priorSize = 4 := by simp [DetectionOutput.Impl.priorSize,normalized]
  have row : output.dim 2 = data.dim 2 * (data.dim 3 * impl.widths.length) * 4 := by
    simp [ExtBlob.dim,rows]
  have count : reader.numPriors = data.dim 2 * (data.dim 3 * impl.widths.length) := by
    rw [priors,four,row,Nat.mul_div_cancel _ (by decide)]
  have start : reader.numPriors * reader.priorSize = output.dim 2 := by rw [count,four,row]
  have cells := execute_variances doubles impl data image output row
  rw [← count] at cells
  unfold VariancesRead varianceData
  simp only [offset_apply,start,cells]
  by_cases all : impl.variance.length = 4
  · have kept : varianceOr doubles impl = impl.variance := by
      unfold varianceOr
      rw [if_neg (by simp [List.isEmpty_iff,← List.length_eq_zero_iff,all])]
    simp only [kept,all,varianceOf,true_or,iff_true]
    intro p low k inside
    rw [if_pos (by omega),cell_col p inside,if_neg (by decide)]
  · have one : (varianceOr doubles impl).length = 1 := by
      unfold varianceOr
      split
      · rfl
      · next some =>
        rw [List.isEmpty_iff,← List.length_eq_zero_iff] at some
        omega
    simp only [all,false_or,one,varianceOf,if_true,Nat.mul_one,Nat.mod_one]
    constructor
    · intro read i low high
      have cell := read (i / 4) (by omega) (i % 4) (Nat.mod_lt _ (by decide))
      rwa [Nat.div_add_mod' i 4,if_neg (by omega)] at cell
    · intro filled p low k inside
      split
      · rfl
      · exact filled _ (by omega) (by omega)

end Reader

def onePrior (variance : List Rat) : Impl Rat :=
  ⟨[16],[16],false,variance,0,0,16,0,0,1 / 2⟩

def ratDoubles : Doubles Rat Rat := ⟨id,id,1 / 10⟩

def reader (numPriors : Nat) : DetectionOutput.Impl Rat :=
  ⟨2,0,-1,false,-1,1 / 2,0,true,true,1,1,.corner,numPriors⟩

def filledBlob (dims : List Nat) (value : Rat) : ExtBlob Rat := ⟨dims,fun _ => value⟩

theorem variances_read_two_places : VariancesRead ratDoubles (onePrior [1 / 10,1 / 10,1 / 5,1 / 5])
    (filledBlob [1,1,2,1] 0) (filledBlob [1,3,32,16] 0) (filledBlob [1,2,8] 7) (reader 2) :=
  (variances_read_iff ratDoubles (onePrior [1 / 10,1 / 10,1 / 5,1 / 5]) (filledBlob [1,1,2,1] 0)
    (filledBlob [1,3,32,16] 0) (filledBlob [1,2,8] 7) (reader 2) (.inr (.inr rfl)) rfl rfl rfl).mpr
    (.inl rfl)

/-- With a single variance the reader of a box finds what was there before. -/
theorem variances_stale : ¬VariancesRead ratDoubles (onePrior [1 / 10]) (filledBlob [1,1,1,1] 0)
    (filledBlob [1,3,16,16] 0) (filledBlob [1,2,4] 7) (reader 1) := by
  intro read
  have stale := read 0 (by decide) 1 (by decide)
  exact absurd stale (by decide +kernel)

end VideoAnalytics.PriorBoxClustered
