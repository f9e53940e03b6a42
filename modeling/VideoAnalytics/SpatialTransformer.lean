import VideoAnalytics.ExtLayer
import Mathlib.Algebra.Order.Floor.Ring
import Mathlib.Algebra.Order.AbsoluteValue.Basic
import Mathlib.Tactic.FieldSimp
import Mathlib.Tactic.Linarith

/-! The SpatialTransformer layer of the CPU extension. Each read of a picture is recorded
with the plane through whose pointer it is made. -/
namespace VideoAnalytics.SpatialTransformer
open Loop Memory

variable {F : Type}

/-- std::abs, and std::floor with the conversion of its result to int. -/
class FloorMath (F : Type) where
  abs : F → F
  floor : F → Int

instance (priority := low) exactFloor {F : Type} [Field F] [LinearOrder F] [FloorRing F] :
    FloorMath F where
  abs x := |x|
  floor := Int.floor

/-- The sum res with the places of the picture that were read for it. -/
structure Sample (F : Type) where
  res : F
  reads : List Nat

structure Output (F : Type) where
  dst : Memory F
  reads : List (Nat × Nat)

structure Frame (F : Type) where
  inputGrid : Memory F
  output : Output F

section Execute

variable [FloatType F]

/-- The product of A with B, or with B transposed, written to C from a place on. -/
def matrixMult (A B C : Memory F) (base m n k : Nat) (transposeB : Bool) : Memory F :=
  if transposeB then
    forLoop m (fun rowA => forLoop n fun rowB C =>
      C.write (base + (rowA * n + rowB)) (forLoop k (fun colA sum =>
        sum + A (rowA * k + colA) * B (rowB * k + colA)) ((0 : Int) : F))) C
  else
    forLoop m (fun rowA => forLoop n fun colB C =>
      C.write (base + (rowA * n + colB)) (forLoop k (fun colA sum =>
        sum + A (rowA * k + colA) * B (colA * n + colB)) ((0 : Int) : F))) C

def outputGrid (H W : Nat) : Memory F :=
  forLoop (H * W) (fun i grid =>
    ((grid.write (3 * i) (((i / W : Nat) : Int) * ((1 : Int) : F) / ((H : Int) : F) * ((2 : Int) : F) -
        ((1 : Int) : F))).write
      (3 * i + 1) (((i % W : Nat) : Int) * ((1 : Int) : F) / ((W : Int) : F) * ((2 : Int) : F) -
        ((1 : Int) : F))).write
      (3 * i + 2) ((1 : Int) : F)) fun _ => ((0 : Int) : F)

variable [FloorMath F]

/-- One of the four neighbours of a position. -/
def addNeighbour (pic : Memory F) (H W : Int) (x y : F) (m n : Int) (sample : Sample F) : Sample F :=
  if 0 ≤ m ∧ m < H ∧ 0 ≤ n ∧ n < W then
    let one : F := ((1 : Int) : F)
    let zero : F := ((0 : Int) : F)
    let w := stdMax zero (one - FloorMath.abs (x - (m : F))) *
      stdMax zero (one - FloorMath.abs (y - (n : F)))
    ⟨sample.res + w * pic (m * W + n).toNat,sample.reads ++ [(m * W + n).toNat]⟩
  else sample

def transformForwardCpu (pic : Memory F) (px py : F) : Sample F :=
  let H : Int := 24
  let W : Int := 94
  let x := (px + ((1 : Int) : F)) / ((2 : Int) : F) * (H : F)
  let y := (py + ((1 : Int) : F)) / ((2 : Int) : F) * (W : F)
  addNeighbour pic H W x y (FloorMath.floor x + 1) (FloorMath.floor y + 1)
    (addNeighbour pic H W x y (FloorMath.floor x) (FloorMath.floor y + 1)
      (addNeighbour pic H W x y (FloorMath.floor x + 1) (FloorMath.floor y)
        (addNeighbour pic H W x y (FloorMath.floor x) (FloorMath.floor y) ⟨((0 : Int) : F),[]⟩)))

/-- An element of the output from the coordinates of its pixel. -/
def transformPixel (src coordinates : Memory F) (C H W i j s t : Nat) (output : Output F) :
    Output F :=
  let rowIdx := W * s + t
  let px := coordinates (rowIdx * 2)
  let py := coordinates (rowIdx * 2 + 1)
  let dstOffset := ((i * C + j) * H + s) * W + t
  let srcOffset := ((i * C + j) * H + 0) * W + 0
  let sample := transformForwardCpu (src.offset srcOffset) px py
  ⟨output.dst.write dstOffset sample.res,
    output.reads ++ sample.reads.map fun place => (srcOffset,place)⟩

def transformImage (src theta : Memory F) (C H W i : Nat) (frame : Frame F) : Frame F :=
  let base := H * W * 2 * i
  let inputGrid := matrixMult (outputGrid H W) (theta.offset (6 * i)) frame.inputGrid base (H * W) 2 3
    true
  ⟨inputGrid,forLoop C (fun j => forLoop H fun s => forLoop W fun t =>
    transformPixel src (inputGrid.offset base) C H W i j s t) frame.output⟩

def execute (src theta dst : ExtBlob F) : Output F :=
  let N := src.dim 0
  let C := src.dim 1
  let outputH := src.dim 2
  let outputW := src.dim 3
  (forLoop N (transformImage src.data theta.data C outputH outputW)
    ⟨fun _ => ((0 : Int) : F),⟨dst.data,[]⟩⟩).output

end Execute

section Grid

variable [FloatType F]

private theorem matrixMult_transposed (A B C : Memory F) (base k : Nat) {m n rowA rowB : Nat}
    (row : rowA < m) (column : rowB < n) :
    matrixMult A B C base m n k true (base + (rowA * n + rowB)) =
      forLoop k (fun colA sum => sum + A (rowA * k + colA) * B (rowB * k + colA)) ((0 : Int) : F) := by
  have written := forLoop_write base (m * n)
    (fun cell => forLoop k (fun colA sum =>
      sum + A (cell / n * k + colA) * B (cell % n * k + colA)) ((0 : Int) : F)) C
    (base + (rowA * n + rowB))
  rw [if_pos ⟨Nat.le_add_right _ _,Nat.add_lt_add_left (cell_within row column) base⟩,
    Nat.add_sub_cancel_left,cell_row rowA column,cell_col rowA column] at written
  unfold matrixMult
  rw [if_pos rfl,forLoop_nested,← written]
  apply congrFun
  apply forLoop_congr
  intro cell memory _
  rw [Nat.div_add_mod']

/-- An entry of the output grid: the row, the column or one. -/
def gridEntry (H W i c : Nat) : F :=
  if c = 0 then
    ((i / W : Nat) : Int) * ((1 : Int) : F) / ((H : Int) : F) * ((2 : Int) : F) - ((1 : Int) : F)
  else if c = 1 then
    ((i % W : Nat) : Int) * ((1 : Int) : F) / ((W : Int) : F) * ((2 : Int) : F) - ((1 : Int) : F)
  else ((1 : Int) : F)

private theorem outputGrid_entry {H W i c : Nat} (pixel : i < H * W) (entry : c < 3) :
    outputGrid H W (i * 3 + c) = (gridEntry H W i c : F) := by
  have nested := forLoop_nested (H * W) 3 (fun i c (grid : Memory F) =>
    grid.write (3 * i + c) (gridEntry H W i c)) fun _ => ((0 : Int) : F)
  have written := forLoop_write 0 (H * W * 3)
    (fun n => (gridEntry H W (n / 3) (n % 3) : F)) (fun _ => ((0 : Int) : F)) (i * 3 + c)
  rw [if_pos ⟨Nat.zero_le _,(cell_within pixel entry).trans_eq (Nat.zero_add _).symm⟩,Nat.sub_zero,
    cell_row i entry,cell_col i entry] at written
  rw [← written]
  refine congrFun (Eq.trans ?_ (nested.trans ?_)) _
  · rfl
  · apply forLoop_congr
    intro n grid _
    rw [Nat.zero_add,Nat.div_add_mod]

end Grid

section Samples

variable [FloatType F] [FloorMath F]

/-- A coordinate of a pixel of an image in the input. -/
def coordinate (theta : Memory F) (H W i row k : Nat) : F :=
  forLoop 3 (fun c sum => sum + gridEntry H W row c * theta (6 * i + (k * 3 + c))) ((0 : Int) : F)

def pixelSample (src theta : Memory F) (C H W i j s t : Nat) : Sample F :=
  transformForwardCpu (src.offset (((i * C + j) * H + 0) * W + 0))
    (coordinate theta H W i (W * s + t) 0) (coordinate theta H W i (W * s + t) 1)

omit [FloorMath F] in
private theorem coordinates_apply (theta grid : Memory F) (i : Nat) {H W row k : Nat}
    (pixel : row < H * W) (which : k < 2) :
    (matrixMult (outputGrid H W) (theta.offset (6 * i)) grid (H * W * 2 * i) (H * W) 2 3 true).offset
      (H * W * 2 * i) (row * 2 + k) = coordinate theta H W i row k := by
  rw [offset_apply,matrixMult_transposed _ _ _ _ _ pixel which]
  apply forLoop_congr
  intro c sum entry
  rw [outputGrid_entry pixel entry,offset_apply]

/-- The element with a number, from its image, channel, row and column. -/
def sampleAt (src theta : Memory F) (C H W n : Nat) : Sample F :=
  pixelSample src theta C H W (n / (C * (H * W))) (n % (C * (H * W)) / (H * W))
    (n % (C * (H * W)) % (H * W) / W) (n % (C * (H * W)) % (H * W) % W)

/-- Where the plane of an element starts. -/
def planeOf (H W n : Nat) : Nat := n / (H * W) * (H * W)

theorem plane_number (C P n : Nat) : n / (C * P) * C + n % (C * P) / P = n / P := by
  rw [Nat.mod_mul_left_div_self,Nat.mul_comm C,← Nat.div_div_eq_div_mul,Nat.div_add_mod']

theorem cell_number (C H W n : Nat) : (n / (H * W) * H + n % (C * (H * W)) % (H * W) / W) * W +
    n % (C * (H * W)) % (H * W) % W = n := by
  rw [Nat.mod_mul_left_mod,Nat.add_mul,Nat.add_assoc,Nat.div_add_mod',Nat.mul_assoc,Nat.div_add_mod']

private theorem transformImage_output (src theta : Memory F) (C H W i : Nat) (frame : Frame F) :
    (transformImage src theta C H W i frame).output =
      forLoop C (fun j => forLoop H fun s => forLoop W fun t output =>
        ⟨output.dst.write (((i * C + j) * H + s) * W + t) (pixelSample src theta C H W i j s t).res,
          output.reads ++ (pixelSample src theta C H W i j s t).reads.map fun place =>
            (((i * C + j) * H + 0) * W + 0,place)⟩) frame.output := by
  unfold transformImage
  apply forLoop_congr
  intro j output _
  apply forLoop_congr
  intro s output row
  apply forLoop_congr
  intro t output column
  have pixel : W * s + t < H * W := by
    rw [Nat.mul_comm W]
    exact cell_within row column
  unfold transformPixel
  dsimp only
  rw [coordinates_apply theta _ i pixel (show 1 < 2 by omega),← Nat.add_zero ((W * s + t) * 2),
    coordinates_apply theta _ i pixel (show 0 < 2 by omega)]
  rfl

/-- The layer gives each element its sample, and reads what the samples need. -/
theorem execute_eq (src theta dst : ExtBlob F) :
    execute src theta dst =
      forLoop (src.dim 0 * (src.dim 1 * (src.dim 2 * src.dim 3))) (fun n output =>
        let sample := sampleAt src.data theta.data (src.dim 1) (src.dim 2) (src.dim 3) n
        ⟨output.dst.write n sample.res,
          output.reads ++ sample.reads.map fun place => (planeOf (src.dim 2) (src.dim 3) n,place)⟩)
        ⟨dst.data,[]⟩ := by
  unfold execute
  dsimp only
  refine (forLoop_map Frame.output _ _ _ _ fun i frame => transformImage_output src.data theta.data
    (src.dim 1) (src.dim 2) (src.dim 3) i frame).trans ?_
  rw [forLoop_blocks]
  apply forLoop_congr
  intro n output _
  rw [plane_number,Nat.add_zero,Nat.add_zero,cell_number,Nat.mul_assoc]
  rfl

variable (src theta dst : ExtBlob F)

theorem execute_dst (address : Nat) : (execute src theta dst).dst address =
    if address < src.dim 0 * (src.dim 1 * (src.dim 2 * src.dim 3)) then
      (sampleAt src.data theta.data (src.dim 1) (src.dim 2) (src.dim 3) address).res
    else dst.data address := by
  have written := forLoop_write 0 (src.dim 0 * (src.dim 1 * (src.dim 2 * src.dim 3)))
    (fun n => (sampleAt src.data theta.data (src.dim 1) (src.dim 2) (src.dim 3) n).res) dst.data
    address
  simp only [Nat.zero_add,Nat.zero_le,true_and,Nat.sub_zero] at written
  rw [execute_eq,← written]
  apply congrFun
  exact forLoop_map Output.dst _ _ _ _ fun n output => rfl

theorem execute_reads : (execute src theta dst).reads =
    (List.range (src.dim 0 * (src.dim 1 * (src.dim 2 * src.dim 3)))).flatMap fun n =>
      (sampleAt src.data theta.data (src.dim 1) (src.dim 2) (src.dim 3) n).reads.map fun place =>
        (planeOf (src.dim 2) (src.dim 3) n,place) := by
  rw [execute_eq,← List.nil_append (List.flatMap _ _),← forLoop_append]
  exact forLoop_map Output.reads _ _ _ _ fun n output => rfl

end Samples

end VideoAnalytics.SpatialTransformer
