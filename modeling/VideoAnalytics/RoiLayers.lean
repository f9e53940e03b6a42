import VideoAnalytics.DetectionOutput

/-! The ends of the region lists in the CPU extension: the Proposal layer that
writes the rows of an image, and the PSROIPooling layer that pools over them. -/
namespace VideoAnalytics.RoiLayers
open Loop

/-- The conversion of a float to int, with what the batch ids need of it: -1 is
told from every int that is not negative. -/
class FloatInt (F : Type) [FloatType F] where
  toInt : F → Int
  toInt_marker : toInt ((-1 : Int) : F) = -1
  toInt_nonneg : ∀ value : Int, 0 ≤ value → 0 ≤ toInt (value : F)
  beq_marker : (((-1 : Int) : F) == ((-1 : Int) : F)) = true
  beq_nonneg : ∀ value : Int, 0 ≤ value → ((value : F) == ((-1 : Int) : F)) = false

instance : FloatInt Rat where
  toInt value := value.num.tdiv value.den
  toInt_marker := by decide
  toInt_nonneg value sign := by simpa using sign
  beq_marker := by simp
  beq_nonneg value sign := by
    rw [beq_eq_false_iff_ne]
    intro same
    have equal : value = -1 := by exact_mod_cast same
    omega

variable {F : Type} [FloatType F]

def writeRoi (itemIndex : Int) (numProposals : Nat) (proposals : Memory F)
    (roiIndices : Memory Nat) (roi : Nat) (rois : Memory F) : Memory F :=
  let srcX0 := proposals.offset (0 * numProposals)
  let srcY0 := proposals.offset (1 * numProposals)
  let srcX1 := proposals.offset (2 * numProposals)
  let srcY1 := proposals.offset (3 * numProposals)
  let index := roiIndices roi
  ((((rois.write (roi * 5 + 0) (itemIndex : F)).write (roi * 5 + 1) (srcX0 index)).write
    (roi * 5 + 2) (srcY0 index)).write (roi * 5 + 3) (srcX1 index)).write
    (roi * 5 + 4) (srcY1 index)

def retrieveRoisCpu (numRois : Nat) (itemIndex : Int) (numProposals : Nat) (proposals : Memory F)
    (roiIndices : Memory Nat) (rois : Memory F) (postNmsTopn : Nat) : Memory F :=
  let rois := forLoop numRois (writeRoi itemIndex numProposals proposals roiIndices) rois
  if numRois < postNmsTopn then
    let rois := forLoop (5 * postNmsTopn - 5 * numRois) (fun i (rois : Memory F) =>
      rois.write (5 * numRois + i) ((0 : Int) : F)) rois
    rois.write (numRois * 5 + 0) ((-1 : Int) : F)
  else rois

structure PSROIPoolingImpl (F : Type) where
  groupSize : Nat
  spatialScale : F
  pooledHeight : Nat
  pooledWidth : Nat
  channels : Nat
  height : Nat
  width : Nat
  nn : Nat
  nc : Nat
  nh : Nat
  nw : Nat

structure Rounding (F : Type) where
  round : F → F
  floor : F → F
  ceil : F → F

variable [FloatInt F]

/-- The loop that counts the rows before batch id -1. -/
def realRois (nn : Nat) (bottomRois : Memory F) : Nat :=
  scan (fun realRois => FloatInt.toInt (bottomRois (realRois * 5 + 0)) = -1) nn 0

/-- The first or last pixel of a bin, kept within the image. -/
def binEdge (edge : F) (size : Nat) : Int := min (max (FloatInt.toInt edge) 0) size

/-- What is written for one bin of one region: zero first, and then the mean over
a bin that is not empty. -/
def poolBin (impl : PSROIPoolingImpl F) (math : Rounding F) (bottomData : Int → F)
    (bottomRois : Memory F) (n c h w : Nat) : F :=
  let roiBatchInd := FloatInt.toInt (bottomRois (n * 5 + 0))
  let one : F := ((1 : Int) : F)
  let tenth : F := ((1 : Int) : F) / ((10 : Int) : F)
  let roiStartW := math.round (bottomRois (n * 5 + 1)) * impl.spatialScale
  let roiStartH := math.round (bottomRois (n * 5 + 2)) * impl.spatialScale
  let roiEndW := (math.round (bottomRois (n * 5 + 3)) + one) * impl.spatialScale
  let roiEndH := (math.round (bottomRois (n * 5 + 4)) + one) * impl.spatialScale
  let roiWidth := stdMax (roiEndW - roiStartW) tenth
  let roiHeight := stdMax (roiEndH - roiStartH) tenth
  let binSizeH := roiHeight / ((impl.pooledHeight : Int) : F)
  let binSizeW := roiWidth / ((impl.pooledWidth : Int) : F)
  let hstart := binEdge (math.floor (((h + 0 : Nat) : Int) * binSizeH + roiStartH)) impl.height
  let hend := binEdge (math.ceil (((h + 1 : Nat) : Int) * binSizeH + roiStartH)) impl.height
  let wstart := binEdge (math.floor (((w + 0 : Nat) : Int) * binSizeW + roiStartW)) impl.width
  let wend := binEdge (math.ceil (((w + 1 : Nat) : Int) * binSizeW + roiStartW)) impl.width
  let binArea : F := (((hend - hstart) * (wend - wstart) : Int) : F)
  if binArea == ((0 : Int) : F) then ((0 : Int) : F)
  else
    let gc := (c * impl.groupSize + h) * impl.groupSize + w
    let bottom := (roiBatchInd * impl.channels + gc) * impl.height * impl.width
    let outSum := forLoop (hend - hstart).toNat (fun hh outSum =>
      forLoop (wend - wstart).toNat (fun ww outSum =>
        outSum + bottomData (bottom + ((hstart + hh) * impl.width + (wstart + ww)))) outSum)
      ((0 : Int) : F)
    outSum / binArea

def PSROIPoolingImpl.index {F : Type} (impl : PSROIPoolingImpl F) (n c h w : Nat) : Nat :=
  n * impl.nc * impl.nh * impl.nw + c * impl.nh * impl.nw + h * impl.nw + w

/-- The loops over channels, rows and columns of region n. -/
def writeBins {F : Type} (impl : PSROIPoolingImpl F) (n : Nat) (bin : Nat → Nat → Nat → F)
    (dstData : Memory F) : Memory F :=
  forLoop impl.nc (fun c dstData => forLoop impl.nh (fun h dstData => forLoop impl.nw
    (fun w dstData => dstData.write (impl.index n c h w) (bin c h w)) dstData) dstData) dstData

def execute (impl : PSROIPoolingImpl F) (math : Rounding F) (bottomData : Int → F)
    (bottomRois : Memory F) (dstData : Memory F) : Memory F :=
  let real := realRois impl.nn bottomRois
  let dstData := forLoop real (fun n dstData =>
    writeBins impl n (fun c h w => poolBin impl math bottomData bottomRois n c h w) dstData) dstData
  forLoop (impl.nn - real) (fun i dstData =>
    writeBins impl (real + i) (fun _ _ _ => ((0 : Int) : F)) dstData) dstData

end VideoAnalytics.RoiLayers
