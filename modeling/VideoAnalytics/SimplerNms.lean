import VideoAnalytics.ExtLayer
import VideoAnalytics.Library.Sorting
import VideoAnalytics.RoiLayers

/-! The SimplerNMS layer of the CPU extension: proposals from anchors and deltas, the
best of them, the greedy selection and the rows that it writes; and the rows that
PSROIPooling reads. -/
namespace VideoAnalytics.SimplerNms
open Loop Sorting Memory
open RoiLayers (FloatInt realRois)

structure Roi (F : Type) where
  x0 : F
  y0 : F
  x1 : F
  y1 : F
  deriving DecidableEq, Repr

structure Delta (F : Type) where
  shiftX : F
  shiftY : F
  logW : F
  logH : F

structure Proposal (F : Type) where
  roi : Roi F
  confidence : F
  ord : Nat
  deriving DecidableEq, Repr

structure Anchor (F : Type) where
  startX : F
  startY : F
  endX : F
  endY : F

structure Impl (F : Type) where
  minBoxSize : Int
  featStride : Int
  preNmsTopn : Nat
  postNmsTopn : Nat
  iouThreshold : F
  anchors : Memory (Anchor F)

section Layer

variable {F : Type} [FloatType F]

def clampV (v vMin vMax : F) : F := stdMax vMin (stdMin v vMax)

def Roi.area (roi : Roi F) : F :=
  stdMax ((0 : Int) : F) (roi.y1 - roi.y0 + ((1 : Int) : F)) *
    stdMax ((0 : Int) : F) (roi.x1 - roi.x0 + ((1 : Int) : F))

def Roi.intersect (roi other : Roi F) : Roi F :=
  ⟨stdMax roi.x0 other.x0,stdMax roi.y0 other.y0,stdMin roi.x1 other.x1,stdMin roi.y1 other.y1⟩

def Roi.clamp (roi other : Roi F) : Roi F :=
  ⟨clampV roi.x0 other.x0 other.x1,clampV roi.y0 other.y0 other.y1,
    clampV roi.x1 other.x0 other.x1,clampV roi.y1 other.y0 other.y1⟩

/-- What simpler_nms_perform_nms asks of a box and each one selected so far. -/
def overlaps (iouThreshold : F) (bbox resBbox : Roi F) : Bool :=
  let interArea := (bbox.intersect resBbox).area
  let unionArea := resBbox.area + bbox.area - interArea
  interArea > iouThreshold * unionArea

def performNms (iouThreshold : F) (topN : Nat) : List (Roi F) → List (Proposal F) → List (Roi F)
  | res, [] => res
  | res, prop :: proposals =>
    if prop.confidence > ((0 : Int) : F) then
      if res.any (overlaps iouThreshold prop.roi) then performNms iouThreshold topN res proposals
      else if (res ++ [prop.roi]).length = topN then res ++ [prop.roi]
      else performNms iouThreshold topN (res ++ [prop.roi]) proposals
    else performNms iouThreshold topN res proposals

def simplerNmsPerformNms (proposals : List (Proposal F)) (iouThreshold : F) (topN : Nat) :
    List (Roi F) := performNms iouThreshold topN [] proposals

def cmpFn (a b : Proposal F) : Prop :=
  a.confidence > b.confidence ∨ (a.confidence == b.confidence) = true ∧ a.ord > b.ord

instance : DecidableRel (cmpFn (F := F)) := by
  intro a b
  unfold cmpFn
  infer_instance

/-- std::sort and std::partial_sort of proposals. -/
structure Sorts (F : Type) [FloatType F] where
  sort : StdSort (cmpFn (F := F))
  partialSort : StdPartialSort (cmpFn (F := F))

def sortAndKeepAtMostTopN (sorts : Sorts F) (proposals : List (Proposal F)) (topN : Nat) :
    List (Proposal F) :=
  if proposals.length > topN then (sorts.partialSort.sort topN proposals).take topN
  else sorts.sort.sort proposals

def genBbox (exp : F → F) (box : Anchor F) (delta : Delta F) (anchorShiftX anchorShiftY : Int) :
    Roi F :=
  let one : F := ((1 : Int) : F)
  let half : F := ((1 : Int) : F) / ((2 : Int) : F)
  let anchorW := box.endX - box.startX + one
  let anchorH := box.endY - box.startY + one
  let centerX := box.startX + anchorW * half
  let centerY := box.startY + anchorH * half
  let predCenterX := delta.shiftX * anchorW + centerX + (anchorShiftX : F)
  let predCenterY := delta.shiftY * anchorH + centerY + (anchorShiftY : F)
  let halfPredW := exp delta.logW * anchorW * half
  let halfPredH := exp delta.logH * anchorH * half
  ⟨predCenterX - halfPredW,predCenterY - halfPredH,predCenterX + halfPredW,predCenterY + halfPredH⟩

variable [FloatInt F]

/-- The body of the loop over the anchors of a window. -/
def addProposal (impl : Impl F) (exp : F → F) (clsScores deltaPred imInfo : Memory F)
    (h w y x anchorIndex : Nat) (proposals : List (Proposal F)) : List (Proposal F) :=
  let anchorsNum := 3 * 3
  let sz := h * w
  let iw := FloatInt.toInt (imInfo 1)
  let ih := FloatInt.toInt (imInfo 0)
  let scaledMinBboxSize := impl.minBoxSize * FloatInt.toInt (imInfo 2)
  let anchorShiftY := (y : Int) * impl.featStride
  let anchorShiftX := (x : Int) * impl.featStride
  let locationIndex := y * w + x
  let dx0 := deltaPred (locationIndex + sz * (anchorIndex * 4 + 0))
  let dy0 := deltaPred (locationIndex + sz * (anchorIndex * 4 + 1))
  let dx1 := deltaPred (locationIndex + sz * (anchorIndex * 4 + 2))
  let dy1 := deltaPred (locationIndex + sz * (anchorIndex * 4 + 3))
  let proposalConfidence := clsScores (locationIndex + sz * (anchorIndex + anchorsNum * 1))
  let tmpRoi := genBbox exp (impl.anchors anchorIndex) ⟨dx0,dy0,dx1,dy1⟩ anchorShiftX anchorShiftY
  let roi := tmpRoi.clamp
    ⟨((0 : Int) : F),((0 : Int) : F),((iw - 1 : Int) : F),((ih - 1 : Int) : F)⟩
  let bboxW := FloatInt.toInt (roi.x1 - roi.x0 + ((1 : Int) : F))
  let bboxH := FloatInt.toInt (roi.y1 - roi.y0 + ((1 : Int) : F))
  if bboxW ≥ scaledMinBboxSize ∧ bboxH ≥ scaledMinBboxSize then
    proposals ++ [⟨roi,proposalConfidence,proposals.length⟩]
  else proposals

/-- The proposals of all windows, which are numbered as they come. -/
def collectProposals (impl : Impl F) (exp : F → F) (clsScores deltaPred imInfo : Memory F)
    (h w : Nat) : List (Proposal F) :=
  forLoop h (fun y => forLoop w fun x => forLoop (3 * 3)
    (addProposal impl exp clsScores deltaPred imInfo h w y x)) []

def writeRois (res : List (Roi F)) (dst : Memory F) : Memory F :=
  forLoop res.length (fun i dst =>
    match res[i]? with
    | none => dst
    | some roi =>
      ((((dst.write (5 * i + 0) ((0 : Int) : F)).write (5 * i + 1) roi.x0).write
        (5 * i + 2) roi.y0).write (5 * i + 3) roi.x1).write (5 * i + 4) roi.y1) dst

/-- execute on its two inputs in either order, the information on the image and what
the output held before. -/
def execute (impl : Impl F) (exp : F → F) (sorts : Sorts F) (first second : ExtBlob F)
    (imInfo : Memory F) (dst : Memory F) : Memory F :=
  let swapped := first.dim 1 > second.dim 1
  let srcCls := if swapped then second else first
  let srcDelta := if swapped then first else second
  let proposals := collectProposals impl exp srcCls.data srcDelta.data imInfo (srcCls.dim 2)
    (srcCls.dim 3)
  let sorted := sortAndKeepAtMostTopN sorts proposals impl.preNmsTopn
  writeRois (simplerNmsPerformNms sorted impl.iouThreshold impl.postNmsTopn) dst

/-- The rows that PSROIPooling reads, up to the end that it finds. -/
def consumedRois (nn : Nat) (bottomRois : Memory F) : List (List F) :=
  (List.range (realRois nn bottomRois)).map fun n =>
    (List.range 5).map fun k => bottomRois (n * 5 + k)

end Layer

end VideoAnalytics.SimplerNms
