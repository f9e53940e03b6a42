import VideoAnalytics.FloatType
import VideoAnalytics.Library.Loop
import VideoAnalytics.Library.Memory
import VideoAnalytics.Library.Sorting

/-! The DetectionOutput layer of the CPU extension: decoded boxes, non-maximum
suppression for each class, the best keep_top_k of each image and the table of
detections. The blobs of the layer are flat memory that outlives a call. -/
namespace VideoAnalytics.DetectionOutput
open Loop Sorting

inductive CodeType
  | corner | centerSize
  deriving DecidableEq, Repr

structure Impl (F : Type) where
  numClasses : Nat
  backgroundLabelId : Int
  topK : Int
  varianceEncodedInTarget : Bool
  keepTopK : Int
  nmsThreshold : F
  confidenceThreshold : F
  shareLocation : Bool
  normalized : Bool
  imageHeight : Int
  imageWidth : Int
  codeType : CodeType
  numPriors : Nat

def Impl.priorSize {F : Type} (impl : Impl F) : Nat := if impl.normalized then 4 else 5

def Impl.offset {F : Type} (impl : Impl F) : Nat := if impl.normalized then 0 else 1

def Impl.numLocClasses {F : Type} (impl : Impl F) : Nat :=
  if impl.shareLocation then 1 else impl.numClasses

def numOutputScores {F : Type} (impl : Impl F) (count : Nat) : Nat :=
  if impl.topK = -1 then count else (min impl.topK (count : Int)).toNat

structure Buffers (F : Type) where
  decodedBboxes : Memory F
  buffer : Memory Nat
  indices : Memory Nat
  detectionsCount : Memory Nat
  reorderedConf : Memory F
  bboxSizes : Memory F
  numPriorsActual : Memory Nat

inductive StatusCode
  | ok | notImplemented | outOfBounds
  deriving DecidableEq, Repr

inductive Fault
  | outside (index : Nat)
  deriving DecidableEq, Repr

/-- A blob of floats in memory, whose bytes a size_t counts. -/
structure Blob (F : Type) where
  dims : List Nat
  data : List F
  filled : data.length = dims.prod
  addressable : 4 * data.length < 2 ^ 64

structure Bbox (F : Type) where
  xmin : F
  ymin : F
  xmax : F
  ymax : F
  deriving DecidableEq, Repr

def Blob.byteSize {F : Type} (blob : Blob F) : Nat := 4 * blob.data.length

def Blob.write {F : Type} (blob : Blob F) (index : Nat) (value : F) : Except Fault (Blob F) :=
  if index < blob.data.length then
    .ok {blob with
      data := blob.data.set index value
      filled := by simpa using blob.filled
      addressable := by simpa using blob.addressable}
  else .error (.outside index)

section Layer

variable {F : Type} [FloatType F]

/-- memset with 0 of as many bytes as the blob has at least. -/
def Blob.memset (blob : Blob F) (bytes : Nat) (within : bytes ≤ blob.byteSize) : Blob F :=
  have length : (List.replicate (bytes / 4) ((0 : Int) : F) ++ blob.data.drop (bytes / 4)).length =
      blob.data.length := by
    unfold Blob.byteSize at within
    simp
    omega
  {blob with
    data := List.replicate (bytes / 4) ((0 : Int) : F) ++ blob.data.drop (bytes / 4)
    filled := length.trans blob.filled
    addressable := by rw [length]; exact blob.addressable}

/-- The loop of decodeBBoxes that looks for batch_id -1. -/
def priorsBeforeMarker (priorData : Memory F) (priorSize : Nat) : Nat → Nat → Nat
  | 0, num => num
  | remaining + 1, num =>
    if priorData (num * priorSize + 0) == ((-1 : Int) : F) then num
    else priorsBeforeMarker priorData priorSize remaining (num + 1)

def numPriorsActual (impl : Impl F) (priorData : Memory F) : Nat :=
  if !impl.normalized then priorsBeforeMarker priorData impl.priorSize impl.numPriors 0
  else impl.numPriors

def decodeBBox (impl : Impl F) (exp : F → F) (priorData locData varianceData : Memory F) (p : Nat) :
    Bbox F :=
  let priorXmin := priorData (p * impl.priorSize + 0 + impl.offset)
  let priorYmin := priorData (p * impl.priorSize + 1 + impl.offset)
  let priorXmax := priorData (p * impl.priorSize + 2 + impl.offset)
  let priorYmax := priorData (p * impl.priorSize + 3 + impl.offset)
  let locXmin := locData (4 * p * impl.numLocClasses + 0)
  let locYmin := locData (4 * p * impl.numLocClasses + 1)
  let locXmax := locData (4 * p * impl.numLocClasses + 2)
  let locYmax := locData (4 * p * impl.numLocClasses + 3)
  let priorXmin := if !impl.normalized then priorXmin / (impl.imageWidth : F) else priorXmin
  let priorYmin := if !impl.normalized then priorYmin / (impl.imageHeight : F) else priorYmin
  let priorXmax := if !impl.normalized then priorXmax / (impl.imageWidth : F) else priorXmax
  let priorYmax := if !impl.normalized then priorYmax / (impl.imageHeight : F) else priorYmax
  match impl.codeType with
  | .corner =>
    if impl.varianceEncodedInTarget then
      ⟨priorXmin + locXmin,priorYmin + locYmin,priorXmax + locXmax,priorYmax + locYmax⟩
    else
      ⟨priorXmin + varianceData (p * 4 + 0) * locXmin,
        priorYmin + varianceData (p * 4 + 1) * locYmin,
        priorXmax + varianceData (p * 4 + 2) * locXmax,
        priorYmax + varianceData (p * 4 + 3) * locYmax⟩
  | .centerSize =>
    let two : F := ((2 : Int) : F)
    let priorWidth := priorXmax - priorXmin
    let priorHeight := priorYmax - priorYmin
    let priorCenterX := (priorXmin + priorXmax) / two
    let priorCenterY := (priorYmin + priorYmax) / two
    let decodeBboxCenterX :=
      if impl.varianceEncodedInTarget then locXmin * priorWidth + priorCenterX
      else varianceData (p * 4 + 0) * locXmin * priorWidth + priorCenterX
    let decodeBboxCenterY :=
      if impl.varianceEncodedInTarget then locYmin * priorHeight + priorCenterY
      else varianceData (p * 4 + 1) * locYmin * priorHeight + priorCenterY
    let decodeBboxWidth :=
      if impl.varianceEncodedInTarget then exp locXmax * priorWidth
      else exp (varianceData (p * 4 + 2) * locXmax) * priorWidth
    let decodeBboxHeight :=
      if impl.varianceEncodedInTarget then exp locYmax * priorHeight
      else exp (varianceData (p * 4 + 3) * locYmax) * priorHeight
    ⟨decodeBboxCenterX - decodeBboxWidth / two,
      decodeBboxCenterY - decodeBboxHeight / two,
      decodeBboxCenterX + decodeBboxWidth / two,
      decodeBboxCenterY + decodeBboxHeight / two⟩

def Bbox.size (box : Bbox F) : F := (box.xmax - box.xmin) * (box.ymax - box.ymin)

/-- decodeBBoxes with its pointers into the decoded boxes and their sizes. -/
def decodeBBoxes (impl : Impl F) (exp : F → F) (priorData locData varianceData : Memory F)
    (decodedBboxes decodedBboxSizes n : Nat) (buffers : Buffers F) : Buffers F :=
  let actual := numPriorsActual impl priorData
  forLoop actual (fun p buffers =>
    let box := decodeBBox impl exp priorData locData varianceData p
    {buffers with
      decodedBboxes := (((buffers.decodedBboxes.write (decodedBboxes + (p * 4 + 0)) box.xmin).write
        (decodedBboxes + (p * 4 + 1)) box.ymin).write
        (decodedBboxes + (p * 4 + 2)) box.xmax).write
        (decodedBboxes + (p * 4 + 3)) box.ymax
      bboxSizes := buffers.bboxSizes.write (decodedBboxSizes + p) box.size})
    {buffers with numPriorsActual := buffers.numPriorsActual.write n actual}

def jaccardOverlap (decodedBbox bboxSizes : Memory F) (idx1 idx2 : Nat) : F :=
  let xmin1 := decodedBbox (idx1 * 4 + 0)
  let ymin1 := decodedBbox (idx1 * 4 + 1)
  let xmax1 := decodedBbox (idx1 * 4 + 2)
  let ymax1 := decodedBbox (idx1 * 4 + 3)
  let xmin2 := decodedBbox (idx2 * 4 + 0)
  let ymin2 := decodedBbox (idx2 * 4 + 1)
  let ymax2 := decodedBbox (idx2 * 4 + 3)
  let xmax2 := decodedBbox (idx2 * 4 + 2)
  let zero : F := ((0 : Int) : F)
  if xmin2 > xmax1 ∨ xmax2 < xmin1 ∨ ymin2 > ymax1 ∨ ymax2 < ymin1 then zero
  else
    let intersectXmin := stdMax xmin1 xmin2
    let intersectYmin := stdMax ymin1 ymin2
    let intersectXmax := stdMin xmax1 xmax2
    let intersectYmax := stdMin ymax1 ymax2
    let intersectWidth := intersectXmax - intersectXmin
    let intersectHeight := intersectYmax - intersectYmin
    if intersectWidth ≤ zero ∨ intersectHeight ≤ zero then zero
    else
      let intersectSize := intersectWidth * intersectHeight
      let bbox1Size := bboxSizes idx1
      let bbox2Size := bboxSizes idx2
      intersectSize / (bbox1Size + bbox2Size - intersectSize)

def ConfidenceComparator (confData : Memory F) (idx1 idx2 : Nat) : Prop :=
  if confData idx1 > confData idx2 then True
  else if confData idx1 < confData idx2 then False
  else idx1 < idx2

instance (confData : Memory F) : DecidableRel (ConfidenceComparator confData) := by
  intro idx1 idx2
  unfold ConfidenceComparator
  infer_instance

/-- std::partial_sort_copy: the first ones of the source in order. The order of
indices leaves no two equal, so the source fixes the result. -/
def partialSortCopy (less : Nat → Nat → Prop) [DecidableRel less] (source : List Nat)
    (count : Nat) : List Nat := (insertionSort less source).take count

def overlapsKept (impl : Impl F) (bboxes sizes : Memory F) (indices : Memory Nat) (idx : Nat) :
    Nat → Nat → Bool
  | 0, _ => false
  | remaining + 1, k =>
    if jaccardOverlap bboxes sizes idx (indices k) > impl.nmsThreshold then true
    else overlapsKept impl bboxes sizes indices idx remaining (k + 1)

/-- The loop of nms over the priors: how many candidates, and their indices. -/
def collectCandidates (impl : Impl F) (confData : Memory F) (pindices actual : Nat)
    (indices : Memory Nat) : Nat × Memory Nat :=
  forLoop actual (fun i collected =>
    if confData i > impl.confidenceThreshold then
      (collected.1 + 1,collected.2.write (pindices + collected.1) i)
    else collected) (0,indices)

/-- The loop of nms over the sorted candidates, which overwrites the indices. -/
def keepBoxes (impl : Impl F) (bboxes sizes : Memory F) (pbuffer pindices scores : Nat)
    (buffer : Memory Nat) (detections : Nat) (indices : Memory Nat) : Nat × Memory Nat :=
  forLoop scores (fun i kept =>
    let idx := buffer (pbuffer + i)
    if overlapsKept impl bboxes sizes (kept.2.offset pindices) idx kept.1 0 then kept
    else (kept.1 + 1,kept.2.write (pindices + kept.1) idx)) (detections,indices)

def writeList (memory : Memory Nat) (start : Nat) (values : List Nat) : Memory Nat :=
  forLoop values.length (fun i memory => memory.write (start + i) (values.getD i 0)) memory

/-- nms with its pointers into buffer and indices: what it leaves in both, and
the number of detections. -/
def nms (impl : Impl F) (confData bboxes sizes : Memory F) (pbuffer pindices detections actual : Nat)
    (buffer indices : Memory Nat) : Memory Nat × Memory Nat × Nat :=
  let collected := collectCandidates impl confData pindices actual indices
  let scores := numOutputScores impl collected.1
  let sorted := partialSortCopy (ConfidenceComparator confData)
    ((List.range collected.1).map (collected.2.offset pindices)) scores
  let buffer := writeList buffer pbuffer sorted
  let kept := keepBoxes impl bboxes sizes pbuffer pindices scores buffer detections collected.2
  (buffer,kept.2,kept.1)

def SortScorePairDescend (pair1 pair2 : F × Nat × Nat) : Prop := pair1.1 > pair2.1

instance : DecidableRel (SortScorePairDescend (F := F)) := by
  intro pair1 pair2
  unfold SortScorePairDescend
  infer_instance

def decodeImage (impl : Impl F) (exp : F → F) (locData priorData : Memory F) (n : Nat)
    (buffers : Buffers F) : Buffers F :=
  let priorVariances := priorData.offset (impl.numPriors * impl.priorSize)
  if impl.shareLocation then
    decodeBBoxes impl exp priorData (locData.offset (n * 4 * impl.numPriors)) priorVariances
      (n * 4 * impl.numPriors) (n * impl.numPriors) n buffers
  else
    forLoop impl.numLocClasses (fun c buffers =>
      if (c : Int) = impl.backgroundLabelId then buffers
      else
        decodeBBoxes impl exp priorData
          (locData.offset (n * 4 * impl.numLocClasses * impl.numPriors + c * 4)) priorVariances
          (n * 4 * impl.numLocClasses * impl.numPriors + c * 4 * impl.numPriors)
          (n * impl.numLocClasses * impl.numPriors + c * impl.numPriors) n buffers) buffers

/-- The confidences of one class of an image, which those of a prior are spread over. -/
def reorderClass (impl : Impl F) (confData : Memory F) (n c : Nat) (buffers : Buffers F) : Buffers F :=
  forLoop impl.numPriors (fun p buffers =>
    let target := n * impl.numPriors * impl.numClasses + c * impl.numPriors + p
    let source := n * impl.numPriors * impl.numClasses + p * impl.numClasses + c
    {buffers with reorderedConf := buffers.reorderedConf.write target (confData source)}) buffers

def reorderImage (impl : Impl F) (confData : Memory F) (n : Nat) (buffers : Buffers F) : Buffers F :=
  forLoop impl.numClasses (reorderClass impl confData n) buffers

def clearCounts (start count : Nat) (buffers : Buffers F) : Buffers F :=
  forLoop count (fun i buffers =>
    {buffers with detectionsCount := buffers.detectionsCount.write (start + i) 0}) buffers

def suppressClass (impl : Impl F) (n c : Nat) (buffers : Buffers F) : Buffers F :=
  if (c : Int) = impl.backgroundLabelId then buffers
  else
    let pindices := n * impl.numClasses * impl.numPriors + c * impl.numPriors
    let pbuffer := c * impl.numPriors
    let pdetections := n * impl.numClasses + c
    let pconf := buffers.reorderedConf.offset
      (n * impl.numClasses * impl.numPriors + c * impl.numPriors)
    let pboxes := if impl.shareLocation then
        buffers.decodedBboxes.offset (n * 4 * impl.numPriors)
      else buffers.decodedBboxes.offset
        (n * 4 * impl.numClasses * impl.numPriors + c * 4 * impl.numPriors)
    let psizes := if impl.shareLocation then buffers.bboxSizes.offset (n * impl.numPriors)
      else buffers.bboxSizes.offset
        (n * impl.numClasses * impl.numPriors + c * impl.numPriors)
    let suppressed := nms impl pconf pboxes psizes pbuffer pindices
      (buffers.detectionsCount pdetections) (buffers.numPriorsActual n) buffers.buffer buffers.indices
    {buffers with
      buffer := suppressed.1
      indices := suppressed.2.1
      detectionsCount := buffers.detectionsCount.write pdetections suppressed.2.2}

def confIndexClassMap (impl : Impl F) (n : Nat) (buffers : Buffers F) : List (F × Nat × Nat) :=
  forLoop impl.numClasses (fun c map =>
    let detections := buffers.detectionsCount (n * impl.numClasses + c)
    let pindices := n * impl.numClasses * impl.numPriors + c * impl.numPriors
    let pconf := buffers.reorderedConf.offset
      (n * impl.numClasses * impl.numPriors + c * impl.numPriors)
    forLoop detections (fun i map =>
      let idx := buffers.indices (pindices + i)
      map ++ [(pconf idx,c,idx)]) map) []

def storeIndex {F : Type} (impl : Impl F) (n : Nat) (buffers : Buffers F) (entry : F × Nat × Nat) :
    Buffers F :=
  let label := entry.2.1
  let idx := entry.2.2
  let pindices := n * impl.numClasses * impl.numPriors + label * impl.numPriors
  let stored := buffers.detectionsCount (n * impl.numClasses + label)
  {buffers with
    indices := buffers.indices.write (pindices + stored) idx
    detectionsCount := buffers.detectionsCount.write (n * impl.numClasses + label) (stored + 1)}

def storeIndices (impl : Impl F) (n : Nat) (map : List (F × Nat × Nat)) (buffers : Buffers F) :
    Buffers F :=
  map.foldl (storeIndex impl n) (clearCounts (n * impl.numClasses) impl.numClasses buffers)

def detectImage (impl : Impl F) (sort : StdSort (SortScorePairDescend (F := F))) (n : Nat)
    (buffers : Buffers F) : Buffers F :=
  let buffers := forLoop impl.numClasses (suppressClass impl n) buffers
  let detectionsTotal := forLoop impl.numClasses (fun c total =>
    total + buffers.detectionsCount (n * impl.numClasses + c)) 0
  if impl.keepTopK > -1 ∧ detectionsTotal > impl.keepTopK then
    let map := sort.sort (confIndexClassMap impl n buffers)
    storeIndices impl n (map.take impl.keepTopK.toNat) buffers
  else buffers

def writeRow (impl : Impl F) (buffers : Buffers F) (detectionSize n c i count : Nat)
    (dst : Blob F) : Except Fault (Blob F) := do
  let pconf := buffers.reorderedConf.offset (n * impl.numPriors * impl.numClasses)
  let pboxes := buffers.decodedBboxes.offset (n * impl.numPriors * 4 * impl.numLocClasses)
  let pindices := buffers.indices.offset (n * impl.numClasses * impl.numPriors)
  let idx := pindices (c * impl.numPriors + i)
  let coordinate := fun k =>
    if impl.shareLocation then pboxes (idx * 4 + k)
    else pboxes (c * 4 * impl.numPriors + idx * 4 + k)
  let dst ← dst.write (count * detectionSize + 0) ((n : Int) : F)
  let dst ← dst.write (count * detectionSize + 1) ((c : Int) : F)
  let dst ← dst.write (count * detectionSize + 2) (pconf (c * impl.numPriors + idx))
  let dst ← dst.write (count * detectionSize + 3) (coordinate 0)
  let dst ← dst.write (count * detectionSize + 4) (coordinate 1)
  let dst ← dst.write (count * detectionSize + 5) (coordinate 2)
  dst.write (count * detectionSize + 6) (coordinate 3)

def writeRows (impl : Impl F) (buffers : Buffers F) (detectionSize images : Nat) (dst : Blob F) :
    Except Fault (Nat × Blob F) :=
  tryLoop images (fun n state =>
    tryLoop impl.numClasses (fun c state =>
      tryLoop (buffers.detectionsCount (n * impl.numClasses + c)) (fun i state => do
        let dst ← writeRow impl buffers detectionSize n c i state.1 state.2
        .ok (state.1 + 1,dst)) state) state) (0,dst)

def detectBatch (impl : Impl F) (exp : F → F) (sort : StdSort (SortScorePairDescend (F := F)))
    (images : Nat) (locData confData priorData : Memory F) (buffers : Buffers F) : Buffers F :=
  let buffers := forLoop images (decodeImage impl exp locData priorData) buffers
  let buffers := forLoop images (reorderImage impl confData) buffers
  let buffers := clearCounts 0 (images * impl.numClasses) buffers
  forLoop images (detectImage impl sort) buffers

/-- The rows and, where the count is below the limit, the marker. -/
def writeTable (impl : Impl F) (images detectionSize : Nat) (buffers : Buffers F) (dst : Blob F) :
    Except Fault (Blob F) := do
  let written ← writeRows impl buffers detectionSize images dst
  if (written.1 : Int) < images * impl.keepTopK then
    written.2.write (written.1 * detectionSize + 0) ((-1 : Int) : F)
  else .ok written.2

def writeOutput (impl : Impl F) (images : Nat) (buffers : Buffers F) (output : Blob F) :
    Except Fault (StatusCode × Blob F) := do
  let detectionSize := output.dims.getD 3 0
  if detectionSize ≠ 7 then .ok (.notImplemented,output)
  else
    -- an int product converted to size_t
    let dstDataSize :=
      ((images * impl.keepTopK * detectionSize) % 2 ^ 64 * 4 % 2 ^ 64 : Int).toNat
    if within : dstDataSize ≤ output.byteSize then
      let dst ← writeTable impl images detectionSize buffers (output.memset dstDataSize within)
      .ok (.ok,dst)
    else .ok (.outOfBounds,output)

/-- execute for a batch of images: the status, the output and the buffers it leaves. -/
def execute (impl : Impl F) (exp : F → F) (sort : StdSort (SortScorePairDescend (F := F)))
    (images : Nat) (locData confData priorData : Memory F) (output : Blob F) (buffers : Buffers F) :
    Except Fault ((StatusCode × Blob F) × Buffers F) := do
  let detected := detectBatch impl exp sort images locData confData priorData buffers
  let written ← writeOutput impl images detected output
  .ok (written,detected)

end Layer

end VideoAnalytics.DetectionOutput
