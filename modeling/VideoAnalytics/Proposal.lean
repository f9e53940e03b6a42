import VideoAnalytics.ExtLayer
import VideoAnalytics.Library.Lanes
import VideoAnalytics.Library.Sorting
import VideoAnalytics.RoiLayers

/-! The Proposal layer of the CPU extension: boxes from anchors and deltas, the best
of them, non-maximum suppression with and without AVX2, and the regions of interest. -/
namespace VideoAnalytics.Proposal
open Loop Sorting Memory Lanes

structure ProposalBox (F : Type) where
  x0 : F
  y0 : F
  x1 : F
  y1 : F
  score : F
  deriving DecidableEq, Repr

structure Impl (F : Type) where
  featStride : Nat
  minSize : Nat
  preNmsTopn : Nat
  postNmsTopn : Nat
  nmsThresh : F
  anchorsShape0 : Nat
  anchors : Memory F

structure Nms where
  isDead : Memory Int
  indexOut : Memory Int
  count : Nat

/-- What the loop over the images of a batch keeps from one image to the next. -/
structure Run (F : Type) where
  proposals : Memory (ProposalBox F)
  unpackedBoxes : Memory F
  isDead : Memory Int
  roiIndices : Memory Int
  numRois : Nat
  rois : Memory F

def ProposalBox.coordinate {F : Type} (box : ProposalBox F) : Nat → F
  | 0 => box.x0
  | 1 => box.y0
  | 2 => box.x1
  | _ => box.y1

section Layer

variable {F : Type} [FloatType F]

/-- The minimum sizes and the size of the image that enumerate_proposals_cpu gets. -/
structure ImageInfo (F : Type) where
  imgH : F
  imgW : F
  minBoxH : F
  minBoxW : F

def half : F := ((1 : Int) : F) / ((2 : Int) : F)

/-- The body of the loop over the anchors, at a place of the feature map. -/
def proposalBox (exp : F → F) (bottom4d dAnchor4d anchors : Memory F)
    (numAnchors bottomH bottomW : Nat) (info : ImageInfo F) (featStride h w anchor : Nat) :
    ProposalBox F :=
  let bottomArea := bottomH * bottomW
  let zero : F := ((0 : Int) : F)
  let one : F := ((1 : Int) : F)
  let x : F := ((w * featStride : Nat) : Int)
  let y : F := ((h * featStride : Nat) : Int)
  let pBox := dAnchor4d.offset (h * bottomW + w)
  let pScore := bottom4d.offset (h * bottomW + w)
  let dx := pBox ((anchor * 4 + 0) * bottomArea)
  let dy := pBox ((anchor * 4 + 1) * bottomArea)
  let dLogW := pBox ((anchor * 4 + 2) * bottomArea)
  let dLogH := pBox ((anchor * 4 + 3) * bottomArea)
  let score := pScore (anchor * bottomArea)
  let x0 := x + anchors (0 * numAnchors + anchor)
  let y0 := y + anchors (1 * numAnchors + anchor)
  let x1 := x + anchors (2 * numAnchors + anchor)
  let y1 := y + anchors (3 * numAnchors + anchor)
  let ww := x1 - x0 + one
  let hh := y1 - y0 + one
  let ctrX := x0 + half * ww
  let ctrY := y0 + half * hh
  let predCtrX := dx * ww + ctrX
  let predCtrY := dy * hh + ctrY
  let predW := exp dLogW * ww
  let predH := exp dLogH * hh
  let x0 := predCtrX - half * predW
  let y0 := predCtrY - half * predH
  let x1 := predCtrX + half * predW
  let y1 := predCtrY + half * predH
  let x0 := stdMax zero (stdMin x0 (info.imgW - one))
  let y0 := stdMax zero (stdMin y0 (info.imgH - one))
  let x1 := stdMax zero (stdMin x1 (info.imgW - one))
  let y1 := stdMax zero (stdMin y1 (info.imgH - one))
  let boxW := x1 - x0 + one
  let boxH := y1 - y0 + one
  let wide : Int := if info.minBoxW ≤ boxW then 1 else 0
  let high : Int := if info.minBoxH ≤ boxH then 1 else 0
  ⟨x0,y0,x1,y1,((wide * high : Int) : F) * score⟩

def enumerateProposalsCpu (exp : F → F) (bottom4d dAnchor4d anchors : Memory F)
    (proposals : Memory (ProposalBox F)) (numAnchors bottomH bottomW : Nat) (info : ImageInfo F)
    (featStride : Nat) : Memory (ProposalBox F) :=
  forLoop bottomH (fun h => forLoop bottomW fun w => forLoop numAnchors fun anchor proposals =>
    proposals.write ((h * bottomW + w) * numAnchors + anchor)
      (proposalBox exp bottom4d dAnchor4d anchors numAnchors bottomH bottomW info featStride h w
        anchor)) proposals

def scoreGreater (struct1 struct2 : ProposalBox F) : Prop := struct1.score > struct2.score

instance : DecidableRel (scoreGreater (F := F)) := by
  intro struct1 struct2
  unfold scoreGreater
  infer_instance

def partialSort (sort : StdPartialSort (scoreGreater (F := F))) (middle count : Nat)
    (proposals : Memory (ProposalBox F)) : Memory (ProposalBox F) :=
  let sorted := sort.sort middle ((List.range count).map proposals)
  fun address => (sorted[address]?).getD (proposals address)

def unpackBoxes {F : Type} (pProposals : Memory (ProposalBox F)) (unpackedBoxes : Memory F)
    (preNmsTopn : Nat) : Memory F :=
  forLoop preNmsTopn (fun i unpacked =>
    (((unpacked.write (0 * preNmsTopn + i) (pProposals i).x0).write
      (1 * preNmsTopn + i) (pProposals i).y0).write
      (2 * preNmsTopn + i) (pProposals i).x1).write
      (3 * preNmsTopn + i) (pProposals i).y1) unpackedBoxes

/-- The loop of nms_cpu over the boxes, with what it does behind a box that it keeps. -/
def nmsLoop (kill : Nat → Memory Int → Except Outside (Memory Int)) (baseIndex : Int)
    (maxNumOut : Nat) : Nat → Nat → Nms → Except Outside Nms
  | 0, _, nms => .ok nms
  | remaining + 1, box, nms =>
    if nms.isDead box ≠ 0 then nmsLoop kill baseIndex maxNumOut remaining (box + 1) nms
    else
      let kept := {nms with
        indexOut := nms.indexOut.write nms.count (baseIndex + box)
        count := nms.count + 1}
      if kept.count = maxNumOut then .ok kept
      else do
        let isDead ← kill box kept.isDead
        nmsLoop kill baseIndex maxNumOut remaining (box + 1) {kept with isDead := isDead}

/-- The planes of the boxes, by coordinate. -/
def plane {F : Type} (boxes : Memory F) (numProposals k : Nat) : Memory F :=
  boxes.offset (k * numProposals)

/-- The intersection over union of two boxes in the scalar loop, zero without overlap. -/
def res (boxes : Memory F) (numBoxes box tail : Nat) : F :=
  let zero : F := ((0 : Int) : F)
  let one : F := ((1 : Int) : F)
  let x0i := plane boxes numBoxes 0 box
  let y0i := plane boxes numBoxes 1 box
  let x1i := plane boxes numBoxes 2 box
  let y1i := plane boxes numBoxes 3 box
  let x0j := plane boxes numBoxes 0 tail
  let y0j := plane boxes numBoxes 1 tail
  let x1j := plane boxes numBoxes 2 tail
  let y1j := plane boxes numBoxes 3 tail
  if x0i ≤ x1j ∧ y0i ≤ y1j ∧ x0j ≤ x1i ∧ y0j ≤ y1i then
    let x0 := stdMax x0i x0j
    let y0 := stdMax y0i y0j
    let x1 := stdMin x1i x1j
    let y1 := stdMin y1i y1j
    let width := stdMax zero (x1 - x0 + one)
    let height := stdMax zero (y1 - y0 + one)
    let area := width * height
    let aArea := (x1i - x0i + one) * (y1i - y0i + one)
    let bArea := (x1j - x0j + one) * (y1j - y0j + one)
    area / (aArea + bArea - area)
  else zero

def killTail (boxes : Memory F) (numBoxes : Nat) (nmsThresh : F) (box tail : Nat)
    (isDead : Memory Int) : Memory Int :=
  forLoop (numBoxes - tail) (fun i isDead =>
    if nmsThresh < res boxes numBoxes box (tail + i) then isDead.write (tail + i) 1 else isDead)
    isDead

/-- _mm256_max_ps, which answers the second of two that do not compare. -/
def maxPs (a b : F) : F := if a > b then a else b

def minPs (a b : F) : F := if a < b then a else b

/-- One pass of the loop over blocks of eight boxes. -/
def killBlock (boxes : Memory F) (numBoxes : Nat) (nmsThresh : F) (box tail : Nat)
    (isDead : Memory Int) : Except Outside (Memory Int) := do
  let vcFone : Lanes 8 F := set1 ((1 : Int) : F)
  let vcZero : Lanes 8 F := set1 ((0 : Int) : F)
  let vx0i : Lanes 8 F := set1 (plane boxes numBoxes 0 box)
  let vy0i : Lanes 8 F := set1 (plane boxes numBoxes 1 box)
  let vx1i : Lanes 8 F := set1 (plane boxes numBoxes 2 box)
  let vy1i : Lanes 8 F := set1 (plane boxes numBoxes 3 box)
  let vAWidth := zip (· - ·) vx1i vx0i
  let vAHeight := zip (· - ·) vy1i vy0i
  let vAArea := zip (· * ·) (zip (· + ·) vAWidth vcFone) (zip (· + ·) vAHeight vcFone)
  let vdst : Lanes 8 Int ← loadu numBoxes isDead tail
  let vx0j : Lanes 8 F ← loadu numBoxes (plane boxes numBoxes 0) tail
  let vy0j : Lanes 8 F ← loadu numBoxes (plane boxes numBoxes 1) tail
  let vx1j : Lanes 8 F ← loadu numBoxes (plane boxes numBoxes 2) tail
  let vy1j : Lanes 8 F ← loadu numBoxes (plane boxes numBoxes 3) tail
  let vx0 := zip maxPs vx0i vx0j
  let vy0 := zip maxPs vy0i vy0j
  let vx1 := zip minPs vx1i vx1j
  let vy1 := zip minPs vy1i vy1j
  let vwidth := zip (· + ·) (zip (· - ·) vx1 vx0) vcFone
  let vheight := zip (· + ·) (zip (· - ·) vy1 vy0) vcFone
  let varea := zip (· * ·) (zip maxPs vcZero vwidth) (zip maxPs vcZero vheight)
  let vBWidth := zip (· - ·) vx1j vx0j
  let vBHeight := zip (· - ·) vy1j vy0j
  let vBArea := zip (· * ·) (zip (· + ·) vBWidth vcFone) (zip (· + ·) vBHeight vcFone)
  let vdivisor := zip (· - ·) (zip (· + ·) vAArea vBArea) varea
  let vintersectionArea := zip (· / ·) varea vdivisor
  let vcmp0 := zip (fun a b => decide (a ≤ b)) vx0i vx1j
  let vcmp1 := zip (fun a b => decide (a ≤ b)) vy0i vy1j
  let vcmp2 := zip (fun a b => decide (a ≤ b)) vx0j vx1i
  let vcmp3 := zip (fun a b => decide (a ≤ b)) vy0j vy1i
  let vcmp4 := zip (fun a b => decide (a < b)) (set1 nmsThresh) vintersectionArea
  let vcmp0 := zip (· && ·) vcmp0 vcmp1
  let vcmp2 := zip (· && ·) vcmp2 vcmp3
  let vcmp4 := zip (· && ·) vcmp4 vcmp0
  let vcmp4 := zip (· && ·) vcmp4 vcmp2
  storeu numBoxes isDead tail (blend vdst (set1 1) vcmp4)

/-- How often a loop in steps of eight runs from the box behind this one while eight
boxes are left. -/
def blocks (numBoxes box : Nat) : Nat := (numBoxes - (box + 1)) / 8

def killBlocks (boxes : Memory F) (numBoxes : Nat) (nmsThresh : F) (box : Nat)
    (isDead : Memory Int) : Except Outside (Memory Int) :=
  tryLoop (blocks numBoxes box)
    (fun i => killBlock boxes numBoxes nmsThresh box (box + 1 + i * 8)) isDead

/-- What nms_cpu does behind a box that it keeps, in the build with AVX2 or without. -/
def kill (haveAvx2 : Bool) (boxes : Memory F) (numBoxes : Nat) (nmsThresh : F) (box : Nat)
    (isDead : Memory Int) : Except Outside (Memory Int) :=
  if haveAvx2 then do
    let isDead ← killBlocks boxes numBoxes nmsThresh box isDead
    .ok (killTail boxes numBoxes nmsThresh box (box + 1 + blocks numBoxes box * 8) isDead)
  else .ok (killTail boxes numBoxes nmsThresh box (box + 1) isDead)

def nmsCpu (haveAvx2 : Bool) (numBoxes : Nat) (isDead : Memory Int) (boxes : Memory F)
    (indexOut : Memory Int) (baseIndex : Int) (nmsThresh : F) (maxNumOut : Nat) :
    Except Outside Nms :=
  let isDead := forLoop numBoxes (fun i isDead => isDead.write (0 + i) 0) isDead
  nmsLoop (kill haveAvx2 boxes numBoxes nmsThresh) baseIndex maxNumOut numBoxes 0
    ⟨isDead,indexOut,0⟩

/-- What execute reads from the blobs before the loop over the images. -/
structure Setup (F : Type) where
  pBottomItem : Memory F
  pDAnchorItem : Memory F
  bottomH : Nat
  bottomW : Nat
  info : ImageInfo F
  numProposals : Nat
  preNmsTopn : Nat

def setup (impl : Impl F) (bottom deltas imgInfo : ExtBlob F) : Setup F :=
  let imgInfoSize := imgInfo.dims.prod
  let scaleH := imgInfo.data 2
  let scaleW := if imgInfoSize > 3 then imgInfo.data 3 else scaleH
  let minSize : F := ((impl.minSize : Int) : F)
  let numProposals := impl.anchorsShape0 * bottom.dim 2 * bottom.dim 3
  {pBottomItem := bottom.data
   pDAnchorItem := deltas.data
   bottomH := bottom.dim 2
   bottomW := bottom.dim 3
   info := ⟨imgInfo.data 0,imgInfo.data 1,minSize * scaleH,minSize * scaleW⟩
   numProposals
   preNmsTopn := min numProposals impl.preNmsTopn}

/-- The body of the loop over the images. -/
def executeImage (impl : Impl F) (exp : F → F) (sort : StdPartialSort (scoreGreater (F := F)))
    (haveAvx2 : Bool) (setup : Setup F) (n : Nat) (run : Run F) : Except Outside (Run F) := do
  let proposals := enumerateProposalsCpu exp (setup.pBottomItem.offset setup.numProposals)
    setup.pDAnchorItem impl.anchors run.proposals impl.anchorsShape0 setup.bottomH setup.bottomW
    setup.info impl.featStride
  let proposals := partialSort sort setup.preNmsTopn setup.numProposals proposals
  let unpackedBoxes := unpackBoxes proposals run.unpackedBoxes setup.preNmsTopn
  let nms ← nmsCpu haveAvx2 setup.preNmsTopn run.isDead unpackedBoxes run.roiIndices 0
    impl.nmsThresh impl.postNmsTopn
  .ok {
    proposals
    unpackedBoxes
    isDead := nms.isDead
    roiIndices := nms.indexOut
    numRois := nms.count
    rois := RoiLayers.retrieveRoisCpu nms.count n setup.preNmsTopn unpackedBoxes
      (fun roi => (nms.indexOut roi).toNat) run.rois impl.postNmsTopn}

/-- The vectors of an execute, which are new and zero, with the indices and the output
that outlive it. -/
def fresh (roiIndices : Memory Int) (rois : Memory F) : Run F where
  proposals _ := ⟨((0 : Int) : F),((0 : Int) : F),((0 : Int) : F),((0 : Int) : F),((0 : Int) : F)⟩
  unpackedBoxes _ := ((0 : Int) : F)
  isDead _ := 0
  roiIndices
  numRois := 0
  rois

def executeBatch (impl : Impl F) (exp : F → F) (sort : StdPartialSort (scoreGreater (F := F)))
    (haveAvx2 : Bool) (bottom deltas imgInfo : ExtBlob F) (roiIndices : Memory Int)
    (rois : Memory F) : Except Outside (Run F) :=
  tryLoop (bottom.dim 0) (executeImage impl exp sort haveAvx2 (setup impl bottom deltas imgInfo))
    (fresh roiIndices rois)

def execute (impl : Impl F) (exp : F → F) (sort : StdPartialSort (scoreGreater (F := F)))
    (haveAvx2 : Bool) (inputs : List (ExtBlob F)) (outputs : List (Memory F))
    (roiIndices : Memory Int) : Except ExtFailure (Run F) :=
  match inputs, outputs with
  | [bottom,deltas,imgInfo], rois :: _ =>
    match executeBatch impl exp sort haveAvx2 bottom deltas imgInfo roiIndices rois with
    | .ok run => .ok run
    | .error (.at first) => .error (.outside first)
  | _, _ => .error incorrectEdges

end Layer

end VideoAnalytics.Proposal
