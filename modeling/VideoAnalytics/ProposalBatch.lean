import VideoAnalytics.ProposalNms
import VideoAnalytics.RoiLists

/-! The images of a batch in the Proposal layer: each one is computed from the inputs
of the first and overwrites its rows. -/
namespace VideoAnalytics.Proposal
open Loop Sorting Memory Lanes

variable {F : Type} [FloatType F]

/-- The rows of an image without regions of interest: the marker and zeros. -/
def emptyRow (i : Nat) : F := if i = 0 then ((-1 : Int) : F) else ((0 : Int) : F)

private theorem retrieveRois_empty (itemIndex : Int) (numProposals : Nat) (proposals : Memory F)
    (roiIndices : Memory Nat) (rois : Memory F) {postNmsTopn : Nat} (some : 0 < postNmsTopn)
    (address : Nat) :
    RoiLayers.retrieveRoisCpu 0 itemIndex numProposals proposals roiIndices rois postNmsTopn address =
      if address < 5 * postNmsTopn then emptyRow address else rois address := by
  unfold RoiLayers.retrieveRoisCpu emptyRow
  rw [if_pos some]
  by_cases first : address = 0
  · subst first
    rw [if_pos (by omega),if_pos rfl]
    exact write_same _ _ _
  · rw [write_other _ _ _ _ (by omega),forLoop_write,if_neg first]
    apply if_congr _ rfl rfl
    omega

section Images

variable (impl : Impl F) (exp : F → F) (sort : StdPartialSort (scoreGreater (F := F)))
  (haveAvx2 : Bool)

private theorem keptBoxes_nonempty {numBoxes : Nat} (boxes : Memory F) (nmsThresh : F)
    {maxNumOut : Nat} (some : 0 < maxNumOut) :
    0 < (keptBoxes haveAvx2 numBoxes boxes nmsThresh maxNumOut).length ↔ 0 < numBoxes := by
  unfold keptBoxes
  rw [Greedy.selectUpTo_eq _ _ some,List.length_take,lt_min_iff]
  cases numBoxes with
  | zero => simp [Greedy.select]
  | succ numBoxes =>
    have first := (Greedy.select_extends
      (fun later earlier => Kills boxes (numBoxes + 1) nmsThresh haveAvx2 earlier later) [0]
      (List.range' 1 numBoxes)).length_le
    rw [List.range_eq_range',List.range'_succ]
    simp only [Greedy.select,List.not_mem_nil,false_and,exists_false,if_false,List.nil_append]
    exact ⟨fun _ => Nat.succ_pos _,fun _ => ⟨some,first⟩⟩

/-- What an image leaves in the output. -/
structure ImageRows (impl : Impl F) (preNmsTopn n : Nat) (before after : Run F) : Prop where
  found : 0 < after.numRois ↔ 0 < preNmsTopn
  batchId : ∀ roi, roi < after.numRois → after.rois (roi * 5) = ((n : Int) : F)
  empty : preNmsTopn = 0 → ∀ address, after.rois address =
    if address < 5 * impl.postNmsTopn then emptyRow address else before.rois address

private theorem executeImage_rows (some : 0 < impl.postNmsTopn) (setup : Setup F) (n : Nat)
    (run : Run F) : ∃ after, executeImage impl exp sort haveAvx2 setup n run = .ok after ∧
      ImageRows impl setup.preNmsTopn n run after := by
  obtain ⟨nms,represents,executed⟩ := executeImage_eq impl exp sort haveAvx2 setup n run
  have found : 0 < nms.count ↔ 0 < setup.preNmsTopn := by
    rw [represents.count]
    exact keptBoxes_nonempty haveAvx2 _ _ some
  refine ⟨_,executed,found,?_,?_⟩
  · intro roi listed
    exact RoiLayers.retrieveRois_row nms.count n setup.preNmsTopn (topBoxes impl exp sort setup run)
      (fun roi => (nms.indexOut roi).toNat) run.rois impl.postNmsTopn roi 0 listed (by decide)
  · intro none address
    have empty : nms.count = 0 := by omega
    dsimp only
    rw [empty]
    exact retrieveRois_empty _ _ _ _ _ some address

/-- What a batch leaves in the output: the rows of the last image, over those of the
others. -/
structure BatchRows (impl : Impl F) (preNmsTopn : Nat) (rois : Memory F) (images : Nat)
    (run : Run F) : Prop where
  found : 0 < images → (0 < run.numRois ↔ 0 < preNmsTopn)
  batchId : 0 < images → ∀ roi, roi < run.numRois →
    run.rois (roi * 5) = ((images - 1 : Nat) : Int)
  empty : preNmsTopn = 0 → ∀ address, run.rois address =
    if 0 < images ∧ address < 5 * impl.postNmsTopn then emptyRow address else rois address

private theorem executeBatch_rows (some : 0 < impl.postNmsTopn) (bottom deltas imgInfo : ExtBlob F)
    (roiIndices : Memory Int) (rois : Memory F) :
    ∃ after, executeBatch impl exp sort haveAvx2 bottom deltas imgInfo roiIndices rois = .ok after ∧
      BatchRows impl (setup impl bottom deltas imgInfo).preNmsTopn rois (bottom.dim 0) after := by
  apply tryLoop_induct (BatchRows impl (setup impl bottom deltas imgInfo).preNmsTopn rois)
  · refine ⟨by omega,by omega,?_⟩
    intro _ address
    rw [if_neg (by omega)]
    rfl
  · intro n run _ before
    obtain ⟨after,executed,rows⟩ := executeImage_rows impl exp sort haveAvx2 some
      (setup impl bottom deltas imgInfo) n run
    refine ⟨after,executed,fun _ => rows.found,fun _ => rows.batchId,?_⟩
    intro none address
    rw [rows.empty none address,before.empty none address]
    by_cases inside : address < 5 * impl.postNmsTopn
    · rw [if_pos inside,if_pos ⟨Nat.succ_pos n,inside⟩]
    · simp only [inside,and_false,if_false]

end Images

/-- The inputs of one image of a batch, as a batch of one. -/
def imageBlob {F : Type} (blob : ExtBlob F) (n : Nat) : ExtBlob F where
  dims := 1 :: blob.dims.tail
  data := blob.data.offset (n * blob.dims.tail.prod)

/-- The rows of a run on one image, with a batch id in those of its regions of interest. -/
def rowsWithId (alone : Run F) (n i : Nat) : F :=
  if i % 5 = 0 ∧ i / 5 < alone.numRois then ((n : Int) : F) else alone.rois i

/-- Every image has the rows that a run on its inputs alone gives. -/
def Separate (impl : Impl F) (exp : F → F) (sort : StdPartialSort (scoreGreater (F := F)))
    (haveAvx2 : Bool) (bottom deltas imgInfo : ExtBlob F) (roiIndices : Memory Int)
    (rois : Memory F) : Prop :=
  ∃ after,
    execute impl exp sort haveAvx2 [bottom,deltas,imgInfo] [rois] roiIndices = .ok after ∧
    ∀ n, n < bottom.dim 0 → ∃ alone,
      execute impl exp sort haveAvx2 [imageBlob bottom n,imageBlob deltas n,imgInfo] [rois]
        roiIndices = .ok alone ∧
      ∀ i, i < 5 * impl.postNmsTopn →
        after.rois (n * (5 * impl.postNmsTopn) + i) = rowsWithId alone n i

/-- The output holds the rows of images without regions of interest behind the first. -/
def AlreadyEmpty (impl : Impl F) (images : Nat) (rois : Memory F) : Prop :=
  ∀ n, 0 < n → n < images → ∀ i, i < 5 * impl.postNmsTopn →
    rois (n * (5 * impl.postNmsTopn) + i) = emptyRow i

private theorem execute_eq {impl : Impl F} {exp : F → F}
    {sort : StdPartialSort (scoreGreater (F := F))}
    {haveAvx2 : Bool} {bottom deltas imgInfo : ExtBlob F} {roiIndices : Memory Int} {rois : Memory F}
    {after : Run F}
    (executed : executeBatch impl exp sort haveAvx2 bottom deltas imgInfo roiIndices rois =
      .ok after) :
    execute impl exp sort haveAvx2 [bottom,deltas,imgInfo] [rois] roiIndices = .ok after := by
  simp only [execute,executed]

section Layout

variable {impl : Impl F} {exp : F → F} {sort : StdPartialSort (scoreGreater (F := F))}
  {haveAvx2 : Bool} {bottom deltas imgInfo : ExtBlob F} {roiIndices : Memory Int} {rois : Memory F}

private theorem separate_iff {after : Run F} {alone : Nat → Run F}
    (executed : executeBatch impl exp sort haveAvx2 bottom deltas imgInfo roiIndices rois = .ok after)
    (lone : ∀ n, executeBatch impl exp sort haveAvx2 (imageBlob bottom n) (imageBlob deltas n)
      imgInfo roiIndices rois = .ok (alone n)) :
    Separate impl exp sort haveAvx2 bottom deltas imgInfo roiIndices rois ↔
      ∀ n, n < bottom.dim 0 → ∀ i, i < 5 * impl.postNmsTopn →
        after.rois (n * (5 * impl.postNmsTopn) + i) = rowsWithId (alone n) n i := by
  constructor
  · rintro ⟨other,ran,rowsOf⟩ n low
    obtain ⟨only,ranAlone,equal⟩ := rowsOf n low
    rw [execute_eq executed] at ran
    rw [execute_eq (lone n)] at ranAlone
    rw [Except.ok.inj ran,Except.ok.inj ranAlone]
    exact equal
  · intro equal
    exact ⟨after,execute_eq executed,fun n low => ⟨alone n,execute_eq (lone n),equal n low⟩⟩

omit [FloatType F] in
private theorem imageBlob_only {blob : ExtBlob F} (one : blob.dims = 1 :: blob.dims.tail) :
    imageBlob blob 0 = blob := by
  have start : blob.data.offset (0 * blob.dims.tail.prod) = blob.data := by
    ext address
    simp
  unfold imageBlob
  rw [← one,start]

private theorem separate_one (some : 0 < impl.postNmsTopn)
    (scores : bottom.dims = 1 :: bottom.dims.tail) (layout : deltas.dims = 1 :: deltas.dims.tail) :
    Separate impl exp sort haveAvx2 bottom deltas imgInfo roiIndices rois := by
  obtain ⟨after,executed,rows⟩ := executeBatch_rows impl exp sort haveAvx2 some bottom deltas imgInfo
    roiIndices rois
  have images : bottom.dim 0 = 1 := by
    unfold ExtBlob.dim
    rw [scores]
    rfl
  refine ⟨after,execute_eq executed,?_⟩
  intro n low
  have first : n = 0 := by omega
  subst first
  rw [imageBlob_only scores,imageBlob_only layout]
  refine ⟨after,execute_eq executed,?_⟩
  intro i _
  rw [Nat.zero_mul,Nat.zero_add]
  unfold rowsWithId
  split
  · next head =>
    have batchId := rows.batchId (by omega) (i / 5) head.2
    rw [images] at batchId
    rw [← batchId]
    congr 1
    omega
  · rfl

omit [FloatType F] in
private theorem imageBlob_dim (blob : ExtBlob F) (n axis : Nat) :
    (imageBlob blob n).dim (axis + 1) = blob.dim (axis + 1) := by
  unfold ExtBlob.dim imageBlob
  cases blob.dims with
  | nil => rfl
  | cons first rest => rfl

private theorem setup_imageBlob (n : Nat) :
    (setup impl (imageBlob bottom n) (imageBlob deltas n) imgInfo).preNmsTopn =
      (setup impl bottom deltas imgInfo).preNmsTopn := by
  simp only [setup,imageBlob_dim]

/-- The first row of a batch with several images has the batch id of the last one. -/
theorem not_separate [FloatCast F] (some : 0 < impl.postNmsTopn)
    (proposals : 0 < (setup impl bottom deltas imgInfo).preNmsTopn) (several : 1 < bottom.dim 0) :
    ¬Separate impl exp sort haveAvx2 bottom deltas imgInfo roiIndices rois := by
  obtain ⟨after,executed,rows⟩ := executeBatch_rows impl exp sort haveAvx2 some bottom deltas imgInfo
    roiIndices rois
  have lone := fun n => executeBatch_rows impl exp sort haveAvx2 some (imageBlob bottom n)
    (imageBlob deltas n) imgInfo roiIndices rois
  simp only [setup_imageBlob] at lone
  choose alone ran rowsAlone using lone
  rw [separate_iff executed ran]
  intro equal
  have head := equal 0 (by omega) 0 (by omega)
  have last := rows.batchId (by omega) 0 ((rows.found (by omega)).mpr proposals)
  have first : rowsWithId (alone 0) 0 0 = (((0 : Nat) : Int) : F) :=
    if_pos ⟨rfl,((rowsAlone 0).found Nat.one_pos).mpr proposals⟩
  simp only [Nat.zero_mul,Nat.zero_add] at head last
  rw [first,last] at head
  exact FloatCast.positive (bottom.dim 0 - 1) (by omega) head

private theorem separate_empty_iff (some : 0 < impl.postNmsTopn)
    (none : (setup impl bottom deltas imgInfo).preNmsTopn = 0) (images : 0 < bottom.dim 0) :
    Separate impl exp sort haveAvx2 bottom deltas imgInfo roiIndices rois ↔
      AlreadyEmpty impl (bottom.dim 0) rois := by
  obtain ⟨after,executed,rows⟩ := executeBatch_rows impl exp sort haveAvx2 some bottom deltas imgInfo
    roiIndices rois
  have lone := fun n => executeBatch_rows impl exp sort haveAvx2 some (imageBlob bottom n)
    (imageBlob deltas n) imgInfo roiIndices rois
  simp only [setup_imageBlob] at lone
  choose alone ran rowsAlone using lone
  rw [separate_iff executed ran]
  have expected : ∀ n i, i < 5 * impl.postNmsTopn → rowsWithId (alone n) n i = emptyRow i := by
    intro n i inside
    have found := (rowsAlone n).found Nat.one_pos
    unfold rowsWithId
    rw [if_neg (by omega),(rowsAlone n).empty none i,if_pos ⟨Nat.one_pos,inside⟩]
  constructor
  · intro equal n behind low i inside
    have here := equal n low i inside
    have place := Nat.le_mul_of_pos_left (5 * impl.postNmsTopn) behind
    rw [expected n i inside,rows.empty none,if_neg (by omega)] at here
    exact here
  · intro already n low i inside
    rw [expected n i inside,rows.empty none]
    rcases Nat.eq_zero_or_pos n with rfl | behind
    · rw [Nat.zero_mul,Nat.zero_add,if_pos ⟨images,inside⟩]
    · have place := Nat.le_mul_of_pos_left (5 * impl.postNmsTopn) behind
      rw [if_neg (by omega)]
      exact already n behind low i inside

end Layout

/-- The images of a batch are separate if and only if there is one image, or no proposal
and already the rows of empty images behind the first. -/
theorem images_separate_iff [FloatCast F] (impl : Impl F) (exp : F → F)
    (sort : StdPartialSort (scoreGreater (F := F))) (haveAvx2 : Bool)
    (bottom deltas imgInfo : ExtBlob F) (roiIndices : Memory Int) (rois : Memory F)
    (nn bottomH bottomW : Nat) (images : 1 ≤ nn) (some : 1 ≤ impl.postNmsTopn)
    (scores : bottom.dims = [nn,2 * impl.anchorsShape0,bottomH,bottomW])
    (layout : deltas.dims = [nn,4 * impl.anchorsShape0,bottomH,bottomW]) :
    Separate impl exp sort haveAvx2 bottom deltas imgInfo roiIndices rois ↔
      nn = 1 ∨ (min (impl.anchorsShape0 * bottomH * bottomW) impl.preNmsTopn = 0 ∧
        AlreadyEmpty impl nn rois) := by
  by_cases one : nn = 1
  · simp only [one,true_or,iff_true]
    apply separate_one some
    · rw [scores,one]
      rfl
    · rw [layout,one]
      rfl
  have count : bottom.dim 0 = nn := by
    unfold ExtBlob.dim
    rw [scores]
    rfl
  have proposals : (setup impl bottom deltas imgInfo).preNmsTopn =
      min (impl.anchorsShape0 * bottomH * bottomW) impl.preNmsTopn := by
    simp only [setup,ExtBlob.dim,scores]
    rfl
  simp only [one,false_or]
  rw [← proposals,← count]
  rcases Nat.eq_zero_or_pos (setup impl bottom deltas imgInfo).preNmsTopn with zero | positive
  · simp only [zero,true_and]
    exact separate_empty_iff some zero (by omega)
  · simp only [Nat.ne_of_gt positive,false_and,iff_false]
    exact not_separate some positive (by omega)

/-- One anchor at one place of an image, one region of interest for each image. -/
def oneAnchor : Impl Rat where
  featStride := 1
  minSize := 1
  preNmsTopn := 1
  postNmsTopn := 1
  nmsThresh := 1 / 2
  anchorsShape0 := 1
  anchors := fun address => if address < 2 then 0 else 4

def onePixel (nn channels : Nat) (values : Memory Rat) : ExtBlob Rat where
  dims := [nn,channels,1,1]
  data := values

theorem images_separate_iff_single :
    Separate oneAnchor (fun _ => 1) (StdPartialSort.insertion _) false (onePixel 1 2 fun _ => 1)
      (onePixel 1 4 fun _ => 0) (onePixel 1 3 fun _ => 10) (fun _ => 0) fun _ => 7 :=
  (images_separate_iff oneAnchor (fun _ => 1) (StdPartialSort.insertion _) false
    (onePixel 1 2 fun _ => 1) (onePixel 1 4 fun _ => 0) (onePixel 1 3 fun _ => 10) (fun _ => 0)
    (fun _ => 7) 1 1 1 (by decide) (by decide) rfl rfl).mpr (.inl rfl)

/-- Of two images the second overwrites the row of the first with the box of the first,
and leaves its own row as it was. -/
theorem images_not_separate :
    ¬Separate oneAnchor (fun _ => 1) (StdPartialSort.insertion _) false (onePixel 2 2 fun _ => 1)
      (onePixel 2 4 fun _ => 0) (onePixel 1 3 fun _ => 10) (fun _ => 0) fun _ => 7 :=
  not_separate (by decide) (by decide) (by decide)

end VideoAnalytics.Proposal
