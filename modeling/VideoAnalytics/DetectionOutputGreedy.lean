import VideoAnalytics.DetectionOutputNms

/-! What non-maximum suppression selects: of the best candidates in the order of
their confidences those that overlap none selected before. -/
namespace VideoAnalytics.DetectionOutput
open Loop Sorting Memory

variable {F : Type} [FloatType F]

/-- Ranked by confidence, and by index among equal confidences. -/
def Before (confData : Memory F) (p q : Nat) : Prop :=
  confData q < confData p ∨ ¬confData q < confData p ∧ ¬confData p < confData q ∧ p < q

instance before_decidable (confData : Memory F) : DecidableRel (Before confData) := by
  intro p q
  unfold Before
  infer_instance

def Candidate (impl : Impl F) (confData : Memory F) (actual p : Nat) : Prop :=
  p < actual ∧ impl.confidenceThreshold < confData p

def rank (impl : Impl F) (confData : Memory F) (actual p : Nat) : Nat :=
  (List.range actual).countP fun q =>
    impl.confidenceThreshold < confData q ∧ Before confData q p

/-- A candidate that is among the top_k best ones, or any one when top_k is -1. -/
def Best (impl : Impl F) (confData : Memory F) (actual p : Nat) : Prop :=
  Candidate impl confData actual p ∧ (impl.topK = -1 ∨ rank impl confData actual p < impl.topK)

/-- The greedy selection from the best candidates. -/
structure GreedyNms (impl : Impl F) (confData bboxes sizes : Memory F) (actual : Nat)
    (kept : List Nat) : Prop where
  distinct : kept.Nodup
  best : ∀ p ∈ kept, Best impl confData actual p
  ordered : kept.Pairwise (Before confData)
  apart : kept.Pairwise fun p q => ¬Overlaps impl bboxes sizes q p
  complete : ∀ p, Best impl confData actual p → p ∉ kept →
    ∃ q ∈ kept, Before confData q p ∧ Overlaps impl bboxes sizes p q

private theorem confidenceComparator_iff (confData : Memory F) (p q : Nat) :
    ConfidenceComparator confData p q ↔ Before confData p q := by
  unfold ConfidenceComparator Before
  split_ifs with above below
  · simp [above]
  · simp [above,below]
  · simp [above,below]

private theorem mem_candidates (impl : Impl F) (confData : Memory F) (actual p : Nat) :
    p ∈ candidates impl confData actual ↔ Candidate impl confData actual p := by
  simp [candidates,Candidate]

private theorem candidates_nodup (impl : Impl F) (confData : Memory F) (actual : Nat) :
    (candidates impl confData actual).Nodup := List.nodup_range.filter _

private theorem before_trans [FloatOrder F] (confData : Memory F) {least : F} {p q r : Nat}
    (first : least < confData p) (second : least < confData q) (third : least < confData r)
    (earlier : Before confData p q) (later : Before confData q r) : Before confData p r := by
  rcases earlier with above | ⟨unabove,unbelow,early⟩
  · rcases FloatOrder.compares least _ (confData r) _ second third first above with low | low
    · rcases later with below | ⟨-,equal,-⟩
      · exact .inl (FloatOrder.trans _ _ _ below above)
      · exact absurd low equal
    · exact .inl low
  · rcases later with below | ⟨same,equal,late⟩
    · rcases FloatOrder.compares least _ (confData p) _ third first second below with low | high
      · exact .inl low
      · exact absurd high unbelow
    · refine .inr ⟨?_,?_,Nat.lt_trans early late⟩
      · intro below
        rcases FloatOrder.compares least _ (confData q) _ third second first below with low | low
        · exact same low
        · exact unabove low
      · intro above
        rcases FloatOrder.compares least _ (confData q) _ first second third above with low | low
        · exact unbelow low
        · exact equal low

/-- Candidates have numbers for confidences, which the indices make a total order. -/
theorem comparator_total [FloatOrder F] (impl : Impl F) (confData : Memory F) (actual : Nat) :
    StrictTotal (ConfidenceComparator confData) (candidates impl confData actual) := by
  have above : ∀ p ∈ candidates impl confData actual,
      impl.confidenceThreshold < confData p := fun p member =>
    ((mem_candidates impl confData actual p).mp member).2
  constructor
  · intro p _
    rw [confidenceComparator_iff]
    rintro (less | ⟨-,-,less⟩)
    · exact FloatOrder.irrefl _ less
    · exact Nat.lt_irrefl p less
  · intro p first q second r third
    simp only [confidenceComparator_iff]
    exact before_trans confData (above p first) (above q second) (above r third)
  · intro p _ q _ different
    simp only [confidenceComparator_iff]
    unfold Before
    by_cases less : confData p < confData q
    · exact .inr (.inl less)
    · by_cases greater : confData q < confData p
      · exact .inl (.inl greater)
      · rcases Nat.lt_or_gt_of_ne different with early | late
        · exact .inl (.inr ⟨greater,less,early⟩)
        · exact .inr (.inr ⟨less,greater,late⟩)

private theorem rank_eq (impl : Impl F) (confData : Memory F) (actual p : Nat) :
    (candidates impl confData actual).countP (fun q => ConfidenceComparator confData q p) =
      rank impl confData actual p := by
  unfold candidates rank
  rw [List.countP_filter]
  apply List.countP_congr
  intro q _
  simp [confidenceComparator_iff,and_comm]

private theorem mem_ranked [FloatOrder F] (impl : Impl F) (confData : Memory F) (actual p : Nat) :
    p ∈ ranked impl confData actual ↔ Best impl confData actual p := by
  have total := comparator_total impl confData actual
  have distinct := candidates_nodup impl confData actual
  have among : p ∈ ranked impl confData actual → p ∈ candidates impl confData actual :=
    fun member => (ranked_subperm impl confData actual).subset member
  unfold Best
  rw [← mem_candidates]
  by_cases member : p ∈ candidates impl confData actual
  · have first := mem_take_insertionSort (ConfidenceComparator confData) total distinct member
    have perm := insertionSort_perm (ConfidenceComparator confData)
      (candidates impl confData actual)
    have whole := (first (candidates impl confData actual).length).mp (by
      rw [List.take_of_length_le (le_of_eq perm.length_eq)]
      exact perm.mem_iff.mpr member)
    rw [rank_eq] at first whole
    unfold ranked partialSortCopy
    rw [first]
    unfold numOutputScores
    simp only [member,true_and]
    split
    · next all => simp [all,whole]
    · omega
  · exact iff_of_false (mt among member) fun best => member best.1

private theorem ranked_ordered [FloatOrder F] (impl : Impl F) (confData : Memory F) (actual : Nat) :
    (ranked impl confData actual).Pairwise (Before confData) := by
  have sorted := insertionSort_strict (ConfidenceComparator confData)
    (candidates impl confData actual) (comparator_total impl confData actual)
    (candidates_nodup impl confData actual)
  exact (sorted.sublist (List.take_sublist _ _)).imp fun before =>
    (confidenceComparator_iff confData _ _).mp before

private theorem ranked_nodup (impl : Impl F) (confData : Memory F) (actual : Nat) :
    (ranked impl confData actual).Nodup := by
  have perm := insertionSort_perm (ConfidenceComparator confData) (candidates impl confData actual)
  exact (perm.nodup_iff.mpr (candidates_nodup impl confData actual)).sublist (List.take_sublist _ _)

private theorem survivors_greedy [FloatOrder F] (impl : Impl F) (confData bboxes sizes : Memory F)
    (actual : Nat) :
    GreedyNms impl confData bboxes sizes actual
      (survivors impl confData bboxes sizes actual) := by
  have ordered := ranked_ordered impl confData actual
  have kept := Greedy.select_sublist (Overlaps impl bboxes sizes) []
    (ranked impl confData actual)
  unfold survivors
  rw [greedy_eq_select]
  refine ⟨kept.nodup (ranked_nodup impl confData actual),?_,ordered.sublist kept,?_,?_⟩
  · intro p member
    exact (mem_ranked impl confData actual p).mp (kept.subset member)
  · exact Greedy.select_independent _ _ List.Pairwise.nil
  · intro p best dropped
    have member := (mem_ranked impl confData actual p).mpr best
    exact Greedy.select_complete _ (by simpa using ordered) member dropped

/-- What nms leaves in its indices for a class without detections so far is the
greedy selection, as it is from a list of candidates that nothing overwrites. -/
theorem nms_greedy [FloatOrder F] (impl : Impl F) (confData bboxes sizes : Memory F)
    (pbuffer pindices actual : Nat) (buffer indices : Memory Nat) :
    let suppressed := nms impl confData bboxes sizes pbuffer pindices 0 actual buffer indices
    let kept := (List.range suppressed.2.2).map (suppressed.2.1.offset pindices)
    GreedyNms impl confData bboxes sizes actual kept ∧
      kept = survivors impl confData bboxes sizes actual := by
  intro suppressed kept
  obtain ⟨count,holds,-⟩ := nms_holds impl confData bboxes sizes pbuffer pindices actual
    buffer indices
  have listed := collected_list _ _ _ holds
  rw [← count] at listed
  refine ⟨?_,listed⟩
  have greedy := survivors_greedy impl confData bboxes sizes actual
  rw [← listed] at greedy
  exact greedy

def oneClass : Impl Rat where
  numClasses := 1
  backgroundLabelId := -1
  topK := -1
  varianceEncodedInTarget := true
  keepTopK := -1
  nmsThreshold := 1 / 2
  confidenceThreshold := 1 / 10
  shareLocation := true
  normalized := true
  imageHeight := 1
  imageWidth := 1
  codeType := .corner
  numPriors := 4

def fourConfidences : Memory Rat := fun p => if p = 2 then 0 else 9 / 10

/-- The last box lies apart from the others, which are equal. -/
def fourBoxes : Memory Rat := fun address =>
  (if address / 4 = 3 then 5 else 0) + if address % 4 < 2 then 0 else 1

theorem nms_greedy_ties :
    let suppressed := nms oneClass fourConfidences fourBoxes (fun _ => 1) 0 0 0 4
      (fun _ => 7) (fun _ => 7)
    let kept := (List.range suppressed.2.2).map (suppressed.2.1.offset 0)
    GreedyNms oneClass fourConfidences fourBoxes (fun _ => 1) 4 kept ∧ kept = [0,3] := by
  intro suppressed kept
  refine ⟨(nms_greedy oneClass fourConfidences fourBoxes (fun _ => 1) 0 0 4
    (fun _ => 7) (fun _ => 7)).1,?_⟩
  decide +kernel

end VideoAnalytics.DetectionOutput
