import VideoAnalytics.DetectionOutput
import VideoAnalytics.Library.Greedy

/-! Non-maximum suppression as a function from the confidences and boxes of one
class to the priors that survive, and that nms leaves these in its indices. -/
namespace VideoAnalytics.DetectionOutput
open Loop Sorting Memory

variable {F : Type} [FloatType F]

def candidates (impl : Impl F) (confData : Memory F) (actual : Nat) : List Nat :=
  (List.range actual).filter fun i => confData i > impl.confidenceThreshold

def ranked (impl : Impl F) (confData : Memory F) (actual : Nat) : List Nat :=
  partialSortCopy (ConfidenceComparator confData) (candidates impl confData actual)
    (numOutputScores impl (candidates impl confData actual).length)

/-- Each box is kept unless it overlaps too much with one kept before. -/
def greedy (impl : Impl F) (bboxes sizes : Memory F) : List Nat → List Nat → List Nat
  | kept, [] => kept
  | kept, idx :: rest =>
    if kept.any fun k => jaccardOverlap bboxes sizes idx k > impl.nmsThreshold then
      greedy impl bboxes sizes kept rest
    else greedy impl bboxes sizes (kept ++ [idx]) rest

def survivors (impl : Impl F) (confData bboxes sizes : Memory F) (actual : Nat) : List Nat :=
  greedy impl bboxes sizes [] (ranked impl confData actual)

def Overlaps (impl : Impl F) (bboxes sizes : Memory F) (p q : Nat) : Prop :=
  impl.nmsThreshold < jaccardOverlap bboxes sizes p q

instance overlaps_decidable (impl : Impl F) (bboxes sizes : Memory F) :
    DecidableRel (Overlaps impl bboxes sizes) := by
  intro p q
  unfold Overlaps
  infer_instance

theorem greedy_eq_select (impl : Impl F) (bboxes sizes : Memory F) (kept rest : List Nat) :
    greedy impl bboxes sizes kept rest =
      Greedy.select (Overlaps impl bboxes sizes) kept rest := by
  induction rest generalizing kept with
  | nil => rfl
  | cons idx rest ih =>
    have same : (kept.any fun k => jaccardOverlap bboxes sizes idx k > impl.nmsThreshold) = true ↔
        ∃ other ∈ kept, Overlaps impl bboxes sizes idx other := by
      simp [Overlaps]
    unfold greedy Greedy.select
    by_cases conflict : ∃ other ∈ kept, Overlaps impl bboxes sizes idx other
    · rw [if_pos (same.mpr conflict),if_pos conflict,ih]
    · rw [if_neg (mt same.mp conflict),if_neg conflict,ih]

private theorem greedy_append (impl : Impl F) (bboxes sizes : Memory F)
    (kept first second : List Nat) : greedy impl bboxes sizes kept (first ++ second) =
      greedy impl bboxes sizes (greedy impl bboxes sizes kept first) second := by
  rw [greedy_eq_select,greedy_eq_select,greedy_eq_select]
  exact Greedy.select_append _ kept first second

private theorem greedy_sublist (impl : Impl F) (bboxes sizes : Memory F) (kept rest : List Nat) :
    (greedy impl bboxes sizes kept rest).Sublist (kept ++ rest) := by
  rw [greedy_eq_select]
  exact Greedy.select_sublist _ kept rest

theorem ranked_subperm (impl : Impl F) (confData : Memory F) (actual : Nat) :
    (ranked impl confData actual).Subperm (candidates impl confData actual) := by
  unfold ranked partialSortCopy
  exact (List.take_sublist _ _).subperm.trans (insertionSort_perm _ _).subperm

private theorem survivors_subperm (impl : Impl F) (confData bboxes sizes : Memory F)
    (actual : Nat) :
    (survivors impl confData bboxes sizes actual).Subperm (candidates impl confData actual) := by
  have kept := greedy_sublist impl bboxes sizes [] (ranked impl confData actual)
  exact kept.subperm.trans (ranked_subperm impl confData actual)

private theorem candidates_length (impl : Impl F) (confData : Memory F) (actual : Nat) :
    (candidates impl confData actual).length ≤ actual := by
  have filtered := List.length_filter_le (fun i => confData i > impl.confidenceThreshold)
    (List.range actual)
  rwa [List.length_range] at filtered

theorem survivors_length (impl : Impl F) (confData bboxes sizes : Memory F) (actual : Nat) :
    (survivors impl confData bboxes sizes actual).length ≤ actual :=
  (survivors_subperm impl confData bboxes sizes actual).length_le.trans
    (candidates_length impl confData actual)

theorem mem_survivors (impl : Impl F) (confData bboxes sizes : Memory F) (actual prior : Nat)
    (member : prior ∈ survivors impl confData bboxes sizes actual) :
    prior < actual ∧ confData prior > impl.confidenceThreshold := by
  have candidate := (survivors_subperm impl confData bboxes sizes actual).subset member
  simpa [candidates] using candidate

omit [FloatType F] in
private theorem numOutputScores_le (impl : Impl F) (count : Nat) :
    numOutputScores impl count ≤ count := by
  unfold numOutputScores
  split <;> omega

private theorem jaccardOverlap_congr (bboxes sizes bboxes' sizes' : Memory F)
    (actual idx1 idx2 : Nat) (first : idx1 < actual) (second : idx2 < actual)
    (sameBoxes : ∀ address, address < 4 * actual → bboxes address = bboxes' address)
    (sameSizes : ∀ p, p < actual → sizes p = sizes' p) :
    jaccardOverlap bboxes sizes idx1 idx2 = jaccardOverlap bboxes' sizes' idx1 idx2 := by
  have same : ∀ idx k, idx < actual → k < 4 → bboxes (idx * 4 + k) = bboxes' (idx * 4 + k) := by
    intro idx k within low
    exact sameBoxes _ (by omega)
  unfold jaccardOverlap
  simp only [same idx1 0 first (by omega),same idx1 1 first (by omega),
    same idx1 2 first (by omega),same idx1 3 first (by omega),same idx2 0 second (by omega),
    same idx2 1 second (by omega),same idx2 2 second (by omega),same idx2 3 second (by omega),
    sameSizes idx1 first,sameSizes idx2 second]

private theorem greedy_congr (impl : Impl F) (bboxes sizes bboxes' sizes' : Memory F) (actual : Nat)
    (sameBoxes : ∀ address, address < 4 * actual → bboxes address = bboxes' address)
    (sameSizes : ∀ p, p < actual → sizes p = sizes' p) (kept rest : List Nat)
    (keptLow : ∀ p ∈ kept, p < actual) (restLow : ∀ p ∈ rest, p < actual) :
    greedy impl bboxes sizes kept rest = greedy impl bboxes' sizes' kept rest := by
  induction rest generalizing kept with
  | nil => rfl
  | cons idx rest ih =>
    have here := restLow idx List.mem_cons_self
    have later : ∀ p ∈ rest, p < actual := fun p member => restLow p (List.mem_cons_of_mem _ member)
    have decided : (kept.any fun k => jaccardOverlap bboxes sizes idx k > impl.nmsThreshold) =
        kept.any fun k => jaccardOverlap bboxes' sizes' idx k > impl.nmsThreshold := by
      rw [Bool.eq_iff_iff,List.any_eq_true,List.any_eq_true]
      apply exists_congr
      intro k
      apply and_congr_right
      intro member
      rw [jaccardOverlap_congr bboxes sizes bboxes' sizes' actual idx k here (keptLow k member)
        sameBoxes sameSizes]
    have extended : ∀ p ∈ kept ++ [idx], p < actual := by
      intro p member
      rcases List.mem_append.mp member with member | member
      · exact keptLow p member
      · rw [List.mem_singleton.mp member]
        exact here
    simp only [greedy,decided,ih kept keptLow later,ih (kept ++ [idx]) extended later]

private theorem ranked_congr (impl : Impl F) (confData confData' : Memory F) (actual : Nat)
    (same : ∀ p, p < actual → confData p = confData' p) :
    ranked impl confData actual = ranked impl confData' actual := by
  have chosen : candidates impl confData actual = candidates impl confData' actual := by
    apply List.filter_congr
    intro p member
    rw [same p (List.mem_range.mp member)]
  unfold ranked partialSortCopy
  rw [chosen]
  rw [insertionSort_congr _ (ConfidenceComparator confData')]
  intro a first b second
  have low : ∀ p ∈ candidates impl confData' actual, p < actual := fun p member =>
    List.mem_range.mp (List.mem_of_mem_filter member)
  unfold ConfidenceComparator
  rw [same a (low a first),same b (low b second)]

theorem survivors_congr (impl : Impl F) (confData confData' bboxes bboxes' sizes sizes' : Memory F)
    (actual : Nat) (sameConf : ∀ p, p < actual → confData p = confData' p)
    (sameBoxes : ∀ address, address < 4 * actual → bboxes address = bboxes' address)
    (sameSizes : ∀ p, p < actual → sizes p = sizes' p) :
    survivors impl confData bboxes sizes actual = survivors impl confData' bboxes' sizes' actual := by
  unfold survivors
  rw [ranked_congr impl confData confData' actual sameConf]
  apply greedy_congr impl bboxes sizes bboxes' sizes' actual sameBoxes sameSizes
  · simp
  · intro p member
    have candidate := (ranked_subperm impl confData' actual).subset member
    exact List.mem_range.mp (List.mem_of_mem_filter candidate)

private theorem ranked_length (impl : Impl F) (confData : Memory F) (actual : Nat) :
    (ranked impl confData actual).length =
      numOutputScores impl (candidates impl confData actual).length := by
  have bound := numOutputScores_le impl (candidates impl confData actual).length
  have length := (insertionSort_perm (ConfidenceComparator confData)
    (candidates impl confData actual)).length_eq
  unfold ranked partialSortCopy
  rw [List.length_take]
  omega

private theorem candidates_succ (impl : Impl F) (confData : Memory F) (actual : Nat) :
    candidates impl confData (actual + 1) = candidates impl confData actual ++
      if confData actual > impl.confidenceThreshold then [actual] else [] := by
  unfold candidates
  rw [List.range_succ,List.filter_append]
  by_cases above : confData actual > impl.confidenceThreshold
  · simp [above]
  · simp [above]

private theorem collectCandidates_holds (impl : Impl F) (confData : Memory F)
    (pindices actual : Nat) (indices : Memory Nat) :
    let collected := collectCandidates impl confData pindices actual indices
    collected.1 = (candidates impl confData actual).length ∧
      collected.2.Holds pindices (candidates impl confData actual) ∧
      indices.OnlyIn collected.2 pindices actual := by
  unfold collectCandidates
  apply forLoop_induct fun i (collected : Nat × Memory Nat) =>
    collected.1 = (candidates impl confData i).length ∧
      collected.2.Holds pindices (candidates impl confData i) ∧
      indices.OnlyIn collected.2 pindices actual
  · exact ⟨rfl,by simp [candidates],OnlyIn.refl indices pindices actual⟩
  · rintro i ⟨count,memory⟩ within ⟨rfl,holds,only⟩
    have bound := candidates_length impl confData i
    rw [candidates_succ]
    by_cases above : confData i > impl.confidenceThreshold
    · simp only [above,if_true,List.length_append,List.length_singleton,true_and]
      refine ⟨holds.extend i,only.write _ _ ?_ ?_⟩ <;> omega
    · simpa [above] using ⟨holds,only⟩

theorem collected_list (memory : Memory Nat) (base : Nat) (values : List Nat)
    (holds : memory.Holds base values) :
    (List.range values.length).map (memory.offset base) = values := by
  apply List.ext_getElem
  · simp
  · intro i left right
    simpa using holds i right

private theorem writeList_holds (memory : Memory Nat) (start : Nat) (values : List Nat) :
    (writeList memory start values).Holds start values := by
  have prefixes : (writeList memory start values).Holds start (values.take values.length) := by
    unfold writeList
    apply forLoop_induct fun i (memory : Memory Nat) => memory.Holds start (values.take i)
    · simp
    · intro i state within holds
      have more := holds.extend (values.getD i 0)
      rw [List.length_take,Nat.min_eq_left (by omega)] at more
      rw [List.take_succ_eq_append_getElem within]
      simpa [List.getElem?_eq_getElem within] using more
  simpa using prefixes

private theorem overlapsKept_eq (impl : Impl F) (bboxes sizes : Memory F) (indices : Memory Nat)
    (base idx : Nat) (kept : List Nat) (holds : indices.Holds base kept) (remaining k : Nat)
    (all : k + remaining = kept.length) :
    overlapsKept impl bboxes sizes (indices.offset base) idx remaining k =
      (kept.drop k).any fun other => jaccardOverlap bboxes sizes idx other > impl.nmsThreshold := by
  induction remaining generalizing k with
  | zero =>
    rw [List.drop_of_length_le (by omega)]
    rfl
  | succ remaining ih =>
    have here := holds k (by omega)
    rw [List.drop_eq_getElem_cons (by omega)]
    unfold overlapsKept
    rw [offset_apply,here,ih (k + 1) (by omega)]
    by_cases overlap : jaccardOverlap bboxes sizes idx kept[k] > impl.nmsThreshold
    · simp only [overlap,if_true,List.any_cons,decide_true,Bool.true_or]
    · simp only [overlap,if_false,List.any_cons,decide_false,Bool.false_or]

private theorem keepBoxes_holds (impl : Impl F) (bboxes sizes : Memory F)
    (pbuffer pindices size : Nat)
    (buffer indices : Memory Nat) (sorted : List Nat) (holds : buffer.Holds pbuffer sorted)
    (fits : sorted.length ≤ size) :
    let kept := keepBoxes impl bboxes sizes pbuffer pindices sorted.length buffer 0 indices
    kept.1 = (greedy impl bboxes sizes [] sorted).length ∧
      kept.2.Holds pindices (greedy impl bboxes sizes [] sorted) ∧
      indices.OnlyIn kept.2 pindices size := by
  have prefixes : let kept := keepBoxes impl bboxes sizes pbuffer pindices sorted.length buffer 0 indices
      kept.1 = (greedy impl bboxes sizes [] (sorted.take sorted.length)).length ∧
        kept.2.Holds pindices (greedy impl bboxes sizes [] (sorted.take sorted.length)) ∧
        indices.OnlyIn kept.2 pindices size := by
    unfold keepBoxes
    apply forLoop_induct fun i (kept : Nat × Memory Nat) =>
      kept.1 = (greedy impl bboxes sizes [] (sorted.take i)).length ∧
        kept.2.Holds pindices (greedy impl bboxes sizes [] (sorted.take i)) ∧
        indices.OnlyIn kept.2 pindices size
    · exact ⟨by simp [greedy],by simp [greedy],OnlyIn.refl indices pindices size⟩
    · rintro i ⟨count,memory⟩ within ⟨rfl,kept,only⟩
      have bound := (greedy_sublist impl bboxes sizes [] (sorted.take i)).length_le
      simp only [List.nil_append,List.length_take] at bound
      have decided := overlapsKept_eq impl bboxes sizes memory pindices sorted[i] _ kept _ 0
        (Nat.zero_add _)
      rw [List.take_succ_eq_append_getElem within,greedy_append]
      simp only [holds i within,decided,List.drop_zero,greedy]
      split
      · exact ⟨rfl,kept,only⟩
      · refine ⟨by simp,kept.extend sorted[i],only.write _ _ ?_ ?_⟩ <;> omega
  simpa using prefixes

/-- What nms leaves for a class without detections so far. -/
theorem nms_holds (impl : Impl F) (confData bboxes sizes : Memory F) (pbuffer pindices actual : Nat)
    (buffer indices : Memory Nat) :
    let suppressed := nms impl confData bboxes sizes pbuffer pindices 0 actual buffer indices
    suppressed.2.2 = (survivors impl confData bboxes sizes actual).length ∧
      suppressed.2.1.Holds pindices (survivors impl confData bboxes sizes actual) ∧
      indices.OnlyIn suppressed.2.1 pindices actual := by
  obtain ⟨count,holds,only⟩ := collectCandidates_holds impl confData pindices actual indices
  have list := collected_list _ _ _ holds
  have length := ranked_length impl confData actual
  unfold nms
  simp only [count,list]
  change _ = (survivors impl confData bboxes sizes actual).length ∧ _
  have written := writeList_holds buffer pbuffer (ranked impl confData actual)
  have bound := candidates_length impl confData actual
  have fewer := numOutputScores_le impl (candidates impl confData actual).length
  have kept := keepBoxes_holds impl bboxes sizes pbuffer pindices actual
    (writeList buffer pbuffer (ranked impl confData actual))
    (collectCandidates impl confData pindices actual indices).2 _ written (by omega)
  rw [length] at kept
  obtain ⟨detections,survive,still⟩ := kept
  exact ⟨detections,survive,only.trans still⟩

end VideoAnalytics.DetectionOutput
