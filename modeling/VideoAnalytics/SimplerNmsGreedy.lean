import VideoAnalytics.Library.Greedy
import VideoAnalytics.SimplerNms

/-! What SimplerNMS selects: the same boxes whatever the sorts leave open, and greedily
by confidence. -/
namespace VideoAnalytics.SimplerNms
open Sorting

section Selection

variable {F : Type} [FloatType F]

def interArea (a b : Proposal F) : F := (a.roi.intersect b.roi).area

def unionArea (a b : Proposal F) : F := b.roi.area + a.roi.area - interArea a b

def Conflicts (iouThreshold : F) (later earlier : Proposal F) : Prop :=
  iouThreshold * unionArea later earlier < interArea later earlier

instance conflicts_decidable (iouThreshold : F) : DecidableRel (Conflicts iouThreshold) := by
  intro later earlier
  unfold Conflicts
  infer_instance

/-- The proposals that are examined: those with a confidence above zero. -/
def examined (proposals : List (Proposal F)) : List (Proposal F) :=
  proposals.filter fun proposal => ((0 : Int) : F) < proposal.confidence

private theorem performNms_eq (iouThreshold : F) (topN : Nat)
    (taken proposals : List (Proposal F)) :
    performNms iouThreshold topN (taken.map Proposal.roi) proposals =
      (Greedy.selectUpTo (Conflicts iouThreshold) topN taken (examined proposals)).map
        Proposal.roi := by
  induction proposals generalizing taken with
  | nil => rfl
  | cons prop proposals ih =>
    unfold performNms examined
    by_cases above : ((0 : Int) : F) < prop.confidence
    · have same : (taken.map Proposal.roi).any (overlaps iouThreshold prop.roi) = true ↔
          ∃ other ∈ taken, Conflicts iouThreshold prop other := by
        simp [overlaps,Conflicts,interArea,unionArea]
      have longer : taken.map Proposal.roi ++ [prop.roi] = (taken ++ [prop]).map Proposal.roi := by
        rw [List.map_append]
        rfl
      rw [List.filter_cons_of_pos (by simpa using above),if_pos above]
      unfold Greedy.selectUpTo
      by_cases conflict : ∃ other ∈ taken, Conflicts iouThreshold prop other
      · rw [if_pos (same.mpr conflict),if_pos conflict]
        exact ih taken
      · rw [if_neg (mt same.mp conflict),if_neg conflict,longer,List.length_map]
        by_cases full : (taken ++ [prop]).length = topN
        · rw [if_pos full,if_pos full]
        · rw [if_neg full,if_neg full]
          exact ih (taken ++ [prop])
    · rw [List.filter_cons_of_neg (by simpa using above),if_neg above]
      exact ih taken

theorem simplerNmsPerformNms_eq (proposals : List (Proposal F)) (iouThreshold : F) {topN : Nat}
    (some : 0 < topN) : simplerNmsPerformNms proposals iouThreshold topN =
      ((Greedy.select (Conflicts iouThreshold) [] (examined proposals)).take topN).map
        Proposal.roi := by
  rw [← Greedy.selectUpTo_eq _ _ some]
  exact performNms_eq iouThreshold topN [] proposals

end Selection

section Exact

variable {F : Type} [Field F] [LinearOrder F]

private theorem cmpFn_iff (a b : Proposal F) :
    cmpFn a b ↔ b.confidence < a.confidence ∨ a.confidence = b.confidence ∧ b.ord < a.ord := by
  unfold cmpFn
  rw [beq_iff_eq]

private theorem cmpFn_irrefl (a : Proposal F) : ¬cmpFn a a := by
  rw [cmpFn_iff]
  simp

private theorem cmpFn_trans (a b c : Proposal F) (first : cmpFn a b) (second : cmpFn b c) :
    cmpFn a c := by
  rw [cmpFn_iff] at first second ⊢
  rcases first with above | ⟨equal,later⟩
  · rcases second with below | ⟨same,-⟩
    · exact .inl (below.trans above)
    · exact .inl (same ▸ above)
  · rcases second with below | ⟨same,last⟩
    · exact .inl (equal ▸ below)
    · exact .inr ⟨equal.trans same,last.trans later⟩

private theorem cmpFn_total {proposals : List (Proposal F)}
    (distinct : (proposals.map Proposal.ord).Nodup) : StrictTotal cmpFn proposals where
  irrefl a _ := cmpFn_irrefl a
  trans a _ b _ c _ := cmpFn_trans a b c
  connected a first b second different := by
    have numbers : a.ord ≠ b.ord := fun equal =>
      different (List.inj_on_of_nodup_map distinct first second equal)
    rw [cmpFn_iff,cmpFn_iff]
    rcases lt_trichotomy a.confidence b.confidence with below | equal | above
    · exact .inr (.inl below)
    · rcases Nat.lt_or_gt_of_ne numbers with low | high
      · exact .inr (.inr ⟨equal.symm,low⟩)
      · exact .inl (.inr ⟨equal,high⟩)
    · exact .inl (.inl above)

private theorem sortAndKeepAtMostTopN_eq (sorts : Sorts F) {proposals : List (Proposal F)}
    (distinct : (proposals.map Proposal.ord).Nodup) (topN : Nat) :
    sortAndKeepAtMostTopN sorts proposals topN = (insertionSort cmpFn proposals).take topN := by
  have total := cmpFn_total distinct
  unfold sortAndKeepAtMostTopN
  split
  · exact sorts.partialSort.take_eq _ total topN
  · next few =>
    have length := (insertionSort_perm cmpFn proposals).length_eq
    rw [sorts.sort.sort_eq _ total,List.take_of_length_le (by omega)]

private theorem interArea_comm (a b : Proposal F) : interArea a b = interArea b a := by
  unfold interArea Roi.intersect
  simp only [stdMax_eq,stdMin_eq,max_comm a.roi.x0,max_comm a.roi.y0,min_comm a.roi.x1,
    min_comm a.roi.y1]

private theorem conflicts_comm (iouThreshold : F) (a b : Proposal F) :
    Conflicts iouThreshold a b ↔ Conflicts iouThreshold b a := by
  unfold Conflicts unionArea
  rw [interArea_comm a b,add_comm a.roi.area]

/-- The greedy selection from the proposals that the sort keeps. -/
structure GreedySelection (kept : List (Proposal F)) (iouThreshold : F) (topN : Nat)
    (selected : List (Proposal F)) : Prop where
  few : selected.length ≤ topN
  among : selected.Sublist kept
  positive : ∀ proposal ∈ selected, 0 < proposal.confidence
  descending : selected.Pairwise fun a b => b.confidence ≤ a.confidence
  apart : selected.Pairwise fun a b =>
    interArea a b ≤ iouThreshold * unionArea a b ∧ interArea b a ≤ iouThreshold * unionArea b a
  complete : ∀ proposal ∈ kept, 0 < proposal.confidence → proposal ∉ selected →
    (selected.length < topN ∨ ∃ last ∈ selected, cmpFn proposal last) →
      ∃ earlier ∈ selected, cmpFn earlier proposal ∧
        iouThreshold * unionArea proposal earlier < interArea proposal earlier

private theorem take_greedySelection {kept : List (Proposal F)} (ordered : kept.Pairwise cmpFn)
    (iouThreshold : F) (topN : Nat) :
    GreedySelection kept iouThreshold topN
      ((Greedy.select (Conflicts iouThreshold) [] (examined kept)).take topN) := by
  have inOrder : (examined kept).Pairwise cmpFn := ordered.filter _
  have sub : ((Greedy.select (Conflicts iouThreshold) [] (examined kept)).take topN).Sublist
      (examined kept) :=
    (List.take_sublist _ _).trans (Greedy.select_sublist _ [] (examined kept))
  constructor
  · exact List.length_take_le _ _
  · exact sub.trans List.filter_sublist
  · intro proposal member
    simpa [examined] using (List.mem_filter.mp (sub.subset member)).2
  · apply (inOrder.sublist sub).imp
    intro a b before
    rcases (cmpFn_iff a b).mp before with above | ⟨equal,-⟩
    · exact above.le
    · exact equal.ge
  · have apart := Greedy.select_independent (Conflicts iouThreshold) (examined kept)
      (List.Pairwise.nil : List.Pairwise _ [])
    apply (apart.sublist (List.take_sublist _ _)).imp
    intro a b clear
    exact ⟨not_lt.mp (mt (conflicts_comm iouThreshold a b).mp clear),not_lt.mp clear⟩
  · intro proposal member above dropped reached
    have among : proposal ∈ examined kept := List.mem_filter.mpr ⟨member,by simpa using above⟩
    exact Greedy.take_complete (Conflicts iouThreshold) cmpFn_irrefl cmpFn_trans inOrder among
      dropped reached

end Exact

/-- Four proposals with the same confidence, the second box as the first. -/
def tiedProposals : List (Proposal Rat) :=
  [⟨⟨0,0,1,1⟩,1,0⟩,⟨⟨0,0,1,1⟩,1,1⟩,⟨⟨5,5,6,6⟩,1,2⟩,⟨⟨9,9,9,9⟩,0,3⟩]

end VideoAnalytics.SimplerNms
