import VideoAnalytics.DetectorPairing
import VideoAnalytics.DetectorDelivery
import VideoAnalytics.Library.BatchingSwitch

/-! Switches of the mode: SetMode leaves the requests as they are, so that the
first batch after a switch to asynchronous mode collects an old result. -/
namespace VideoAnalytics

open Batching

section Modes

variable {Mat : Type} [CvMat Mat]

def DetectorCall.Fine : DetectorCall Mat → Prop
  | .insertImage call => call.waited = .ok
  | .setMode _ => True

instance (call : DetectorCall Mat) : Decidable call.Fine := by
  cases call <;> unfold DetectorCall.Fine <;> infer_instance

/-- The stretches between SetMode calls: whether each is asynchronous, and how
many images it inserts. Load begins the first. -/
def modeStretches (calls : List (DetectorCall Mat)) : List (Bool × Nat) :=
  let parts := stretches (calls.filterMap DetectorCall.action)
  (true,parts.1) :: parts.2

private theorem number_stretches (calls : List (DetectorCall Mat)) (serial : Nat) :
    stretches ((number serial calls).filterMap DetectorCall.action) =
      stretches (calls.filterMap DetectorCall.action) := by
  induction calls generalizing serial with
  | nil => rfl
  | cons call rest ih =>
    cases call with
    | setMode isSync =>
      have numbered : DetectorCall.action (.setMode isSync : DetectorCall (Numbered Mat)) =
          some (.switch isSync) := rfl
      have plain : DetectorCall.action (.setMode isSync : DetectorCall Mat) =
          some (.switch isSync) := rfl
      simp only [number]
      rw [List.filterMap_cons_some numbered,List.filterMap_cons_some plain]
      simp only [stretches,ih]
    | insertImage call =>
      simp only [number]
      by_cases image : call.NonEmpty
      · have numbered : DetectorCall.action (.insertImage (call.number serial)) =
            some (.insert (call.number serial).info (decide (call.waited = .ok))) := if_pos image
        have plain : DetectorCall.action (.insertImage call) =
            some (.insert call.info (decide (call.waited = .ok))) := if_pos image
        rw [List.filterMap_cons_some numbered,List.filterMap_cons_some plain]
        simp only [stretches,ih]
      · have numbered : DetectorCall.action (.insertImage (call.number serial)) = none :=
          if_neg image
        have plain : DetectorCall.action (.insertImage call) = none := if_neg image
        rw [List.filterMap_cons_none numbered,List.filterMap_cons_none plain,ih]

omit [CvMat Mat] in
private theorem number_fine (calls : List (DetectorCall Mat)) (serial : Nat)
    (fine : ∀ call ∈ calls, call.Fine) : ∀ call ∈ number serial calls, call.Fine := by
  induction calls generalizing serial with
  | nil => simp [number]
  | cons call rest ih =>
    have rest_fine := ih (serial + 1) fun call member => fine call (.tail _ member)
    have here := fine call List.mem_cons_self
    intro other member
    cases call with
    | setMode isSync =>
      rcases List.mem_cons.mp member with rfl | later
      · trivial
      · exact rest_fine other later
    | insertImage call =>
      rcases List.mem_cons.mp member with rfl | later
      · exact here
      · exact rest_fine other later

private theorem actions_fine (calls : List (DetectorCall Mat)) (fine : ∀ call ∈ calls, call.Fine) :
    ∀ action ∈ calls.filterMap DetectorCall.action, action.fine = true := by
  intro action member
  obtain ⟨call,inside,same⟩ := List.mem_filterMap.mp member
  have here := fine call inside
  cases call with
  | setMode isSync =>
    obtain rfl := Option.some.inj same
    rfl
  | insertImage call =>
    simp only [DetectorCall.action] at same
    split at same
    · obtain rfl := Option.some.inj same
      exact decide_eq_true here
    · contradiction

private theorem safe_empty_iff {α : Type} (size : Nat) (actions : List (Action α)) :
    Safe size (Batcher.empty true) actions ↔
      ((true,(stretches actions).1) :: (stretches actions).2).Pairwise (Compatible size) := by
  rw [List.pairwise_cons]
  constructor
  · intro safe
    refine ⟨?_,safe.pairs⟩
    intro stretch member mode both
    have small := safe.later (.inr (by simpa [Batcher.empty] using both.1)) stretch member mode
    omega
  · intro pairs
    refine ⟨?_,pairs.2⟩
    intro completed stretch member mode
    rcases completed with started | full
    · exact absurd rfl started
    · have apart := pairs.1 stretch member mode
      simp only [Batcher.empty,List.length_nil,Nat.zero_add] at full
      by_contra large
      exact apart ⟨full,Nat.not_lt.mp large⟩

/-- In every history without failures each delivered result pairs the boxes of a
batch with its own images exactly if, of any two stretches between SetMode calls
that each complete a batch, the later one is synchronous. -/
theorem modes_paired_iff (ie : InferenceEngine (Numbered Mat)) (env : LoadEnv) (b : Nat)
    (d : Detector (Numbered Mat)) (calls : List (DetectorCall Mat))
    (final : Detector (Numbered Mat)) (trace : List (Returned (Numbered Mat))) (positive : 1 ≤ b)
    (loaded : Detector.new.load env b = .ok (0,d)) (unstarted : ie.notStarted ≠ .ok)
    (fine : ∀ call ∈ calls, call.Fine) (formats : FormatsFit d.shape (number 0 calls))
    (ran : (detector ie).run d (number 0 calls) = some (final,trace)) :
    (∀ event ∈ trace, event.Paired ie d.shape (imagesOf (number 0 calls))) ↔
      (modeStretches calls).Pairwise (Compatible b) := by
  obtain ⟨represents,rfl⟩ := load_represents env b d positive loaded
  have distinct := number_distinct calls 0
  obtain ⟨last,deliveries,inserted,paired⟩ :=
    run_paired_iff _ unstarted distinct formats true represents ran
  have fresh : Apart (Batcher.empty true : Batcher (ImageInfo (Numbered Mat)))
      (((number 0 calls).filterMap DetectorCall.action).filterMap Action.item) := by
    refine ⟨?_,by simp [Batcher.empty]⟩
    rw [actions_item]
    exact List.Nodup.of_map _ distinct
  have all_fine := actions_fine _ (number_fine calls 0 fine)
  have safe := (safe_matching_iff _ positive all_fine fresh inserted).1 (inStep_empty true positive)
  rw [paired,safe,safe_empty_iff,number_stretches]
  rfl

end Modes

/-- One image in the mode of Load, and one after SetMode(true). -/
def switchedBack : List (DetectorCall Size) :=
  [.insertImage ⟨⟨300,300⟩,[],0,1,0,.ok⟩,.setMode true,.insertImage ⟨⟨300,300⟩,[],0,2,0,.ok⟩]

theorem modes_paired_iff_switched_back : ∃ d final trace,
    Detector.new.load ssdLoaded 1 = .ok (0,d) ∧
      (detector (nothingFound (Numbered Size))).run d (number 0 switchedBack) =
        some (final,trace) ∧
      ((∀ event ∈ trace, event.Paired (nothingFound (Numbered Size)) d.shape
          (imagesOf (number 0 switchedBack))) ↔
        (modeStretches switchedBack).Pairwise (Compatible 1)) :=
  ⟨_,_,_,rfl,rfl,modes_paired_iff (nothingFound (Numbered Size)) ssdLoaded 1 _ switchedBack _ _
    (by decide) rfl (by decide) (by decide) (by decide) rfl⟩

theorem old_result_collected : ∃ d final trace,
    Detector.new.load ssdLoaded 1 = .ok (0,d) ∧
      (detector (nothingFound (Numbered Size))).run d (number 0 switchedBack) =
        some (final,trace) ∧
      ¬∀ event ∈ trace, event.Paired (nothingFound (Numbered Size)) d.shape
        (imagesOf (number 0 switchedBack)) := by
  refine ⟨_,_,_,rfl,rfl,?_⟩
  intro paired
  have same := (paired _ (.tail _ (.head _))).blob_eq rfl
  change [some (⟨0,⟨300,300⟩⟩ : Numbered Size)] = [some ⟨2,⟨300,300⟩⟩] at same
  exact absurd same (by decide)

end VideoAnalytics
