import VideoAnalytics.DetectorPairing
import VideoAnalytics.DetectorDelivery

/-! Failed inferences: the metadata of a failed batch stays in the queue, so that
every later delivery hands out a batch with the images of an earlier one. -/
namespace VideoAnalytics

open Batching

section Failures

variable {Mat : Type} [CvMat Mat]

/-- Whether Wait was fine, for each started request that was waited for: the
images complete a batch each b calls, and in asynchronous mode the first batch
waits for a request never started. -/
def waits (b : Nat) (async : Bool) (calls : List (ImageCall Mat)) : List Bool :=
  let fine := answers b 0 ((calls.filter fun call => call.NonEmpty).map fun call =>
    (call.info,decide (call.waited = .ok)))
  if async then fine.drop 1 else fine

def numberedInserts : Nat → List (ImageCall Mat) → List (ImageInfo (Numbered Mat) × Bool)
  | _, [] => []
  | serial, call :: rest =>
    if call.NonEmpty then
      ((call.number serial).info,decide (call.waited = .ok)) :: numberedInserts (serial + 1) rest
    else numberedInserts (serial + 1) rest

private theorem numbered_actions (calls : List (ImageCall Mat)) (serial : Nat) :
    (number serial (calls.map .insertImage)).filterMap DetectorCall.action =
      insertions (numberedInserts serial calls) := by
  induction calls generalizing serial with
  | nil => rfl
  | cons call rest ih =>
    simp only [List.map_cons,number,numberedInserts]
    by_cases image : call.NonEmpty
    · have action : DetectorCall.action (.insertImage (call.number serial)) =
          some (.insert (call.number serial).info (decide (call.waited = .ok))) := if_pos image
      rw [List.filterMap_cons_some action,ih,if_pos image]
      rfl
    · have action : DetectorCall.action (.insertImage (call.number serial)) = none := if_neg image
      rw [List.filterMap_cons_none action,ih,if_neg image]

private theorem numbered_answers (b : Nat) (calls : List (ImageCall Mat)) (serial filled : Nat) :
    answers b filled (numberedInserts serial calls) =
      answers b filled ((calls.filter fun call => call.NonEmpty).map fun call =>
        (call.info,decide (call.waited = .ok))) := by
  induction calls generalizing serial filled with
  | nil => rfl
  | cons call rest ih =>
    by_cases image : call.NonEmpty
    · simp [numberedInserts,image,answers,ih]
    · simp [numberedInserts,image,ih]

/-- Whatever Wait answers, every delivered result pairs the boxes of a batch with
its own images exactly if no result is fine after one that was not. -/
theorem failures_paired_iff (ie : InferenceEngine (Numbered Mat)) (env : LoadEnv) (b : Nat)
    (d : Detector (Numbered Mat)) (async : Bool) (calls : List (ImageCall Mat))
    (final : Detector (Numbered Mat)) (trace : List (Returned (Numbered Mat))) (positive : 1 ≤ b)
    (loaded : Detector.new.load env b = .ok (0,d)) (unstarted : ie.notStarted ≠ .ok)
    (formats : FormatsFit d.shape (number 0 (calls.map .insertImage)))
    (ran : (detector ie).run (if async then d else d.setMode false)
      (number 0 (calls.map .insertImage)) = some (final,trace)) :
    (∀ event ∈ trace,
        event.Paired ie d.shape (imagesOf (number 0 (calls.map .insertImage)))) ↔
      (waits b async calls).Pairwise fun earlier later => earlier = false → later = false := by
  obtain ⟨represents,rfl⟩ := load_represents env b d positive loaded
  have starts : Represents d.shape (if async then d else d.setMode false) (Batcher.empty async) := by
    cases async with
    | true => exact represents
    | false => exact setMode_represents false represents
  have distinct := number_distinct (calls.map .insertImage) 0
  obtain ⟨last,deliveries,inserted,paired⟩ :=
    run_paired_iff _ unstarted distinct formats async starts ran
  rw [paired]
  rw [numbered_actions] at inserted
  have items : (numberedInserts 0 calls).map Prod.fst =
      imagesOf (number 0 (calls.map .insertImage)) := by
    rw [← actions_item,numbered_actions]
    simp [insertions,List.filterMap_map,Function.comp_def,Action.item]
  have inStep : InStep d.shape.numBatch (Batcher.empty async : Batcher (ImageInfo (Numbered Mat))) :=
    inStep_empty async positive
  have fresh : ((Batcher.empty async).queue ++ (numberedInserts 0 calls).map Prod.fst).Nodup := by
    rw [items]
    exact List.Nodup.of_map _ distinct
  rw [matching_iff _ inStep fresh inserted]
  have asked : (Batcher.empty async).asked d.shape.numBatch (numberedInserts 0 calls) =
      waits d.numBatch async calls := by
    simp only [Batcher.asked,Batcher.empty,waits,List.length_nil,numbered_answers,and_true]
    rfl
  rw [asked]

end Failures

def failedThenFine : List (ImageCall Size) :=
  [⟨⟨300,300⟩,[],0,1,0,.error (-1)⟩,⟨⟨300,300⟩,[],0,2,0,.ok⟩]

theorem failures_paired_iff_failed_then_fine : ∃ d final trace,
    Detector.new.load ssdLoaded 1 = .ok (0,d) ∧
      (detector (nothingFound (Numbered Size))).run (if false then d else d.setMode false)
        (number 0 (failedThenFine.map .insertImage)) = some (final,trace) ∧
      ((∀ event ∈ trace, event.Paired (nothingFound (Numbered Size)) d.shape
          (imagesOf (number 0 (failedThenFine.map .insertImage)))) ↔
        (waits 1 false failedThenFine).Pairwise fun earlier later =>
          earlier = false → later = false) :=
  ⟨_,_,_,rfl,rfl,failures_paired_iff (nothingFound (Numbered Size)) ssdLoaded 1 _ false
    failedThenFine _ _ (by decide) rfl (by decide) (by decide) rfl⟩

theorem failed_images_reused : ∃ d final trace,
    Detector.new.load ssdLoaded 1 = .ok (0,d) ∧
      (detector (nothingFound (Numbered Size))).run (d.setMode false)
        (number 0 (failedThenFine.map .insertImage)) = some (final,trace) ∧
      ¬∀ event ∈ trace, event.Paired (nothingFound (Numbered Size)) d.shape
        (imagesOf (number 0 (failedThenFine.map .insertImage))) := by
  refine ⟨_,_,_,rfl,rfl,?_⟩
  intro paired
  have same := (paired _ (.tail _ (.head _))).blob_eq rfl
  change [some (⟨1,⟨300,300⟩⟩ : Numbered Size)] = [some ⟨0,⟨300,300⟩⟩] at same
  exact absurd same (by decide)

end VideoAnalytics
