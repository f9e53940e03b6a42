import VideoAnalytics.PipelineMetadata
import VideoAnalytics.PipelineResults

/-! The index of each_frame, an array for six channels, or for one in the build
with the tracker, while main starts as many channels as the flag c says. -/
namespace VideoAnalytics.Pipeline

section Statistics

variable {Mat : Type} [CvMat Mat] {cfg : Config} {ie : Nat → InferenceEngine (Picture Mat)}
  {w next : World Mat} {action : Action Mat} {events : List (Event Mat)}

private theorem addFrame_length (eachFrame : List Nat) (inputid : Int) :
    (addFrame eachFrame inputid).length = eachFrame.length := by
  unfold addFrame
  split
  · exact List.length_modify ..
  · rfl

private theorem step_eachFrame (stepped : Stepped cfg ie w action next events) :
    next.eachFrame.length = w.eachFrame.length := by
  cases stepped with
  | count who dpipe object objects here counts => exact addFrame_length w.eachFrame object.inputid
  | _ => rfl

private theorem step_uncounted (tracked : cfg.testKcf = true) (unbalanced : Unbalanced w)
    (stepped : Stepped cfg ie w action next events) (inputid : Int) : .counted inputid ∉ events := by
  have scheduler : ∀ who, action.actor = some who → who = .scheduler :=
    fun who acts => unbalanced_actor unbalanced stepped acts
  cases stepped with
  | channel nChannel acted after emitted posted inside stepped =>
    cases stepped with
    | store buffer here => simp
    | _ => exact List.not_mem_nil
  | count who dpipe object objects here counts =>
    exact absurd ⟨scheduler who rfl,tracked⟩ counts
  | _ => simp

private theorem run_uncounted {detectors : Nat → Detector (Picture Mat)} {blank : Mat}
    {actions : List (Action Mat)} {trace : List (Event Mat)} (tracked : cfg.testKcf = true)
    (plain : cfg.workloadBalance = false)
    (ran : (pipeline cfg ie).run (start cfg detectors blank) actions = some (w,trace))
    (inputid : Int) : .counted inputid ∉ trace := by
  have kept : Unbalanced w ∧ .counted inputid ∉ trace := by
    refine Machine.run_invariant (fun (state : World Mat) (seen : List (Event Mat)) =>
      Unbalanced state ∧ .counted inputid ∉ seen) ?_ ?_ ran
    · intro state seen action next emitted held stepped
      have spec := step_stepped stepped
      refine ⟨step_unbalanced plain held.1 spec,?_⟩
      rw [List.mem_append,not_or]
      exact ⟨held.2,step_uncounted tracked held.1 spec inputid⟩
    · exact ⟨start_unbalanced cfg detectors blank,List.not_mem_nil⟩
  exact kept.2

/-- As long as only frames of the channels that each_frame is for are handed to
InsertImage, or in the build that counts none, every input id that is counted is an
index of the array. -/
theorem frames_counted_within (cfg : Config) (ie : Nat → InferenceEngine (Picture Mat))
    (detectors : Nat → Detector (Picture Mat)) (blank : Mat) (actions : List (Action Mat))
    (w : World Mat) (trace : List (Event Mat))
    (configured : ∀ number, Configured cfg (detectors number))
    (enough : (pipeline cfg ie).Along (InsertsBelow cfg.inputNum) (start cfg detectors blank)
        actions ∨ cfg.testKcf = true ∧ cfg.workloadBalance = false)
    (ran : (pipeline cfg ie).run (start cfg detectors blank) actions = some (w,trace)) :
    ∀ inputid : Int, .counted inputid ∈ trace → 0 ≤ inputid ∧ inputid < w.eachFrame.length := by
  have length : w.eachFrame.length = cfg.inputNum := by
    refine Machine.run_invariant (fun (state : World Mat) _ =>
      state.eachFrame.length = cfg.inputNum) ?_ ?_ ran
    · intro state _ action next emitted before stepped
      rw [step_eachFrame (step_stepped stepped),before]
    · simp [start]
  intro inputid counted
  rcases enough with first | ⟨tracked,plain⟩
  · obtain ⟨nChannel,inside,index⟩ := (run_carries configured first ran).2 _ counted
    rw [length,index]
    omega
  · exact absurd counted (run_uncounted tracked plain ran inputid)

end Statistics

section Samples

theorem ssdDetector_configured (cfg : Config) (batch : Nat) (untracked : cfg.testKcf = false) :
    Configured cfg (ssdDetector batch) := by
  refine ⟨ssdLoaded,batch,ssdDetector batch,rfl,?_⟩
  rw [untracked]
  rfl

def plainChannels (c : Nat) : Config := ⟨false,false,1,100,c⟩

/-- A round of the scheduler, in which it counts a result for each frame. -/
def countingRound (c : Nat) : List (Action Size) :=
  (List.range c).flatMap (fun _ => takeFrame ++ insertFrame ++ List.replicate 2 (.consumer .scheduler))

def firstFrame : List (Action Size) :=
  .consumer .scheduler :: takeFrame ++ insertFrame ++ [.consumer .scheduler]

theorem frames_counted_within_two : ∃ w trace,
    (pipeline (plainChannels 2) ssdEngines).run
      (start (plainChannels 2) (fun _ => ssdDetector 1) ⟨0,0⟩)
      (storeFrame 0 ++ storeFrame 1 ++ firstFrame ++ countingRound 1) = some (w,trace) ∧
    .counted 0 ∈ trace ∧
    ∀ inputid : Int, .counted inputid ∈ trace → 0 ≤ inputid ∧ inputid < w.eachFrame.length := by
  have shown : ((pipeline (plainChannels 2) ssdEngines).run
      (start (plainChannels 2) (fun _ => ssdDetector 1) ⟨0,0⟩)
      (storeFrame 0 ++ storeFrame 1 ++ firstFrame ++ countingRound 1)).map
        (fun out => decide (.counted 0 ∈ out.2)) = some true := by
    decide +kernel
  obtain ⟨⟨w,trace⟩,ran,counted⟩ := Option.map_eq_some_iff.mp shown
  exact ⟨w,trace,ran,of_decide_eq_true counted,frames_counted_within (plainChannels 2) ssdEngines
    (fun _ => ssdDetector 1) ⟨0,0⟩ _ w trace (fun _ => ssdDetector_configured _ 1 rfl)
    (.inl (along_inserts _ _ _ (by decide))) ran⟩

/-- A frame of each of seven channels and one more of the first, one after the other. -/
def sevenChannels : List (Action Size) :=
  (List.range 7).flatMap storeFrame ++ storeFrame 0 ++ firstFrame ++ countingRound 6 ++
    List.replicate 2 (.consumer .scheduler) ++ countingRound 1

theorem seventh_channel_counted : accepts false 7 = true ∧ 7 ≤ numOfChannels ∧ ∃ w trace,
    (pipeline (plainChannels 7) ssdEngines).run
      (start (plainChannels 7) (fun _ => ssdDetector 1) ⟨0,0⟩) sevenChannels = some (w,trace) ∧
    ¬∀ inputid : Int, .counted inputid ∈ trace → 0 ≤ inputid ∧ inputid < w.eachFrame.length := by
  refine ⟨rfl,by decide,?_⟩
  have shown : ((pipeline (plainChannels 7) ssdEngines).run
      (start (plainChannels 7) (fun _ => ssdDetector 1) ⟨0,0⟩) sevenChannels).map
        (fun out => (decide (.counted 6 ∈ out.2),out.1.eachFrame.length)) = some (true,6) := by
    decide +kernel
  obtain ⟨⟨w,trace⟩,ran,same⟩ := Option.map_eq_some_iff.mp shown
  obtain ⟨counted,length⟩ := Prod.mk.inj same
  refine ⟨w,trace,ran,?_⟩
  intro within
  have small := (within 6 (of_decide_eq_true counted)).2
  change w.eachFrame.length = 6 at length
  rw [length] at small
  exact absurd small (by decide)

end Samples

end VideoAnalytics.Pipeline
