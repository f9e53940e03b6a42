import VideoAnalytics.PipelineMetadata
import VideoAnalytics.PipelineResults

/-! The queue that a detection is pushed to in the build with the tracker. The
scheduler leaves the channelid of InsertImage at its default, and then takes it
for the channel. -/
namespace VideoAnalytics.Pipeline

section Routing

variable {Mat : Type}

def Event.deliveredObjects : Event Mat → List (Result Mat)
  | .delivered objects => objects
  | _ => []

def Event.pushedObject : Event Mat → Option (Int × Result Mat)
  | .pushed channelid object => some (channelid,object)
  | _ => none

def Event.postedChannel : Event Mat → Option Int
  | .posted channelid => some channelid
  | _ => none

def deliveredOf (trace : List (Event Mat)) : List (Result Mat) :=
  trace.flatMap Event.deliveredObjects

def pushedOf (trace : List (Event Mat)) : List (Int × Result Mat) :=
  trace.filterMap Event.pushedObject

def postedOf (trace : List (Event Mat)) : List Int := trace.filterMap Event.postedChannel

@[simp] theorem deliveredOf_append (first second : List (Event Mat)) :
    deliveredOf (first ++ second) = deliveredOf first ++ deliveredOf second :=
  List.flatMap_append

@[simp] theorem pushedOf_append (first second : List (Event Mat)) :
    pushedOf (first ++ second) = pushedOf first ++ pushedOf second :=
  List.filterMap_append

@[simp] theorem postedOf_append (first second : List (Event Mat)) :
    postedOf (first ++ second) = postedOf first ++ postedOf second :=
  List.filterMap_append

/-- The objects of the batch at hand that are still to be pushed. -/
def ConsumerPc.unpushed : ConsumerPc Mat → List (Result Mat)
  | .deliver _ objects => objects
  | .postResult _ _ objects => objects
  | _ => []

def ConsumerPc.unposted : ConsumerPc Mat → List (Result Mat)
  | .deliver _ objects => objects
  | .postResult _ object objects => object :: objects
  | _ => []

/-- Every delivered object is pushed once, in order, to the queue with this index,
and the semaphore with this index is posted, but for the rest of the last batch. -/
structure Accounted (index : Result Mat → Int) (w : World Mat) (trace : List (Event Mat)) :
    Prop where
  pushes : pushedOf trace ++
      (w.consumers .scheduler).unpushed.map (fun object => (index object,object)) =
    (deliveredOf trace).map fun object => (index object,object)
  posts : postedOf trace ++ (w.consumers .scheduler).unposted.map index =
    (deliveredOf trace).map index

/-- The object of every picture goes to the queue of the picture's channel. -/
def Routed (w : World Mat) (trace : List (Event Mat)) : Prop :=
  Accounted (fun object => object.orgimg.channel) w trace

private theorem accounted_congr {index other : Result Mat → Int} {w : World Mat}
    {trace : List (Event Mat)} (accounted : Accounted index w trace)
    (delivered : ∀ object ∈ deliveredOf trace, index object = other object)
    (unposted : ∀ object ∈ (w.consumers .scheduler).unposted, index object = other object) :
    Accounted other w trace := by
  have unpushed : ∀ object ∈ (w.consumers .scheduler).unpushed, index object = other object := by
    intro object member
    apply unposted
    generalize w.consumers .scheduler = pc at member
    cases pc with
    | deliver dpipe objects => exact member
    | postResult dpipe front objects => exact .tail _ member
    | _ => contradiction
  have pairs : ∀ objects : List (Result Mat), (∀ object ∈ objects, index object = other object) →
      objects.map (fun object => (index object,object)) =
        objects.map fun object => (other object,object) := by
    intro objects same
    apply List.map_congr_left
    intro object member
    rw [same object member]
  refine ⟨?_,?_⟩
  · rw [← pairs _ unpushed,← pairs _ delivered]
    exact accounted.pushes
  · rw [← List.map_congr_left unposted,← List.map_congr_left delivered]
    exact accounted.posts

section Steps

variable {w next : World Mat} {trace events : List (Event Mat)}

private theorem accounted_step {index : Result Mat → Int} (accounted : Accounted index w trace)
    (pushes : pushedOf events ++
        (next.consumers .scheduler).unpushed.map (fun object => (index object,object)) =
      ((w.consumers .scheduler).unpushed ++ deliveredOf events).map
        fun object => (index object,object))
    (posts : postedOf events ++ (next.consumers .scheduler).unposted.map index =
      ((w.consumers .scheduler).unposted ++ deliveredOf events).map index) :
    Accounted index next (trace ++ events) := by
  refine ⟨?_,?_⟩
  · rw [pushedOf_append,List.append_assoc,pushes,List.map_append,← List.append_assoc,
      accounted.pushes,← List.map_append,deliveredOf_append]
  · rw [postedOf_append,List.append_assoc,posts,List.map_append,← List.append_assoc,
      accounted.posts,← List.map_append,deliveredOf_append]

private theorem accounted_same {index : Result Mat → Int} (accounted : Accounted index w trace)
    (same : next.consumers = w.consumers) (unpushed : pushedOf events = [])
    (unposted : postedOf events = []) (undelivered : deliveredOf events = []) :
    Accounted index next (trace ++ events) := by
  apply accounted_step accounted
  · rw [same,unpushed,undelivered,List.append_nil,List.nil_append]
  · rw [same,unposted,undelivered,List.append_nil,List.nil_append]

private theorem accounted_goto {index : Result Mat → Int} {rest : World Mat} {pc : ConsumerPc Mat}
    (accounted : Accounted index w trace) (before : (w.consumers .scheduler).unposted = [])
    (empty : (w.consumers .scheduler).unpushed = []) (after : pc.unposted = [])
    (none : pc.unpushed = []) : Accounted index (rest.goto .scheduler pc) (trace ++ []) := by
  apply accounted_step accounted
  · rw [goto_self,empty,none]
    rfl
  · rw [goto_self,before,after]
    rfl

variable [CvMat Mat] {cfg : Config} {ie : Nat → InferenceEngine (Picture Mat)}
  {action : Action Mat}

private theorem step_accounted (tracked : cfg.testKcf = true) (unbalanced : Unbalanced w)
    (accounted : Accounted (fun object => object.channelid) w trace)
    (stepped : Stepped cfg ie w action next events) :
    Accounted (fun object => object.channelid) next (trace ++ events) := by
  have scheduler : ∀ who, action.actor = some who → who = .scheduler :=
    fun who acts => unbalanced_actor unbalanced stepped acts
  cases stepped with
  | channel nChannel acted after emitted posted inside stepped =>
    cases stepped with
    | store buffer here => exact accounted_same accounted rfl rfl rfl rfl
    | _ => exact accounted_same accounted rfl rfl rfl rfl
  | insertImage who waited dpipe buffer frame channel frameno detector objects faceret here returns =>
    cases scheduler who rfl
    apply accounted_step accounted
    · rw [here]
      simp [World.inserted,ConsumerPc.unpushed,pushedOf,deliveredOf,Event.pushedObject,
        Event.deliveredObjects]
    · rw [here]
      simp [World.inserted,ConsumerPc.unposted,postedOf,deliveredOf,Event.postedChannel,
        Event.deliveredObjects]
  | push who dpipe object objects here counted =>
    cases scheduler who rfl
    apply accounted_step accounted
    · rw [here]
      simp [World.push,ConsumerPc.unpushed,pushedOf,deliveredOf,Event.pushedObject,
        Event.deliveredObjects]
    · rw [here]
      simp [World.push,ConsumerPc.unposted,postedOf,deliveredOf,Event.postedChannel,
        Event.deliveredObjects]
  | count who dpipe object objects here counts =>
    exact absurd ⟨scheduler who rfl,tracked⟩ counts
  | postResult who dpipe object objects here =>
    cases scheduler who rfl
    apply accounted_step accounted
    · rw [here]
      simp [World.postResult,ConsumerPc.unpushed,pushedOf,deliveredOf,Event.pushedObject,
        Event.deliveredObjects]
    · rw [here]
      simp [World.postResult,ConsumerPc.unposted,postedOf,deliveredOf,Event.postedChannel,
        Event.deliveredObjects]
  | tracker nChannel token => exact accounted_same accounted rfl rfl rfl rfl
  | wakeInfer nChannel here token =>
    have asleep := scheduler _ rfl
    contradiction
  | load who dpipe buffer lists here inside loaded =>
    cases scheduler who rfl
    refine accounted_goto accounted (by rw [here]; rfl) (by rw [here]; rfl) ?_ ?_
    · split <;> rfl
    · split <;> rfl
  | _ =>
    cases scheduler _ rfl
    apply accounted_goto accounted
    · simp [*,ConsumerPc.unposted]
    · simp [*,ConsumerPc.unpushed]
    · rfl
    · rfl

end Steps

private theorem routed_pushed {w : World Mat} {trace : List (Event Mat)} (routed : Routed w trace)
    (channelid : Int) (object : Result Mat) (pushed : (channelid,object) ∈ pushedOf trace) :
    channelid = object.orgimg.channel := by
  have delivered : (channelid,object) ∈ (deliveredOf trace).map fun object =>
      (object.orgimg.channel,object) := by
    rw [← routed.pushes]
    exact List.mem_append_left _ pushed
  obtain ⟨other,-,same⟩ := List.mem_map.mp delivered
  cases same
  rfl

/-- As long as only frames of channel 0 are handed to InsertImage, every result
goes to the queue and the semaphore of its picture's channel, once and in order. -/
theorem results_routed [CvMat Mat] (cfg : Config) (ie : Nat → InferenceEngine (Picture Mat))
    (detectors : Nat → Detector (Picture Mat)) (blank : Mat) (actions : List (Action Mat))
    (w : World Mat) (trace : List (Event Mat)) (tracked : cfg.testKcf = true)
    (plain : cfg.workloadBalance = false) (configured : ∀ number, Configured cfg (detectors number))
    (first : (pipeline cfg ie).Along (InsertsBelow 1) (start cfg detectors blank) actions)
    (ran : (pipeline cfg ie).run (start cfg detectors blank) actions = some (w,trace)) :
    Routed w trace := by
  have accounted : Unbalanced w ∧ Accounted (fun object => object.channelid) w trace := by
    refine Machine.run_invariant (fun (state : World Mat) (seen : List (Event Mat)) =>
      Unbalanced state ∧ Accounted (fun object => object.channelid) state seen) ?_ ?_ ran
    · intro state seen action next emitted held stepped
      have spec := step_stepped stepped
      exact ⟨step_unbalanced plain held.1 spec,step_accounted tracked held.1 held.2 spec⟩
    · exact ⟨start_unbalanced cfg detectors blank,⟨rfl,rfl⟩⟩
  obtain ⟨carrying,carries⟩ := run_carries configured first ran
  have same_channel : ∀ object : Result Mat, object.Carries (carried 1) →
      object.channelid = object.orgimg.channel := by
    intro object carried
    obtain ⟨nChannel,inside,-,own,default⟩ := carried
    omega
  apply accounted_congr accounted.2
  · intro object member
    obtain ⟨event,shown,delivered⟩ := List.mem_flatMap.mp member
    have all := carries event shown
    cases event with
    | delivered objects => exact same_channel object (all object delivered)
    | _ => contradiction
  · intro object member
    have all := carrying.consumers .scheduler
    generalize w.consumers .scheduler = pc at member all
    cases pc with
    | deliver dpipe objects => exact same_channel object (all object member)
    | postResult dpipe front objects => exact same_channel object (all object member)
    | _ => contradiction

end Routing

section Samples

/-- The scheduler between two frames of one result each: push, post and resume. -/
def pushResult : List (Action Size) := List.replicate 3 (.consumer .scheduler)

def trackerDetector : Detector (Picture Size) := (ssdDetector 1).setMode false

private theorem trackerDetector_configured (cfg : Config) (tracked : cfg.testKcf = true) :
    Configured cfg trackerDetector := by
  refine ⟨ssdLoaded,1,ssdDetector 1,rfl,?_⟩
  rw [tracked]
  rfl

def trackedChannels (c : Nat) : Config := ⟨true,false,1,100,c⟩

theorem results_routed_once : ∃ w trace,
    (pipeline (trackedChannels 1) ssdEngines).run
      (start (trackedChannels 1) (fun _ => trackerDetector) ⟨0,0⟩)
      (storeFrame 0 ++ .consumer .scheduler :: takeFrame ++ insertFrame ++ pushResult) =
        some (w,trace) ∧
    (pushedOf trace).map Prod.fst = [0] ∧ Routed w trace := by
  have shown : ((pipeline (trackedChannels 1) ssdEngines).run
      (start (trackedChannels 1) (fun _ => trackerDetector) ⟨0,0⟩)
      (storeFrame 0 ++ .consumer .scheduler :: takeFrame ++ insertFrame ++ pushResult)).map
        (fun out => (pushedOf out.2).map Prod.fst) = some [0] := by
    decide +kernel
  obtain ⟨⟨w,trace⟩,ran,same⟩ := Option.map_eq_some_iff.mp shown
  exact ⟨w,trace,ran,same,results_routed (trackedChannels 1) ssdEngines (fun _ => trackerDetector)
    ⟨0,0⟩ _ w trace rfl rfl (fun _ => trackerDetector_configured _ rfl)
    (along_inserts _ _ _ (by decide)) ran⟩

def twoTracked : List (Action Size) :=
  storeFrame 0 ++ storeFrame 1 ++ .consumer .scheduler :: takeFrame ++ insertFrame ++ pushResult ++
    takeFrame ++ insertFrame ++ pushResult

theorem result_misrouted : ∃ w trace,
    (pipeline (trackedChannels 2) ssdEngines).run
      (start (trackedChannels 2) (fun _ => trackerDetector) ⟨0,0⟩) twoTracked = some (w,trace) ∧
    ¬Routed w trace := by
  have shown : ((pipeline (trackedChannels 2) ssdEngines).run
      (start (trackedChannels 2) (fun _ => trackerDetector) ⟨0,0⟩) twoTracked).map
        (fun out => (pushedOf out.2).map fun pushed => (pushed.1,pushed.2.orgimg.channel)) =
          some [(0,0),(0,1)] := by
    decide +kernel
  obtain ⟨⟨w,trace⟩,ran,same⟩ := Option.map_eq_some_iff.mp shown
  refine ⟨w,trace,ran,?_⟩
  intro routed
  have wrong : ((0 : Int),(1 : Int)) ∈ (pushedOf trace).map fun pushed =>
      (pushed.1,pushed.2.orgimg.channel) := by
    change (pushedOf trace).map _ = _ at same
    rw [same]
    decide
  obtain ⟨⟨channelid,object⟩,pushed,values⟩ := List.mem_map.mp wrong
  have own := routed_pushed routed channelid object pushed
  obtain ⟨queue,channel⟩ : channelid = 0 ∧ object.orgimg.channel = 1 := Prod.mk.inj values
  omega

end Samples

end VideoAnalytics.Pipeline
