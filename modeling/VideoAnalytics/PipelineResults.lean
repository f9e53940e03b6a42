import VideoAnalytics.PipelineOwnership
import VideoAnalytics.DetectorMetadata

/-! The way of a channel's number from the decoder through a buffer, the metadata
queue and a batch into the results, and the threads of the build without
workload balance. -/
namespace VideoAnalytics.Pipeline

open Function (update)

section Results

variable {Mat : Type}

/-- The input id is the channel of the picture, one of the first channels, and the
channel id is the default of InsertImage. -/
def carried (limit : Nat) (inputid channelid : Int) (orgimg : Picture Mat) : Prop :=
  ∃ nChannel : Nat, nChannel < limit ∧ inputid = nChannel ∧ orgimg.channel = nChannel ∧
    channelid = 0

/-- Only frames of the first channels are handed to InsertImage. -/
def InsertsBelow (limit : Nat) (w : World Mat) : Action Mat → Prop
  | .insertImage who _ => ∀ dpipe buffer frame channel frameno,
      w.consumers who = .insert dpipe buffer frame channel frameno → dpipe < limit
  | _ => True

def ConsumerPc.Carries (limit : Nat) : ConsumerPc Mat → Prop
  | .deliver _ objects => ∀ object ∈ objects, object.Carries (carried limit)
  | .postResult _ object objects => ∀ other ∈ object :: objects, other.Carries (carried limit)
  | _ => True

def Event.Carries (limit : Nat) : Event Mat → Prop
  | .stored nChannel frame => frame.channel = nChannel
  | .delivered objects => ∀ object ∈ objects, object.Carries (carried limit)
  | .counted inputid => ∃ nChannel : Nat, nChannel < limit ∧ inputid = nChannel
  | _ => True

structure Carrying (limit : Nat) (w : World Mat) : Prop where
  infos : ∀ number, ∀ info ∈ (w.gDetector number).imginfoque, info.Carries (carried limit)
  consumers : ∀ who, (w.consumers who).Carries limit

theorem configured_queue {cfg : Config} {d : Detector (Picture Mat)}
    (configured : Configured cfg d) : d.imginfoque = [] := by
  obtain ⟨env,batch,loaded,returns,same⟩ := configured
  rw [same]
  split
  · rfl
  · exact load_queue returns

private theorem start_carrying {cfg : Config} (limit : Nat)
    {detectors : Nat → Detector (Picture Mat)}
    (blank : Mat) (configured : ∀ number, Configured cfg (detectors number)) :
    Carrying limit (start cfg detectors blank) := by
  refine ⟨?_,fun _ => trivial⟩
  intro number info member
  change info ∈ (detectors number).imginfoque at member
  rw [configured_queue (configured number)] at member
  contradiction

section Steps

variable {limit : Nat} {w rest : World Mat} {who : Consumer} {pc : ConsumerPc Mat}

private theorem goto_carrying (carrying : Carrying limit w)
    (detectors : rest.gDetector = w.gDetector)
    (consumers : rest.consumers = w.consumers) (here : pc.Carries limit) :
    Carrying limit (rest.goto who pc) := by
  refine ⟨?_,?_⟩
  · intro number
    change ∀ info ∈ (rest.gDetector number).imginfoque, info.Carries (carried limit)
    rw [detectors]
    exact carrying.infos number
  · intro other
    by_cases same : other = who
    · rw [same,goto_self]
      exact here
    · rw [goto_of_ne rest pc same,consumers]
      exact carrying.consumers other

private theorem handled_carries {objects : List (Result Mat)} {faceret : InsertImgStatus}
    (all : faceret = .get ∨ faceret = .processed →
      ∀ object ∈ objects, object.Carries (carried limit)) :
    ∀ object ∈ handled faceret objects, object.Carries (carried limit) := by
  unfold handled
  split
  · next shown => exact all shown
  · exact List.forall_mem_nil _

variable [CvMat Mat] {cfg : Config} {ie : Nat → InferenceEngine (Picture Mat)}
  {pool : List (Nat × Nat)} {next : World Mat} {action : Action Mat} {events : List (Event Mat)}

private theorem insertImage_carrying {waited : StatusCode} {dpipe buffer : Nat}
    {frame : Picture Mat}
    {channel frameno : Int} {detector : Detector (Picture Mat)} {objects : List (Result Mat)}
    {faceret : InsertImgStatus} (sound : Sound pool w) (carrying : Carrying limit w)
    (inserts : InsertsBelow limit w (.insertImage who waited))
    (here : w.consumers who = .insert dpipe buffer frame (some channel) (some frameno))
    (returns : (w.gDetector who.instance).insertImage (ie who.instance) waited frame
      (w.passed who) channel frameno 0 = .ok (detector,objects,faceret)) :
    Carrying limit (w.inserted who dpipe detector objects faceret) ∧
      ∀ object ∈ handled faceret objects, object.Carries (carried limit) := by
  have inside := inserts _ _ _ _ _ here
  have copied := sound.copied who
  rw [here] at copied
  obtain ⟨own,-,read⟩ := copied
  have carries := insertImage_carries (carrying.infos who.instance)
    ⟨dpipe,inside,read,own,rfl⟩ returns
  have shown := handled_carries carries.2
  refine ⟨?_,shown⟩
  have updated : Carrying limit {w with
      gDetector := update w.gDetector who.instance detector
      objects := if who = Consumer.scheduler then objects else w.objects} := by
    refine ⟨?_,carrying.consumers⟩
    intro number
    by_cases same : number = who.instance
    · rw [same]
      change ∀ info ∈ (update w.gDetector who.instance detector who.instance).imginfoque, _
      rw [Function.update_self]
      exact carries.1
    · change ∀ info ∈ (update w.gDetector who.instance detector number).imginfoque, _
      rw [Function.update_of_ne same]
      exact carrying.infos number
  exact goto_carrying updated rfl rfl shown

private theorem step_carrying (sound : Sound pool w) (carrying : Carrying limit w)
    (inserts : InsertsBelow limit w action) (stepped : Stepped cfg ie w action next events) :
    Carrying limit next := by
  cases stepped with
  | channel nChannel acted after emitted posted inside stepped =>
    exact ⟨carrying.infos,carrying.consumers⟩
  | load who dpipe buffer lists here inside loaded =>
    refine goto_carrying carrying rfl rfl ?_
    split <;> trivial
  | insertImage who waited dpipe buffer frame channel frameno detector objects faceret here returns =>
    exact (insertImage_carrying sound carrying inserts here returns).1
  | resume who dpipe here =>
    refine goto_carrying carrying rfl rfl ?_
    cases who <;> trivial
  | push who dpipe object objects here tracked =>
    have all := carrying.consumers who
    rw [here] at all
    refine goto_carrying carrying rfl rfl ?_
    exact all
  | count who dpipe object objects here counts =>
    have all := carrying.consumers who
    rw [here] at all
    refine goto_carrying carrying rfl rfl ?_
    exact fun other member => all other (.tail _ member)
  | postResult who dpipe object objects here =>
    have all := carrying.consumers who
    rw [here] at all
    refine goto_carrying carrying rfl rfl ?_
    exact fun other member => all other (.tail _ member)
  | tracker nChannel token => exact ⟨carrying.infos,carrying.consumers⟩
  | _ =>
    refine goto_carrying carrying rfl rfl ?_
    trivial

private theorem step_carries (sound : Sound pool w) (carrying : Carrying limit w)
    (inserts : InsertsBelow limit w action) (stepped : Stepped cfg ie w action next events) :
    ∀ event ∈ events, event.Carries limit := by
  intro event member
  cases stepped with
  | channel nChannel acted after emitted posted inside stepped =>
    cases stepped with
    | store buffer here =>
      have written := sound.written nChannel
      simp only [Channel.Written,here] at written
      rw [List.mem_singleton.mp member]
      exact written.2.1
    | _ => contradiction
  | insertImage who waited dpipe buffer frame channel frameno detector objects faceret here returns =>
    rcases List.mem_cons.mp member with inserted | delivered
    · rw [inserted]
      trivial
    · rw [List.mem_singleton.mp delivered]
      exact (insertImage_carrying sound carrying inserts here returns).2
  | push who dpipe object objects here tracked =>
    rw [List.mem_singleton.mp member]
    trivial
  | count who dpipe object objects here counts =>
    have all := carrying.consumers who
    rw [here] at all
    obtain ⟨nChannel,inside,input,-⟩ := all object List.mem_cons_self
    rw [List.mem_singleton.mp member]
    exact ⟨nChannel,inside,input⟩
  | postResult who dpipe object objects here =>
    rw [List.mem_singleton.mp member]
    trivial
  | _ => contradiction

end Steps

section Started

variable {cfg : Config} {w rest next : World Mat} {who : Consumer} {pc : ConsumerPc Mat}

def ConsumerPc.Started (cfg : Config) : ConsumerPc Mat → Prop
  | .insert dpipe _ _ _ _ => dpipe < cfg.c
  | _ => True

private theorem goto_started (started : ∀ other, (w.consumers other).Started cfg)
    (consumers : rest.consumers = w.consumers) (here : pc.Started cfg) (other : Consumer) :
    ((rest.goto who pc).consumers other).Started cfg := by
  by_cases same : other = who
  · rw [same,goto_self]
    exact here
  · rw [goto_of_ne rest pc same,consumers]
    exact started other

variable [CvMat Mat] {ie : Nat → InferenceEngine (Picture Mat)} {action : Action Mat}
  {events : List (Event Mat)}

private theorem step_started (sound : Sound cfg.pool w)
    (started : ∀ who, (w.consumers who).Started cfg)
    (stepped : Stepped cfg ie w action next events) (other : Consumer) :
    (next.consumers other).Started cfg := by
  cases stepped with
  | channel nChannel acted after emitted posted inside stepped => exact started other
  | load who dpipe buffer lists here inside loaded =>
    refine goto_started started rfl ?_ other
    split <;> trivial
  | put who dpipe buffer frame here =>
    have pooled := (put_labelled sound here).1
    refine goto_started started rfl ?_ other
    exact ((mem_pool cfg _).mp pooled).1
  | readChannel who dpipe buffer frame frameno here =>
    have inside := started who
    rw [here] at inside
    refine goto_started started rfl ?_ other
    exact inside
  | readFrameno who dpipe buffer frame channel here =>
    have inside := started who
    rw [here] at inside
    refine goto_started started rfl ?_ other
    exact inside
  | resume who dpipe here =>
    refine goto_started started rfl ?_ other
    cases who <;> trivial
  | tracker nChannel token => exact started other
  | _ =>
    refine goto_started started rfl ?_ other
    trivial

theorem along_inserts {limit : Nat} (detectors : Nat → Detector (Picture Mat)) (blank : Mat)
    (actions : List (Action Mat)) (small : cfg.c ≤ limit) :
    (pipeline cfg ie).Along (InsertsBelow limit) (start cfg detectors blank) actions := by
  have started : Sound cfg.pool (start cfg detectors blank) ∧
      ∀ who, ((start cfg detectors blank).consumers who).Started cfg :=
    ⟨start_sound cfg detectors blank,fun _ => trivial⟩
  refine (Machine.along_congr (fun (state : World Mat) => Sound cfg.pool state ∧
    ∀ who, (state.consumers who).Started cfg) ?_ ?_ actions started).mp
      (Machine.along_true _ actions)
  · intro state action next emitted held stepped
    have spec := step_stepped stepped
    exact ⟨step_sound held.1 spec,step_started held.1 held.2 spec⟩
  · intro state action next emitted held stepped
    refine ⟨fun _ => ?_,fun _ => trivial⟩
    cases action with
    | insertImage who waited =>
      intro dpipe buffer frame channel frameno here
      have inside := held.2 who
      rw [here] at inside
      exact Nat.lt_of_lt_of_le inside small
    | _ => trivial

end Started

variable [CvMat Mat] {cfg : Config} {ie : Nat → InferenceEngine (Picture Mat)}
  {detectors : Nat → Detector (Picture Mat)} {blank : Mat} {actions : List (Action Mat)}
  {limit : Nat} {w : World Mat} {trace : List (Event Mat)}

theorem run_carries (configured : ∀ number, Configured cfg (detectors number))
    (inserts : (pipeline cfg ie).Along (InsertsBelow limit) (start cfg detectors blank) actions)
    (ran : (pipeline cfg ie).run (start cfg detectors blank) actions = some (w,trace)) :
    Carrying limit w ∧ ∀ event ∈ trace, event.Carries limit := by
  have kept := Machine.run_invariant_along
    (fun (state : World Mat) (seen : List (Event Mat)) => Sound cfg.pool state ∧
      Carrying limit state ∧ ∀ event ∈ seen, event.Carries limit) ?_
    ⟨start_sound cfg detectors blank,start_carrying limit blank configured,List.forall_mem_nil _⟩
    inserts ran
  · exact kept.2
  · intro state seen action next emitted held condition stepped
    obtain ⟨sound,carrying,carries⟩ := held
    have spec := step_stepped stepped
    refine ⟨step_sound sound spec,step_carrying sound carrying condition spec,?_⟩
    intro event member
    rcases List.mem_append.mp member with before | now
    · exact carries event before
    · exact step_carries sound carrying condition spec event now

section Unbalanced

def ConsumerPc.Routes : ConsumerPc Mat → Prop
  | .route _ _ => True
  | .postInfer _ _ => True
  | _ => False

/-- Without workload balance, the inference threads sleep and the scheduler makes
no tasks. -/
structure Unbalanced (w : World Mat) : Prop where
  waiting : ∀ nChannel, w.consumers (.infer nChannel) = .wait
  tokens : ∀ nChannel, w.gsemtInfer nChannel = 0
  scheduler : ¬(w.consumers .scheduler).Routes

variable {rest next : World Mat} {who : Consumer} {pc : ConsumerPc Mat} {action : Action Mat}
  {events : List (Event Mat)}

omit [CvMat Mat] in
private theorem goto_unbalanced (unbalanced : Unbalanced w)
    (consumers : rest.consumers = w.consumers)
    (tokens : rest.gsemtInfer = w.gsemtInfer) (scheduler : who = .scheduler)
    (here : ¬pc.Routes) : Unbalanced (rest.goto who pc) := by
  rw [scheduler]
  refine ⟨?_,?_,?_⟩
  · intro nChannel
    rw [goto_of_ne rest pc (by simp),consumers]
    exact unbalanced.waiting nChannel
  · intro nChannel
    change rest.gsemtInfer nChannel = 0
    rw [tokens]
    exact unbalanced.tokens nChannel
  · rwa [goto_self]

def Action.actor : Action Mat → Option Consumer
  | .consumer who => some who
  | .readChannel who => some who
  | .readFrameno who => some who
  | .insertImage who _ => some who
  | _ => none

theorem unbalanced_actor (unbalanced : Unbalanced w)
    (stepped : Stepped cfg ie w action next events) (acts : action.actor = some who) :
    who = .scheduler := by
  cases who with
  | scheduler => rfl
  | infer nChannel =>
    have waiting := unbalanced.waiting nChannel
    have tokens := unbalanced.tokens nChannel
    cases stepped with
    | channel number acted after emitted posted inside stepped => cases stepped <;> contradiction
    | _ => simp_all [Action.actor]

theorem step_unbalanced (plain : cfg.workloadBalance = false) (unbalanced : Unbalanced w)
    (stepped : Stepped cfg ie w action next events) : Unbalanced next := by
  have scheduler : ∀ who, action.actor = some who → who = .scheduler :=
    fun who acts => unbalanced_actor unbalanced stepped acts
  have unrouted := unbalanced.scheduler
  cases stepped with
  | channel nChannel acted after emitted posted inside stepped =>
    exact ⟨unbalanced.waiting,unbalanced.tokens,unrouted⟩
  | wakeInfer nChannel here token =>
    have asleep := scheduler _ rfl
    contradiction
  | load who dpipe buffer lists here inside loaded =>
    refine goto_unbalanced unbalanced rfl rfl (scheduler _ rfl) ?_
    rw [plain]
    exact id
  | route who dpipe buffer here =>
    rw [scheduler who rfl] at here
    rw [here] at unrouted
    exact absurd trivial unrouted
  | postInfer who dpipe nInferThreadInstance here =>
    rw [scheduler who rfl] at here
    rw [here] at unrouted
    exact absurd trivial unrouted
  | resume who dpipe here =>
    refine goto_unbalanced unbalanced rfl rfl (scheduler _ rfl) ?_
    rw [scheduler who rfl]
    exact id
  | tracker nChannel token => exact ⟨unbalanced.waiting,unbalanced.tokens,unrouted⟩
  | _ => exact goto_unbalanced unbalanced rfl rfl (scheduler _ rfl) id

omit [CvMat Mat] in
theorem start_unbalanced (cfg : Config) (detectors : Nat → Detector (Picture Mat)) (blank : Mat) :
    Unbalanced (start cfg detectors blank) :=
  ⟨fun _ => rfl,fun _ => rfl,id⟩

end Unbalanced

end Results

end VideoAnalytics.Pipeline
