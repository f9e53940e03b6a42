import VideoAnalytics.PipelineResults

/-! Which thread does what in the two builds. With workload balance the scheduler
passes each frame to the inference thread of its channel, and without it the
scheduler hands over the frames itself. -/
namespace VideoAnalytics.Pipeline

open Function (update)

section Threads

variable {Mat : Type}

/-- The instance that the frames of a channel are passed to. -/
def instanceOf (nChannel : Nat) : Nat := if nChannel = 0 then 1 else 0

/-- Where a thread can be with workload balance. -/
def ConsumerPc.Balanced : Consumer → ConsumerPc Mat → Prop
  | .scheduler, .wait => True
  | .scheduler, .scan _ => True
  | .scheduler, .route _ _ => True
  | .scheduler, .postInfer _ _ => True
  | .infer _, .wait => True
  | .infer _, .drain => True
  | .infer nChannel, .createMat dpipe _ => instanceOf dpipe = nChannel
  | .infer nChannel, .put dpipe _ _ => instanceOf dpipe = nChannel
  | .infer nChannel, .insert dpipe _ _ _ _ => instanceOf dpipe = nChannel
  | .infer _, .deliver _ _ => True
  | .infer _, .postResult _ _ _ => True
  | _, _ => False

structure Balanced (w : World Mat) : Prop where
  consumers : ∀ who, (w.consumers who).Balanced who
  tasks : ∀ nChannel, ∀ task ∈ w.gtaskque nChannel, instanceOf task.dpipe = nChannel

private theorem start_balanced (cfg : Config) (detectors : Nat → Detector (Picture Mat))
    (blank : Mat) : Balanced (start cfg detectors blank) := by
  constructor
  · intro who
    cases who with
    | scheduler => trivial
    | infer nChannel => trivial
  · intro nChannel task member
    contradiction

variable {pool : List (Nat × Nat)} {w rest next : World Mat} {who : Consumer}
  {pc : ConsumerPc Mat}

private theorem goto_balanced (balanced : Balanced w) (consumers : rest.consumers = w.consumers)
    (tasks : rest.gtaskque = w.gtaskque) (here : pc.Balanced who) : Balanced (rest.goto who pc) := by
  constructor
  · intro other
    by_cases same : other = who
    · rw [same,goto_self]
      exact here
    · rw [goto_of_ne rest pc same,consumers]
      exact balanced.consumers other
  · intro nChannel
    change ∀ task ∈ rest.gtaskque nChannel, instanceOf task.dpipe = nChannel
    rw [tasks]
    exact balanced.tasks nChannel

private theorem move_balanced {before : ConsumerPc Mat} (balanced : Balanced w)
    (consumers : rest.consumers = w.consumers) (tasks : rest.gtaskque = w.gtaskque)
    (here : w.consumers who = before) (moves : before.Balanced who → pc.Balanced who) :
    Balanced (rest.goto who pc) := by
  have own := balanced.consumers who
  rw [here] at own
  exact goto_balanced balanced consumers tasks (moves own)

/-- The channel that the scheduler reads from a loaded buffer is that of its pipe. -/
theorem routed_channel {dpipe buffer : Nat} (sound : Sound pool w)
    (here : w.consumers who = .route dpipe buffer) :
    (if ((w.channels dpipe).buffers buffer).channel = 0 then 1 else 0) = instanceOf dpipe := by
  have held : (dpipe,buffer) ∈ w.contents (.consumer who) := by
    simp [World.contents,here,ConsumerPc.held]
  have labelled : ((w.channels dpipe).buffers buffer).channel = dpipe :=
    (sound.labelled _ _ rfl held).1
  rw [labelled]
  unfold instanceOf
  simp

private theorem route_balanced {dpipe buffer : Nat} (sound : Sound pool w) (balanced : Balanced w)
    (here : w.consumers who = .route dpipe buffer) : Balanced (w.route who dpipe buffer) := by
  have own := balanced.consumers who
  rw [here] at own
  unfold World.route
  simp only [routed_channel sound here]
  let tasks : List InferTask := w.gtaskque (instanceOf dpipe) ++ [⟨dpipe,buffer⟩]
  have filled : Balanced {w with gtaskque := update w.gtaskque (instanceOf dpipe) tasks} := by
    refine ⟨balanced.consumers,?_⟩
    intro number task member
    by_cases same : number = instanceOf dpipe
    · simp only [same,Function.update_self] at member
      rw [same]
      rcases List.mem_append.mp member with before | now
      · exact balanced.tasks _ task before
      · rw [List.mem_singleton.mp now]
    · simp only [Function.update_of_ne same] at member
      exact balanced.tasks _ task member
  apply goto_balanced filled rfl rfl
  cases who with
  | scheduler => trivial
  | infer nChannel => exact own

private theorem task_balanced {task : InferTask} {left : List InferTask} (balanced : Balanced w)
    (here : w.consumers who = .drain) (tasked : w.gtaskque who.instance = task :: left) :
    Balanced ({w with gtaskque := update w.gtaskque who.instance left}.goto who
      (.createMat task.dpipe task.dbuffer)) := by
  have own := balanced.consumers who
  rw [here] at own
  have placed : ∀ other ∈ task :: left, instanceOf other.dpipe = who.instance := by
    rw [← tasked]
    exact balanced.tasks who.instance
  have fewer : Balanced {w with gtaskque := update w.gtaskque who.instance left} := by
    refine ⟨balanced.consumers,?_⟩
    intro number other member
    by_cases same : number = who.instance
    · simp only [same,Function.update_self] at member
      rw [same]
      exact placed other (List.mem_cons_of_mem _ member)
    · simp only [Function.update_of_ne same] at member
      exact balanced.tasks number other member
  apply goto_balanced fewer rfl rfl
  cases who with
  | scheduler => exact own
  | infer nChannel => exact placed task List.mem_cons_self

variable [CvMat Mat] {cfg : Config} {ie : Nat → InferenceEngine (Picture Mat)}
  {action : Action Mat} {events : List (Event Mat)}

private theorem step_balanced (balance : cfg.workloadBalance = true) (sound : Sound pool w)
    (balanced : Balanced w) (stepped : Stepped cfg ie w action next events) : Balanced next := by
  cases stepped with
  | channel nChannel acted after emitted posted inside stepped =>
    exact ⟨balanced.consumers,balanced.tasks⟩
  | wakeScheduler here token => exact goto_balanced balanced rfl rfl trivial
  | wakeInfer nChannel here token => exact goto_balanced balanced rfl rfl trivial
  | load who dpipe buffer lists here inside loaded =>
    rw [balance]
    exact move_balanced balanced rfl rfl here (by cases who <;> exact id)
  | skip who dpipe here inside unfilled balances =>
    exact move_balanced balanced rfl rfl here (by cases who <;> exact id)
  | rest who dpipe here outside => exact goto_balanced balanced rfl rfl (by cases who <;> trivial)
  | route who dpipe buffer here => exact route_balanced sound balanced here
  | postInfer who dpipe nInferThreadInstance here =>
    exact move_balanced balanced rfl rfl here (by cases who <;> exact id)
  | drained who here untasked => exact goto_balanced balanced rfl rfl (by cases who <;> trivial)
  | task who task left here tasked => exact task_balanced balanced here tasked
  | createMat who dpipe buffer here =>
    exact move_balanced balanced rfl rfl here (by cases who <;> exact id)
  | put who dpipe buffer frame here =>
    exact move_balanced balanced rfl rfl here (by cases who <;> exact id)
  | readChannel who dpipe buffer frame frameno here =>
    exact move_balanced balanced rfl rfl here (by cases who <;> exact id)
  | readFrameno who dpipe buffer frame channel here =>
    exact move_balanced balanced rfl rfl here (by cases who <;> exact id)
  | insertImage who waited dpipe buffer frame channel frameno detector objects faceret here returns =>
    refine move_balanced balanced rfl rfl here ?_
    cases who with
    | scheduler => exact id
    | infer nChannel => exact fun _ => trivial
  | resume who dpipe here => exact goto_balanced balanced rfl rfl (by cases who <;> trivial)
  | push who dpipe object objects here tracked =>
    exact move_balanced balanced rfl rfl here (by cases who <;> exact id)
  | count who dpipe object objects here counts =>
    exact move_balanced balanced rfl rfl here (by cases who <;> exact id)
  | postResult who dpipe object objects here =>
    exact move_balanced balanced rfl rfl here (by cases who <;> exact id)
  | tracker nChannel token => exact ⟨balanced.consumers,balanced.tasks⟩

private theorem step_untasked (unbalanced : Unbalanced w)
    (untasked : ∀ nChannel, w.gtaskque nChannel = [])
    (stepped : Stepped cfg ie w action next events) (nChannel : Nat) :
    next.gtaskque nChannel = [] := by
  cases stepped with
  | route who dpipe buffer here =>
    have scheduler : who = .scheduler :=
      unbalanced_actor unbalanced
        (Stepped.route who dpipe buffer here : Stepped cfg ie w _ _ _) rfl
    have unrouted := unbalanced.scheduler
    rw [← scheduler,here] at unrouted
    exact absurd trivial unrouted
  | task who task left here tasked =>
    rw [untasked] at tasked
    contradiction
  | _ => exact untasked nChannel

structure Roles (cfg : Config) (w : World Mat) : Prop where
  balanced : cfg.workloadBalance = true → Balanced w
  unbalanced : cfg.workloadBalance = false →
    Unbalanced w ∧ ∀ nChannel, w.gtaskque nChannel = []

theorem step_roles (sound : Sound pool w) (roles : Roles cfg w)
    (stepped : Stepped cfg ie w action next events) : Roles cfg next := by
  constructor
  · intro balance
    exact step_balanced balance sound (roles.balanced balance) stepped
  · intro plain
    obtain ⟨unbalanced,untasked⟩ := roles.unbalanced plain
    exact ⟨step_unbalanced plain unbalanced stepped,step_untasked unbalanced untasked stepped⟩

omit [CvMat Mat] in
theorem start_roles (cfg : Config) (detectors : Nat → Detector (Picture Mat)) (blank : Mat) :
    Roles cfg (start cfg detectors blank) :=
  ⟨fun _ => start_balanced cfg detectors blank,
    fun _ => ⟨start_unbalanced cfg detectors blank,fun _ => rfl⟩⟩

def ConsumerPc.Schedules : ConsumerPc Mat → Prop
  | .scan _ => True
  | .route _ _ => True
  | .postInfer _ _ => True
  | _ => False

omit [CvMat Mat] in
theorem roles_schedules (roles : Roles cfg w) (here : w.consumers who = pc)
    (schedules : pc.Schedules) : who = .scheduler := by
  cases who with
  | scheduler => rfl
  | infer nChannel =>
    cases build : cfg.workloadBalance with
    | true =>
      have own := (roles.balanced build).consumers (.infer nChannel)
      rw [here] at own
      cases pc with
      | scan dpipe => contradiction
      | route dpipe buffer => contradiction
      | postInfer dpipe nInferThreadInstance => contradiction
      | _ => contradiction
    | false =>
      have waiting := (roles.unbalanced build).1.waiting nChannel
      rw [here] at waiting
      rw [waiting] at schedules
      contradiction

omit [CvMat Mat] in
theorem roles_task {task : InferTask} {left : List InferTask} (roles : Roles cfg w)
    (here : w.consumers who = .drain) (tasked : w.gtaskque who.instance = task :: left) :
    who = .infer (instanceOf task.dpipe) := by
  cases build : cfg.workloadBalance with
  | true =>
    have balanced := roles.balanced build
    have own := balanced.consumers who
    rw [here] at own
    cases who with
    | scheduler => contradiction
    | infer nChannel =>
      rw [balanced.tasks nChannel task]
      change w.gtaskque nChannel = _ at tasked
      rw [tasked]
      exact List.mem_cons_self
  | false =>
    rw [(roles.unbalanced build).2] at tasked
    contradiction

end Threads

end VideoAnalytics.Pipeline
