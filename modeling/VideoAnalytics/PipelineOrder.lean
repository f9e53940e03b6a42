import VideoAnalytics.PipelineUnderway
import VideoAnalytics.PipelineMetadata

/-! Each channel's frames come to InsertImage in the order in which its decoder
stored them. In the default build the scheduler serves all channels in turn. -/
namespace VideoAnalytics.Pipeline

section Order

variable {Mat : Type} {w rest next : World Mat} {pc before : ConsumerPc Mat}

section Rounds

/-- How many of the channels the scheduler has served in its round. -/
def ConsumerPc.served : ConsumerPc Mat → Nat
  | .scan dpipe => dpipe
  | .createMat dpipe _ => dpipe + 1
  | .put dpipe _ _ => dpipe + 1
  | .insert dpipe _ _ _ _ => dpipe + 1
  | .deliver dpipe _ => dpipe + 1
  | .postResult dpipe _ _ => dpipe + 1
  | _ => 0

def World.taken (w : World Mat) (trace : List (Event Mat)) (nChannel : Nat) : Nat :=
  (storedFrames nChannel trace).length - (w.channels nChannel).dpipe.mOutPipe.length

/-- The channels that were served in this round are one frame ahead. -/
def Rounds (cfg : Config) (w : World Mat) (trace : List (Event Mat)) : Prop :=
  ∃ rounds, ∀ nChannel, nChannel < cfg.c → w.taken trace nChannel =
    rounds + if nChannel < (w.consumers .scheduler).served then 1 else 0

variable {cfg : Config} {trace : List (Event Mat)}

private theorem start_rounds (cfg : Config) (detectors : Nat → Detector (Picture Mat))
    (blank : Mat) : Rounds cfg (start cfg detectors blank) [] := by
  refine ⟨0,?_⟩
  intro nChannel inside
  rfl

private theorem goto_rounds {events : List (Event Mat)} (rounds : Rounds cfg w trace)
    (same : SameFrames w rest) (here : w.consumers .scheduler = before)
    (served : pc.served = before.served)
    (unstored : ∀ number, storedFrames number events = []) :
    Rounds cfg (rest.goto .scheduler pc) (trace ++ events) := by
  obtain ⟨count,taken⟩ := rounds
  refine ⟨count,?_⟩
  intro number inside
  have before_taken := taken number inside
  rw [here] at before_taken
  rw [goto_self,served,← before_taken]
  unfold World.taken
  rw [goto_channels,same.filled,storedFrames_append,unstored,List.append_nil]

private theorem channel_rounds {number posted : Nat} {after : Channel Mat} {acted : Action Mat}
    {emitted : List (Event Mat)} (rounds : Rounds cfg w trace)
    (stepped : (w.channels number).Stepped number acted after emitted posted) :
    Rounds cfg ((w.setChannel number after).post posted) (trace ++ emitted) := by
  obtain ⟨count,counted⟩ := rounds
  refine ⟨count,?_⟩
  intro nChannel inside
  refine Eq.trans ?_ (counted nChannel inside)
  unfold World.taken
  rw [post_channels,storedFrames_append,List.length_append]
  by_cases mine : nChannel = number
  · subst mine
    rw [setChannel_self,stepped_length stepped]
    omega
  · rw [setChannel_of_ne w after mine,stepped_elsewhere stepped mine]
    rfl

private theorem rest_rounds {dpipe : Nat} (rounds : Rounds cfg w trace)
    (here : w.consumers .scheduler = .scan dpipe) (outside : ¬dpipe < cfg.c) :
    Rounds cfg (w.goto .scheduler .wait) trace := by
  obtain ⟨count,counted⟩ := rounds
  refine ⟨count + 1,?_⟩
  intro nChannel inside
  have before_taken := counted nChannel inside
  rw [here] at before_taken
  change _ = count + (if nChannel < dpipe then 1 else 0) at before_taken
  rw [if_pos (by omega)] at before_taken
  rw [goto_self]
  exact before_taken

variable [CvMat Mat] {ie : Nat → InferenceEngine (Picture Mat)} {action : Action Mat}
  {events : List (Event Mat)}

omit [CvMat Mat] in
private theorem load_rounds {dpipe buffer : Nat} {lists : DualPipe.Lists}
    (rounds : Rounds cfg w trace) (stored : ∀ number, (w.channels number).dpipe.mOutPipe.length ≤
      (storedFrames number trace).length)
    (here : w.consumers .scheduler = .scan dpipe)
    (loaded : (w.channels dpipe).dpipe.load = some (buffer,lists)) :
    Rounds cfg ((w.setChannel dpipe {w.channels dpipe with dpipe := lists}).goto .scheduler
      (.createMat dpipe buffer)) trace := by
  obtain ⟨taken,-⟩ := DualPipe.Lists.load_eq loaded
  obtain ⟨count,counted⟩ := rounds
  refine ⟨count,?_⟩
  intro number inside
  have before_taken := counted number inside
  rw [here] at before_taken
  change _ = count + (if number < dpipe then 1 else 0) at before_taken
  rw [goto_self]
  change _ = count + (if number < dpipe + 1 then 1 else 0)
  unfold World.taken at before_taken ⊢
  rw [goto_channels]
  by_cases mine : number = dpipe
  · have enough := stored number
    rw [mine] at enough before_taken ⊢
    rw [setChannel_self]
    rw [taken,List.length_cons] at enough before_taken
    simp only [Nat.lt_irrefl,if_false,Nat.lt_succ_self,if_true] at before_taken ⊢
    omega
  · rw [setChannel_of_ne w _ mine,before_taken]
    by_cases earlier : number < dpipe
    · rw [if_pos earlier,if_pos (by omega)]
    · rw [if_neg earlier,if_neg (by omega)]

private theorem step_rounds (plain : cfg.workloadBalance = false)
    (unbalanced : Unbalanced w) (untasked : ∀ number, w.gtaskque number = [])
    (stored : ∀ number, (w.channels number).dpipe.mOutPipe.length ≤
      (storedFrames number trace).length)
    (rounds : Rounds cfg w trace) (stepped : Stepped cfg ie w action next events) :
    Rounds cfg next (trace ++ events) := by
  have scheduler : ∀ who, action.actor = some who → who = .scheduler :=
    fun who acts => unbalanced_actor unbalanced stepped acts
  have nothing : ∀ number, storedFrames number ([] : List (Event Mat)) = [] := fun _ => rfl
  have unchanged : SameFrames w w := sameFrames rfl
  cases stepped with
  | channel number acted after emitted posted inside stepped => exact channel_rounds rounds stepped
  | wakeScheduler here token =>
    exact goto_rounds rounds (sameFrames rfl) here rfl nothing
  | wakeInfer number here token =>
    have asleep := scheduler _ rfl
    contradiction
  | load who dpipe buffer lists here inside loaded =>
    obtain rfl := scheduler who rfl
    rw [plain,List.append_nil]
    exact load_rounds rounds stored here loaded
  | skip who dpipe here inside unfilled balanced =>
    rw [plain] at balanced
    contradiction
  | rest who dpipe here outside =>
    obtain rfl := scheduler who rfl
    rw [List.append_nil]
    exact rest_rounds rounds here outside
  | route who dpipe buffer here =>
    obtain rfl := scheduler who rfl
    have unrouted := unbalanced.scheduler
    rw [here] at unrouted
    exact absurd trivial unrouted
  | postInfer who dpipe number here =>
    obtain rfl := scheduler who rfl
    have unrouted := unbalanced.scheduler
    rw [here] at unrouted
    exact absurd trivial unrouted
  | drained who here none_tasked =>
    obtain rfl := scheduler who rfl
    exact goto_rounds rounds unchanged here rfl nothing
  | task who task left here tasked =>
    rw [untasked] at tasked
    contradiction
  | createMat who dpipe buffer here =>
    obtain rfl := scheduler who rfl
    exact goto_rounds rounds unchanged here rfl nothing
  | put who dpipe buffer frame here =>
    obtain rfl := scheduler who rfl
    exact goto_rounds rounds (put_sameFrames w dpipe buffer) here rfl nothing
  | readChannel who dpipe buffer frame frameno here =>
    obtain rfl := scheduler who rfl
    exact goto_rounds rounds unchanged here rfl nothing
  | readFrameno who dpipe buffer frame channel here =>
    obtain rfl := scheduler who rfl
    exact goto_rounds rounds unchanged here rfl nothing
  | insertImage who waited dpipe buffer frame channel frameno detector objects faceret here returns =>
    obtain rfl := scheduler who rfl
    exact goto_rounds rounds (sameFrames rfl) here rfl fun _ => rfl
  | resume who dpipe here =>
    obtain rfl := scheduler who rfl
    exact goto_rounds rounds unchanged here rfl nothing
  | push who dpipe object objects here tracked =>
    obtain rfl := scheduler who rfl
    exact goto_rounds rounds (sameFrames rfl) here rfl fun _ => rfl
  | count who dpipe object objects here counts =>
    obtain rfl := scheduler who rfl
    exact goto_rounds rounds (sameFrames rfl) here rfl fun _ => rfl
  | postResult who dpipe object objects here =>
    obtain rfl := scheduler who rfl
    exact goto_rounds rounds (sameFrames rfl) here rfl fun _ => rfl
  | tracker number token =>
    rw [List.append_nil]
    exact rounds

end Rounds

section Runs

variable [CvMat Mat] {cfg : Config} {ie : Nat → InferenceEngine (Picture Mat)}
  {action : Action Mat} {events trace : List (Event Mat)}

/-- Which frames have got how far, along the runs of either build. -/
structure Ordered (cfg : Config) (w : World Mat) (trace : List (Event Mat)) : Prop where
  sound : Sound cfg.pool w
  roles : Roles cfg w
  passing : ∀ number, storedFrames number trace = insertedFrames number trace ++ w.underway number
  rounds : cfg.workloadBalance = false → Rounds cfg w trace

omit [CvMat Mat] in
theorem start_ordered (cfg : Config) (detectors : Nat → Detector (Picture Mat)) (blank : Mat) :
    Ordered cfg (start cfg detectors blank) [] :=
  ⟨start_sound cfg detectors blank,start_roles cfg detectors blank,fun _ => rfl,
    fun _ => start_rounds cfg detectors blank⟩

omit [CvMat Mat] in
private theorem ordered_stored (ordered : Ordered cfg w trace) (number : Nat) :
    (w.channels number).dpipe.mOutPipe.length ≤ (storedFrames number trace).length := by
  rw [ordered.passing]
  unfold World.underway World.filled
  simp only [List.length_append,List.length_map]
  omega

theorem step_ordered (ordered : Ordered cfg w trace)
    (stepped : Stepped cfg ie w action next events) :
    Ordered cfg next (trace ++ events) := by
  refine ⟨step_sound ordered.sound stepped,step_roles ordered.sound ordered.roles stepped,?_,?_⟩
  · intro number
    calc
      storedFrames number (trace ++ events)
        = insertedFrames number trace ++ (w.underway number ++ storedFrames number events) := by
          rw [storedFrames_append,ordered.passing,List.append_assoc]
      _ = insertedFrames number trace ++
          (insertedFrames number events ++ next.underway number) := by
          rw [step_underway ordered.sound ordered.roles stepped]
      _ = insertedFrames number (trace ++ events) ++ next.underway number := by
          rw [insertedFrames_append,List.append_assoc]
  · intro plain
    obtain ⟨unbalanced,untasked⟩ := ordered.roles.unbalanced plain
    exact step_rounds plain unbalanced untasked (ordered_stored ordered) (ordered.rounds plain)
      stepped

private theorem run_ordered {detectors : Nat → Detector (Picture Mat)} {blank : Mat}
    {actions : List (Action Mat)}
    (ran : (pipeline cfg ie).run (start cfg detectors blank) actions = some (w,trace)) :
    Ordered cfg w trace := by
  refine Machine.run_invariant (Ordered cfg) ?_ (start_ordered cfg detectors blank) ran
  intro state seen action next emitted ordered stepped
  exact step_ordered ordered (step_stepped stepped)

omit [CvMat Mat] in
private theorem rounds_taken (rounds : Rounds cfg w trace)
    (waiting : w.consumers .scheduler = .wait)
    {first second : Nat} (inside : first < cfg.c) (there : second < cfg.c) :
    w.taken trace first = w.taken trace second := by
  obtain ⟨count,counted⟩ := rounds
  have all : ∀ number, number < cfg.c → w.taken trace number = count := by
    intro number known
    rw [counted number known,waiting]
    rfl
  rw [all first inside,all second there]

omit [CvMat Mat] in
private theorem ordered_taken (ordered : Ordered cfg w trace) (plain : cfg.workloadBalance = false)
    (waiting : w.consumers .scheduler = .wait) (number : Nat) :
    w.taken trace number = (insertedFrames number trace).length := by
  obtain ⟨unbalanced,untasked⟩ := ordered.roles.unbalanced plain
  have left : w.underway number = w.filled number := by
    unfold World.underway World.tasked
    rw [waiting,unbalanced.waiting,untasked]
    rfl
  unfold World.taken
  rw [ordered.passing,left,List.length_append]
  unfold World.filled
  rw [List.length_map]
  omega

/-- In both builds the frames of a channel come to InsertImage in the order in
which they were stored, each of them once. In the default build each round takes
one frame of every channel. -/
theorem frames_in_order (cfg : Config) (ie : Nat → InferenceEngine (Picture Mat))
    (detectors : Nat → Detector (Picture Mat)) (blank : Mat) (actions : List (Action Mat))
    (w : World Mat) (trace : List (Event Mat))
    (ran : (pipeline cfg ie).run (start cfg detectors blank) actions = some (w,trace)) :
    (∀ nChannel, insertedFrames nChannel trace <+: storedFrames nChannel trace) ∧
      (cfg.workloadBalance = false → w.consumers .scheduler = .wait →
        (∀ nChannel, w.taken trace nChannel = (insertedFrames nChannel trace).length) ∧
          ∀ first second, first < cfg.c → second < cfg.c →
            w.taken trace first = w.taken trace second) := by
  have ordered := run_ordered ran
  constructor
  · intro nChannel
    exact ⟨w.underway nChannel,(ordered.passing nChannel).symm⟩
  · intro plain waiting
    constructor
    · exact ordered_taken ordered plain waiting
    · intro first second inside there
      exact rounds_taken (ordered.rounds plain) waiting inside there

end Runs

end Order

section Samples

def twoChannels : Config := ⟨false,false,1,100,2⟩

def wholeRound : List (Action Size) :=
  storeFrame 1 ++ storeFrame 0 ++ .consumer .scheduler :: takeFrame ++ insertFrame ++
    .consumer .scheduler :: takeFrame ++ insertFrame ++ List.replicate 3 (.consumer .scheduler)

theorem frames_in_order_round : ∃ w trace,
    (pipeline twoChannels ssdEngines).run (start twoChannels (fun _ => ssdDetector 1) ⟨0,0⟩)
      wholeRound = some (w,trace) ∧
    insertedFrames 1 trace = [⟨⟨300,300⟩,1,1⟩] ∧
    insertedFrames 1 trace <+: storedFrames 1 trace ∧ w.taken trace 0 = w.taken trace 1 := by
  have shown : ((pipeline twoChannels ssdEngines).run
      (start twoChannels (fun _ => ssdDetector 1) ⟨0,0⟩) wholeRound).map
        (fun out => (out.1.consumers .scheduler,insertedFrames 1 out.2)) =
          some (.wait,[⟨⟨300,300⟩,1,1⟩]) := by
    decide +kernel
  obtain ⟨⟨w,trace⟩,ran,same⟩ := Option.map_eq_some_iff.mp shown
  obtain ⟨waiting,inserted⟩ := Prod.mk.inj same
  obtain ⟨order,rounds⟩ := frames_in_order twoChannels ssdEngines (fun _ => ssdDetector 1) ⟨0,0⟩
    wholeRound w trace ran
  exact ⟨w,trace,ran,inserted,order 1,(rounds rfl waiting).2 0 1 (by decide) (by decide)⟩

end Samples

end VideoAnalytics.Pipeline
