import VideoAnalytics.PipelineOrder
import Mathlib.Algebra.BigOperators.Group.Finset.Piecewise
import Mathlib.Algebra.Order.BigOperators.Group.Finset

/-! The semaphores that wake the scheduler and the inference threads. A token of
the scheduler is worth a whole round, so the tokens bound the frames that were
announced and are still in a filled list. -/
namespace VideoAnalytics.Pipeline

open Function (update)

section Wakeups

variable {Mat : Type}

def DecodePc.unposted : DecodePc Mat → Int
  | .post => 1
  | _ => 0

/-- The filled buffers that a decoder has posted for. -/
def Channel.announced (channel : Channel Mat) : Int :=
  channel.dpipe.mOutPipe.length - channel.decoder.unposted

def World.announced (w : World Mat) (c : Nat) : Int :=
  ∑ nChannel ∈ Finset.range c, (w.channels nChannel).announced

/-- The scheduler has a token for what is announced. In a round that has not
found a frame, it may have spent the token of a frame that is ahead of it. -/
def ConsumerPc.Covered (cfg : Config) (w : World Mat) : ConsumerPc Mat → Prop
  | .scan dpipe => w.announced cfg.c ≤ w.gNewtaskAvaiable + 1 ∧
      ((∀ nChannel, dpipe ≤ nChannel → nChannel < cfg.c →
        (w.channels nChannel).dpipe.mOutPipe = []) → w.announced cfg.c ≤ w.gNewtaskAvaiable)
  | _ => w.announced cfg.c ≤ w.gNewtaskAvaiable

def ConsumerPc.posting (nInferThreadInstance : Nat) : ConsumerPc Mat → Nat
  | .postInfer _ number => if number = nInferThreadInstance then 1 else 0
  | _ => 0

/-- The tasks of a thread that waits are announced to it. -/
def Woken (w : World Mat) : Prop :=
  ∀ number, w.consumers (.infer number) = .wait → (w.gtaskque number).length ≤
    w.gsemtInfer number + (w.consumers .scheduler).posting number

variable {w rest next : World Mat} {who : Consumer} {pc before : ConsumerPc Mat} {cfg : Config}

section Tokens

private theorem unposted_nonneg (pc : DecodePc Mat) : 0 ≤ pc.unposted := by
  cases pc with
  | post => exact zero_le_one
  | _ => exact Int.le_refl 0

private theorem covered_of_le (enough : w.announced cfg.c ≤ w.gNewtaskAvaiable)
    (pc : ConsumerPc Mat) : pc.Covered cfg w := by
  cases pc with
  | scan dpipe =>
    constructor
    · omega
    · exact fun _ => enough
  | _ => exact enough

private theorem covered_bound (covered : pc.Covered cfg w) :
    w.announced cfg.c ≤ w.gNewtaskAvaiable + 1 := by
  cases pc with
  | scan dpipe => exact covered.1
  | _ => exact Int.le_trans covered (by omega)

private theorem announced_add {c number : Nat} {change : Int} (inside : number < c)
    (here : (next.channels number).announced = (w.channels number).announced + change)
    (elsewhere : ∀ other, other ≠ number → next.channels other = w.channels other) :
    next.announced c = w.announced c + change := by
  have each : ∀ nChannel, (next.channels nChannel).announced =
      (w.channels nChannel).announced + if nChannel = number then change else 0 := by
    intro nChannel
    by_cases mine : nChannel = number
    · rw [mine,if_pos rfl,here]
    · rw [if_neg mine,elsewhere nChannel mine,add_zero]
  unfold World.announced
  simp only [each]
  rw [Finset.sum_add_distrib,Finset.sum_ite_eq',if_pos (Finset.mem_range.mpr inside)]

private theorem announced_nonpos {c : Nat} (empty : ∀ nChannel, nChannel < c →
    (w.channels nChannel).dpipe.mOutPipe = []) : w.announced c ≤ 0 := by
  unfold World.announced
  apply Finset.sum_nonpos
  intro nChannel member
  unfold Channel.announced
  have unposted := unposted_nonneg (w.channels nChannel).decoder
  rw [empty nChannel (Finset.mem_range.mp member),List.length_nil]
  omega

private theorem announced_filled {c number : Nat} (posted : ∀ nChannel, nChannel < c →
    (w.channels nChannel).decoder ≠ .post) (inside : number < c) :
    ((w.channels number).dpipe.mOutPipe.length : Int) ≤ w.announced c := by
  have lengths : ∀ nChannel ∈ Finset.range c, (w.channels nChannel).announced =
      (w.channels nChannel).dpipe.mOutPipe.length := by
    intro nChannel member
    have unposted : (w.channels nChannel).decoder.unposted = 0 := by
      have elsewhere := posted nChannel (Finset.mem_range.mp member)
      cases here : (w.channels nChannel).decoder with
      | post => contradiction
      | _ => rfl
    unfold Channel.announced
    rw [unposted,sub_zero]
  have member : number ∈ Finset.range c := Finset.mem_range.mpr inside
  unfold World.announced
  rw [← lengths number member]
  apply Finset.single_le_sum ?_ member
  intro nChannel known
  rw [lengths nChannel known]
  exact Int.natCast_nonneg _

variable {number posted : Nat} {channel after : Channel Mat} {action : Action Mat}
  {events : List (Event Mat)}

private theorem stepped_announced (stepped : channel.Stepped number action after events posted) :
    after.announced = channel.announced + posted := by
  have grown := stepped_length stepped
  unfold Channel.announced
  rw [grown]
  cases stepped with
  | decode pixels here =>
    cases pixels with
    | none => simp [here,storedFrames,DecodePc.unposted]
    | some frame => simp [here,storedFrames,DecodePc.unposted]
  | store buffer here => simp [here,storedFrames,Event.storedIn,DecodePc.unposted]
  | post here => simp [here,storedFrames,DecodePc.unposted]
  | thrFps => simp [storedFrames]
  | _ => simp [*,storedFrames,DecodePc.unposted,Channel.write]

end Tokens

section Scheduler

/-- Nothing has changed that the scheduler waits for. -/
structure SameTokens (w rest : World Mat) : Prop where
  announced : ∀ c, rest.announced c = w.announced c
  filled : ∀ number, (rest.channels number).dpipe.mOutPipe = (w.channels number).dpipe.mOutPipe
  tokens : rest.gNewtaskAvaiable = w.gNewtaskAvaiable
  consumers : rest.consumers = w.consumers

private theorem sameTokens (same : (rest.channels,rest.gNewtaskAvaiable,rest.consumers) =
    (w.channels,w.gNewtaskAvaiable,w.consumers)) : SameTokens w rest := by
  simp only [Prod.mk.injEq] at same
  obtain ⟨channels,tokens,consumers⟩ := same
  refine ⟨?_,?_,tokens,consumers⟩
  · intro c
    unfold World.announced
    rw [channels]
  · intro number
    rw [channels]

private theorem put_sameTokens (w : World Mat) (dpipe buffer : Nat) :
    SameTokens w (w.setChannel dpipe {w.channels dpipe with
      dpipe := (w.channels dpipe).dpipe.put buffer}) := by
  refine ⟨?_,(put_sameFrames w dpipe buffer).filled,rfl,rfl⟩
  intro c
  unfold World.announced
  apply Finset.sum_congr rfl
  intro nChannel _
  by_cases mine : nChannel = dpipe
  · rw [mine,setChannel_self]
    rfl
  · rw [setChannel_of_ne w _ mine]

private theorem covered_same (same : SameTokens w rest) (covered : pc.Covered cfg w) :
    pc.Covered cfg (rest.goto who before) := by
  have announced : (rest.goto who before).announced cfg.c = w.announced cfg.c :=
    same.announced cfg.c
  have tokens : (rest.goto who before).gNewtaskAvaiable = w.gNewtaskAvaiable := same.tokens
  unfold ConsumerPc.Covered at covered ⊢
  rw [announced,tokens]
  cases pc with
  | scan dpipe =>
    refine ⟨covered.1,?_⟩
    intro empty
    apply covered.2
    intro nChannel ahead inside
    rw [← same.filled]
    exact empty nChannel ahead inside
  | _ => exact covered

private theorem goto_covered (covered : (w.consumers .scheduler).Covered cfg w)
    (same : SameTokens w rest) (here : w.consumers who = before)
    (moves : who = .scheduler → before.Covered cfg w → pc.Covered cfg w) :
    ((rest.goto who pc).consumers .scheduler).Covered cfg (rest.goto who pc) := by
  by_cases mine : who = .scheduler
  · subst mine
    rw [goto_self]
    rw [here] at covered
    exact covered_same same (moves rfl covered)
  · rw [goto_of_ne rest pc (Ne.symm mine),same.consumers]
    exact covered_same same covered

private theorem wake_covered (covered : (w.consumers .scheduler).Covered cfg w)
    (here : w.consumers .scheduler = .wait) (token : 0 < w.gNewtaskAvaiable) :
    (ConsumerPc.scan 0 : ConsumerPc Mat).Covered cfg
      ({w with gNewtaskAvaiable := w.gNewtaskAvaiable - 1}.goto .scheduler (.scan 0)) := by
  rw [here] at covered
  change w.announced cfg.c ≤ w.gNewtaskAvaiable at covered
  constructor
  · change w.announced cfg.c ≤ ((w.gNewtaskAvaiable - 1 : Nat) : Int) + 1
    omega
  · intro empty
    change w.announced cfg.c ≤ ((w.gNewtaskAvaiable - 1 : Nat) : Int)
    have nothing : w.announced cfg.c ≤ 0 := announced_nonpos fun nChannel inside =>
      empty nChannel (Nat.zero_le nChannel) inside
    omega

private theorem unloaded_filled {lists : DualPipe.Lists} (unfilled : lists.load = none) :
    lists.mOutPipe = [] := by
  obtain ⟨free,filled⟩ := lists
  cases filled with
  | nil => rfl
  | cons buffer left => contradiction

private theorem skip_covered {dpipe : Nat} (covered : (ConsumerPc.scan dpipe).Covered cfg w)
    (unfilled : (w.channels dpipe).dpipe.load = none) :
    (ConsumerPc.scan (dpipe + 1)).Covered cfg w := by
  refine ⟨covered.1,?_⟩
  intro empty
  apply covered.2
  intro nChannel ahead inside
  by_cases mine : nChannel = dpipe
  · rw [mine]
    exact unloaded_filled unfilled
  · exact empty nChannel (by omega) inside

private theorem rest_covered {dpipe : Nat} (covered : (ConsumerPc.scan dpipe).Covered cfg w)
    (outside : ¬dpipe < cfg.c) : (ConsumerPc.wait).Covered cfg w := by
  apply covered.2
  intro nChannel ahead inside
  omega

private theorem load_covered {dpipe buffer : Nat} {lists : DualPipe.Lists}
    (covered : (w.consumers .scheduler).Covered cfg w) (inside : dpipe < cfg.c)
    (loaded : (w.channels dpipe).dpipe.load = some (buffer,lists)) (here : ConsumerPc Mat) :
    here.Covered cfg ((w.setChannel dpipe {w.channels dpipe with dpipe := lists}).goto who pc) := by
  obtain ⟨taken,-⟩ := DualPipe.Lists.load_eq loaded
  let next : World Mat := (w.setChannel dpipe {w.channels dpipe with dpipe := lists}).goto who pc
  have fewer : next.announced cfg.c = w.announced cfg.c + -1 := by
    apply announced_add inside
    · change ((w.setChannel dpipe _).channels dpipe).announced = _
      rw [setChannel_self]
      unfold Channel.announced
      rw [taken,List.length_cons]
      push_cast
      omega
    · intro other different
      exact setChannel_of_ne w _ different
  have bound := covered_bound covered
  have same : next.gNewtaskAvaiable = w.gNewtaskAvaiable := rfl
  apply covered_of_le
  change next.announced cfg.c ≤ next.gNewtaskAvaiable
  rw [fewer,same]
  omega

private theorem channel_covered {number posted : Nat} {after : Channel Mat} {action : Action Mat}
    {events : List (Event Mat)} (covered : (w.consumers .scheduler).Covered cfg w)
    (inside : number < cfg.c)
    (stepped : (w.channels number).Stepped number action after events posted) :
    (w.consumers .scheduler).Covered cfg ((w.setChannel number after).post posted) := by
  let next : World Mat := (w.setChannel number after).post posted
  have more : next.announced cfg.c = w.announced cfg.c + posted := by
    apply announced_add inside
    · change ((w.setChannel number after).channels number).announced = _
      rw [setChannel_self,stepped_announced stepped]
    · intro other different
      exact setChannel_of_ne w after different
  have tokens : (next.gNewtaskAvaiable : Int) = w.gNewtaskAvaiable + posted := by
    change ((w.gNewtaskAvaiable + posted : Nat) : Int) = _
    push_cast
    rfl
  have emptied : ∀ nChannel, (next.channels nChannel).dpipe.mOutPipe = [] →
      (w.channels nChannel).dpipe.mOutPipe = [] := by
    intro nChannel empty
    by_cases mine : nChannel = number
    · rw [mine] at empty ⊢
      change ((w.setChannel number after).channels number).dpipe.mOutPipe = [] at empty
      rw [setChannel_self] at empty
      have grown := stepped_length stepped
      rw [empty,List.length_nil] at grown
      apply List.eq_nil_of_length_eq_zero
      omega
    · rwa [show next.channels nChannel = _ from setChannel_of_ne w after mine] at empty
  change (w.consumers .scheduler).Covered cfg next
  unfold ConsumerPc.Covered at covered ⊢
  rw [more,tokens]
  cases here : w.consumers .scheduler with
  | scan dpipe =>
    rw [here] at covered
    obtain ⟨bound,ahead⟩ := covered
    constructor
    · omega
    · intro empty
      have none_ahead := ahead fun nChannel later known =>
        emptied nChannel (empty nChannel later known)
      omega
  | _ =>
    rw [here] at covered
    simp only at covered
    omega

end Scheduler

section Infer

private theorem goto_woken (woken : Woken w) (tasks : rest.gtaskque = w.gtaskque)
    (tokens : rest.gsemtInfer = w.gsemtInfer) (consumers : rest.consumers = w.consumers)
    (here : w.consumers who = before)
    (posts : who = .scheduler → ∀ number, pc.posting number = before.posting number)
    (sleeps : ∀ number, who = .infer number → pc = .wait → w.gtaskque number = []) :
    Woken (rest.goto who pc) := by
  intro number waiting
  change (rest.gtaskque number).length ≤
    rest.gsemtInfer number + ((rest.goto who pc).consumers .scheduler).posting number
  rw [tasks,tokens]
  cases who with
  | scheduler =>
    have asleep : w.consumers (.infer number) = .wait := by
      rw [← consumers]
      rwa [goto_of_ne rest pc (by simp)] at waiting
    have bound := woken number asleep
    rw [goto_self,posts rfl number,← here]
    exact bound
  | infer other =>
    by_cases mine : number = other
    · subst mine
      rw [goto_self] at waiting
      rw [sleeps number rfl waiting]
      exact Nat.zero_le _
    · have asleep : w.consumers (.infer number) = .wait := by
        rw [← consumers]
        rwa [goto_of_ne rest pc (by simpa using mine)] at waiting
      rw [goto_of_ne rest pc (by simp),consumers]
      exact woken number asleep

private theorem move_woken (woken : Woken w) (tasks : rest.gtaskque = w.gtaskque)
    (tokens : rest.gsemtInfer = w.gsemtInfer) (consumers : rest.consumers = w.consumers)
    (here : w.consumers who = before) (silent : ∀ number, before.posting number = 0)
    (after : ∀ number, pc.posting number = 0) (awake : pc ≠ .wait) :
    Woken (rest.goto who pc) := by
  apply goto_woken woken tasks tokens consumers here
  · intro _ number
    rw [silent,after]
  · intro number _ sleeps
    exact absurd sleeps awake

private theorem wakeInfer_woken {number : Nat} (woken : Woken w) :
    Woken ({w with gsemtInfer := update w.gsemtInfer number (w.gsemtInfer number - 1)}.goto
      (.infer number) .drain) := by
  intro other waiting
  by_cases mine : other = number
  · subst mine
    rw [goto_self] at waiting
    contradiction
  · rw [goto_of_ne _ _ (by simpa using mine)] at waiting
    have bound := woken other waiting
    rw [goto_of_ne _ _ (by simp)]
    change _ ≤ update w.gsemtInfer number _ other + _
    rw [Function.update_of_ne mine]
    exact bound

private theorem route_woken {dpipe buffer : Nat} (woken : Woken w)
    (here : w.consumers .scheduler = .route dpipe buffer) :
    Woken (w.route .scheduler dpipe buffer) := by
  unfold World.route
  simp only
  generalize (if ((w.channels dpipe).buffers buffer).channel = 0 then 1 else 0) = number
  intro other waiting
  rw [goto_of_ne _ _ (by simp)] at waiting
  have bound := woken other waiting
  rw [here] at bound
  change (w.gtaskque other).length ≤ w.gsemtInfer other + 0 at bound
  rw [goto_self]
  change (update w.gtaskque number _ other).length ≤
    w.gsemtInfer other + if number = other then 1 else 0
  by_cases mine : other = number
  · subst mine
    rw [Function.update_self,if_pos rfl,List.length_append,List.length_singleton]
    omega
  · rw [Function.update_of_ne mine,if_neg (Ne.symm mine)]
    exact bound

private theorem postInfer_woken {dpipe number : Nat} (woken : Woken w)
    (here : w.consumers .scheduler = .postInfer dpipe number) :
    Woken (w.postInfer .scheduler dpipe number) := by
  unfold World.postInfer
  simp only
  intro other waiting
  rw [goto_of_ne _ _ (by simp)] at waiting
  have bound := woken other waiting
  rw [here] at bound
  change _ ≤ _ + (if number = other then 1 else 0) at bound
  rw [goto_self]
  change (w.gtaskque other).length ≤ update w.gsemtInfer number _ other + 0
  by_cases mine : other = number
  · subst mine
    rw [if_pos rfl] at bound
    rw [Function.update_self]
    exact bound
  · rw [if_neg (Ne.symm mine)] at bound
    rw [Function.update_of_ne mine]
    exact bound

private theorem task_woken {task : InferTask} {left : List InferTask} (woken : Woken w)
    (here : w.consumers who = .drain) (tasked : w.gtaskque who.instance = task :: left) :
    Woken ({w with gtaskque := update w.gtaskque who.instance left}.goto who
      (.createMat task.dpipe task.dbuffer)) := by
  have moved : Woken (w.goto who (.createMat task.dpipe task.dbuffer)) :=
    move_woken woken rfl rfl rfl here (fun _ => rfl) (fun _ => rfl) (by simp)
  intro number waiting
  refine Nat.le_trans ?_ (moved number waiting)
  change (update w.gtaskque who.instance left number).length ≤ (w.gtaskque number).length
  by_cases mine : number = who.instance
  · rw [mine,Function.update_self,tasked,List.length_cons]
    omega
  · rw [Function.update_of_ne mine]

end Infer

section Runs

variable [CvMat Mat] {ie : Nat → InferenceEngine (Picture Mat)} {action : Action Mat}
  {events : List (Event Mat)} {pool : List (Nat × Nat)}

private theorem step_covered (covered : (w.consumers .scheduler).Covered cfg w)
    (stepped : Stepped cfg ie w action next events) :
    (next.consumers .scheduler).Covered cfg next := by
  have same : SameTokens w w := sameTokens rfl
  cases stepped with
  | channel number acted after emitted posted inside stepped =>
    exact channel_covered covered inside stepped
  | wakeScheduler here token =>
    rw [goto_self]
    exact wake_covered covered here token
  | wakeInfer number here token =>
    exact goto_covered covered (sameTokens rfl) here fun _ => id
  | load who dpipe buffer lists here inside loaded => exact load_covered covered inside loaded _
  | skip who dpipe here inside unfilled balanced =>
    exact goto_covered covered same here fun _ ahead => skip_covered ahead unfilled
  | rest who dpipe here outside =>
    exact goto_covered covered same here fun _ ahead => rest_covered ahead outside
  | route who dpipe buffer here =>
    exact goto_covered covered (sameTokens rfl) here fun _ => id
  | postInfer who dpipe number here =>
    exact goto_covered covered (sameTokens rfl) here fun _ enough =>
      covered_of_le enough _
  | drained who here untasked => exact goto_covered covered same here fun _ => id
  | task who task left here tasked =>
    exact goto_covered covered (sameTokens rfl) here fun _ => id
  | createMat who dpipe buffer here => exact goto_covered covered same here fun _ => id
  | put who dpipe buffer frame here =>
    exact goto_covered covered (put_sameTokens w dpipe buffer) here fun _ => id
  | readChannel who dpipe buffer frame frameno here =>
    exact goto_covered covered same here fun _ => id
  | readFrameno who dpipe buffer frame channel here =>
    exact goto_covered covered same here fun _ => id
  | insertImage who waited dpipe buffer frame channel frameno detector objects faceret here returns =>
    exact goto_covered covered (sameTokens rfl) here fun _ => id
  | resume who dpipe here =>
    exact goto_covered covered same here fun _ enough => covered_of_le enough _
  | push who dpipe object objects here tracked =>
    exact goto_covered covered (sameTokens rfl) here fun _ => id
  | count who dpipe object objects here counts =>
    exact goto_covered covered (sameTokens rfl) here fun _ => id
  | postResult who dpipe object objects here =>
    exact goto_covered covered (sameTokens rfl) here fun _ => id
  | tracker number token => exact covered

private theorem step_woken (roles : Roles cfg w) (woken : Woken w)
    (stepped : Stepped cfg ie w action next events) : Woken next := by
  cases stepped with
  | channel number acted after emitted posted inside stepped => exact woken
  | wakeScheduler here token =>
    exact move_woken woken rfl rfl rfl here (fun _ => rfl) (fun _ => rfl) (by simp)
  | wakeInfer number here token => exact wakeInfer_woken woken
  | load who dpipe buffer lists here inside loaded =>
    cases cfg.workloadBalance with
    | true => exact move_woken woken rfl rfl rfl here (fun _ => rfl) (fun _ => rfl) (by simp)
    | false => exact move_woken woken rfl rfl rfl here (fun _ => rfl) (fun _ => rfl) (by simp)
  | rest who dpipe here outside =>
    obtain rfl := roles_schedules roles here trivial
    exact goto_woken woken rfl rfl rfl here (fun _ _ => rfl) (by simp)
  | route who dpipe buffer here =>
    obtain rfl := roles_schedules roles here trivial
    exact route_woken woken here
  | postInfer who dpipe number here =>
    obtain rfl := roles_schedules roles here trivial
    exact postInfer_woken woken here
  | drained who here untasked =>
    refine goto_woken woken rfl rfl rfl here (fun _ _ => rfl) ?_
    intro number mine _
    rw [mine] at untasked
    exact untasked
  | task who task left here tasked => exact task_woken woken here tasked
  | resume who dpipe here =>
    cases who with
    | scheduler =>
      exact move_woken woken rfl rfl rfl here (fun _ => rfl) (fun _ => rfl)
        (by simp [Consumer.resume])
    | infer number =>
      exact move_woken woken rfl rfl rfl here (fun _ => rfl) (fun _ => rfl)
        (by simp [Consumer.resume])
  | tracker number token => exact woken
  | _ => exact move_woken woken rfl rfl rfl ‹_› (fun _ => rfl) (fun _ => rfl) (by simp)

structure Awake (cfg : Config) (w : World Mat) : Prop where
  sound : Sound cfg.pool w
  roles : Roles cfg w
  covered : (w.consumers .scheduler).Covered cfg w
  woken : Woken w

omit [CvMat Mat] in
private theorem start_awake (cfg : Config) (detectors : Nat → Detector (Picture Mat))
    (blank : Mat) : Awake cfg (start cfg detectors blank) := by
  refine ⟨start_sound cfg detectors blank,start_roles cfg detectors blank,?_,?_⟩
  · exact announced_nonpos fun _ _ => rfl
  · intro number waiting
    exact Nat.zero_le _

private theorem run_awake {detectors : Nat → Detector (Picture Mat)} {blank : Mat}
    {actions : List (Action Mat)} {trace : List (Event Mat)}
    (ran : (pipeline cfg ie).run (start cfg detectors blank) actions = some (w,trace)) :
    Awake cfg w := by
  refine Machine.run_invariant (fun state _ => Awake cfg state) ?_
    (start_awake cfg detectors blank) ran
  intro state _ action next emitted awake stepped
  have spec := step_stepped stepped
  exact ⟨step_sound awake.sound spec,step_roles awake.sound awake.roles spec,
    step_covered awake.covered spec,step_woken awake.roles awake.woken spec⟩

omit [CvMat Mat] in
private theorem awake_filled (awake : Awake cfg w) (waiting : w.consumers .scheduler = .wait)
    (blocked : w.gNewtaskAvaiable = 0)
    (posted : ∀ nChannel, nChannel < cfg.c → (w.channels nChannel).decoder ≠ .post)
    {nChannel : Nat} (inside : nChannel < cfg.c) :
    (w.channels nChannel).dpipe.mOutPipe = [] := by
  have covered := awake.covered
  rw [waiting] at covered
  change w.announced cfg.c ≤ w.gNewtaskAvaiable at covered
  have bound := announced_filled posted inside
  apply List.eq_nil_of_length_eq_zero
  omega

omit [CvMat Mat] in
private theorem awake_untasked (awake : Awake cfg w) {number : Nat}
    (waiting : w.consumers (.infer number) = .wait) (blocked : w.gsemtInfer number = 0)
    (posted : ∀ dpipe, w.consumers .scheduler ≠ .postInfer dpipe number) :
    w.gtaskque number = [] := by
  have silent : (w.consumers .scheduler).posting number = 0 := by
    cases here : w.consumers .scheduler with
    | postInfer dpipe other =>
      have different : other ≠ number := by
        intro same
        rw [same] at here
        exact posted dpipe here
      exact if_neg different
    | _ => rfl
  have bound := awake.woken number waiting
  apply List.eq_nil_of_length_eq_zero
  omega

end Runs

end Wakeups

section Samples

def balancedChannels : Config := ⟨false,true,2,100,2⟩

/-- A frame of channel 1 on its way through the scheduler and instance 0. -/
def balancedFrame : List (Action Size) :=
  storeFrame 1 ++ List.replicate 6 (.consumer .scheduler) ++
    List.replicate 4 (.consumer (.infer 0)) ++
      [.readChannel (.infer 0),.readFrameno (.infer 0),.insertImage (.infer 0) .ok,
        .consumer (.infer 0),.consumer (.infer 0)]

end Samples

end VideoAnalytics.Pipeline
