import VideoAnalytics.PipelineThreads

/-! The frames of each channel on their way to InsertImage: first in a thread's
hands, then in the tasks of the channel's instance, then with the scheduler and
last in the filled list of the pipe, oldest first. -/
namespace VideoAnalytics.Pipeline

open Function (update)

section Underway

variable {Mat : Type}

def Event.storedIn (nChannel : Nat) : Event Mat → Option (Picture Mat)
  | .stored number frame => if number = nChannel then some frame else none
  | _ => none

def Event.insertedOf (nChannel : Nat) : Event Mat → Option (Picture Mat)
  | .inserted _ frame _ _ => if frame.channel = nChannel then some frame else none
  | _ => none

def storedFrames (nChannel : Nat) (trace : List (Event Mat)) : List (Picture Mat) :=
  trace.filterMap (Event.storedIn nChannel)

def insertedFrames (nChannel : Nat) (trace : List (Event Mat)) : List (Picture Mat) :=
  trace.filterMap (Event.insertedOf nChannel)

def World.picture (w : World Mat) (nChannel buffer : Nat) : Picture Mat :=
  ((w.channels nChannel).buffers buffer).imgbuf

/-- The frame of a channel in the hands of a thread. -/
def World.inHand (w : World Mat) (nChannel : Nat) : ConsumerPc Mat → List (Picture Mat)
  | .route dpipe buffer => if dpipe = nChannel then [w.picture nChannel buffer] else []
  | .createMat dpipe buffer => if dpipe = nChannel then [w.picture nChannel buffer] else []
  | .put dpipe _ frame => if dpipe = nChannel then [frame] else []
  | .insert dpipe _ frame _ _ => if dpipe = nChannel then [frame] else []
  | _ => []

def World.tasked (w : World Mat) (nChannel : Nat) : List (Picture Mat) :=
  ((w.gtaskque (instanceOf nChannel)).filter fun task => task.dpipe = nChannel).map fun task =>
    w.picture nChannel task.dbuffer

def World.filled (w : World Mat) (nChannel : Nat) : List (Picture Mat) :=
  (w.channels nChannel).dpipe.mOutPipe.map (w.picture nChannel)

/-- The frames that are stored and not yet inserted. -/
def World.underway (w : World Mat) (nChannel : Nat) : List (Picture Mat) :=
  w.inHand nChannel (w.consumers (.infer (instanceOf nChannel))) ++ w.tasked nChannel ++
    w.inHand nChannel (w.consumers .scheduler) ++ w.filled nChannel

@[simp] theorem storedFrames_append (nChannel : Nat) (first second : List (Event Mat)) :
    storedFrames nChannel (first ++ second) =
      storedFrames nChannel first ++ storedFrames nChannel second := List.filterMap_append

@[simp] theorem insertedFrames_append (nChannel : Nat) (first second : List (Event Mat)) :
    insertedFrames nChannel (first ++ second) =
      insertedFrames nChannel first ++ insertedFrames nChannel second := List.filterMap_append

variable {w rest next : World Mat} {who : Consumer} {pc before : ConsumerPc Mat}
  {pool : List (Nat × Nat)} {nChannel : Nat}

private theorem inHand_congr
    (same : ∀ buffer, next.picture nChannel buffer = w.picture nChannel buffer)
    (pc : ConsumerPc Mat) : next.inHand nChannel pc = w.inHand nChannel pc := by
  unfold World.inHand
  cases pc with
  | route dpipe buffer => simp only [same]
  | createMat dpipe buffer => simp only [same]
  | _ => rfl

/-- Only other members of the world have changed. -/
structure SameFrames (w rest : World Mat) : Prop where
  buffers : ∀ number, (rest.channels number).buffers = (w.channels number).buffers
  filled : ∀ number, (rest.channels number).dpipe.mOutPipe = (w.channels number).dpipe.mOutPipe
  tasks : rest.gtaskque = w.gtaskque
  consumers : rest.consumers = w.consumers

theorem sameFrames (same : (rest.channels,rest.gtaskque,rest.consumers) =
    (w.channels,w.gtaskque,w.consumers)) : SameFrames w rest := by
  simp only [Prod.mk.injEq] at same
  obtain ⟨channels,tasks,consumers⟩ := same
  refine ⟨?_,?_,tasks,consumers⟩
  · intro number
    rw [channels]
  · intro number
    rw [channels]

theorem put_sameFrames (w : World Mat) (dpipe buffer : Nat) :
    SameFrames w (w.setChannel dpipe {w.channels dpipe with
      dpipe := (w.channels dpipe).dpipe.put buffer}) := by
  refine ⟨(lists_quiet w .scheduler dpipe _ .wait).buffers,?_,rfl,rfl⟩
  intro number
  by_cases mine : number = dpipe
  · rw [mine,setChannel_self]
    rfl
  · rw [setChannel_of_ne w _ mine]

section Goto

variable (same : SameFrames w rest)

include same

private theorem goto_picture (buffer : Nat) :
    (rest.goto who pc).picture nChannel buffer = w.picture nChannel buffer := by
  unfold World.picture
  rw [goto_channels,same.buffers]

private theorem goto_filled : (rest.goto who pc).filled nChannel = w.filled nChannel := by
  unfold World.filled
  rw [goto_channels,same.filled]
  apply List.map_congr_left
  exact fun buffer _ => goto_picture same buffer

private theorem goto_tasked : (rest.goto who pc).tasked nChannel = w.tasked nChannel := by
  unfold World.tasked
  simp only [goto_picture same]
  change ((rest.gtaskque _).filter _).map _ = _
  rw [same.tasks]

private theorem goto_inHand_self : (rest.goto who pc).inHand nChannel
    ((rest.goto who pc).consumers who) = w.inHand nChannel pc := by
  rw [inHand_congr (goto_picture same),goto_self]

private theorem goto_inHand_of_ne {other : Consumer} (different : other ≠ who) :
    (rest.goto who pc).inHand nChannel ((rest.goto who pc).consumers other) =
      w.inHand nChannel (w.consumers other) := by
  rw [inHand_congr (goto_picture same),goto_of_ne rest pc different,same.consumers]

private theorem goto_underway (here : w.consumers who = before)
    (keeps : w.inHand nChannel pc = w.inHand nChannel before) :
    (rest.goto who pc).underway nChannel = w.underway nChannel := by
  have hands : ∀ other, (rest.goto who pc).inHand nChannel ((rest.goto who pc).consumers other) =
      w.inHand nChannel (w.consumers other) := by
    intro other
    by_cases mine : other = who
    · rw [mine,goto_inHand_self same,here,keeps]
    · exact goto_inHand_of_ne same mine
  unfold World.underway
  rw [hands,hands,goto_tasked same,goto_filled same]

private theorem insert_underway {cfg : Config} {dpipe buffer : Nat} {frame : Picture Mat}
    {channel frameno : Option Int} (roles : Roles cfg w)
    (here : w.consumers who = .insert dpipe buffer frame channel frameno)
    (empty : w.inHand nChannel pc = []) :
    w.underway nChannel = (if dpipe = nChannel then [frame] else []) ++
      (rest.goto who pc).underway nChannel := by
  have held : w.inHand nChannel (w.consumers who) = if dpipe = nChannel then [frame] else [] := by
    rw [here]
    rfl
  unfold World.underway
  rw [goto_tasked same,goto_filled same]
  cases build : cfg.workloadBalance with
  | true =>
    have own := (roles.balanced build).consumers who
    rw [here] at own
    cases who with
    | scheduler => contradiction
    | infer number =>
      have instance_number : instanceOf dpipe = number := own
      rw [goto_inHand_of_ne same (show Consumer.scheduler ≠ .infer number by simp)]
      by_cases mine : instanceOf nChannel = number
      · rw [mine,goto_inHand_self same,empty,held]
        simp
      · have apart : dpipe ≠ nChannel := by
          intro equal
          rw [← equal] at mine
          exact mine instance_number
        rw [goto_inHand_of_ne same (by simpa using mine),if_neg apart]
        simp
  | false =>
    obtain ⟨unbalanced,untasked⟩ := roles.unbalanced build
    have none_tasked : w.tasked nChannel = [] := by
      unfold World.tasked
      rw [untasked]
      rfl
    have waiting := unbalanced.waiting
    cases who with
    | infer number =>
      rw [waiting] at here
      contradiction
    | scheduler =>
      rw [goto_inHand_of_ne same (by simp),goto_inHand_self same,empty,held,waiting,none_tasked]
      simp [World.inHand]

end Goto

section Channels

variable {number posted : Nat} {channel after : Channel Mat} {action : Action Mat}
  {events : List (Event Mat)}

theorem stepped_inserted (stepped : channel.Stepped number action after events posted) :
    insertedFrames nChannel events = [] := by
  cases stepped with
  | store buffer here => rfl
  | _ => rfl

private theorem stepped_filled (stepped : channel.Stepped number action after events posted)
    (kept : ∀ buffer ∈ channel.dpipe.mOutPipe, after.buffers buffer = channel.buffers buffer) :
    after.dpipe.mOutPipe.map (fun buffer => (after.buffers buffer).imgbuf) =
      channel.dpipe.mOutPipe.map (fun buffer => (channel.buffers buffer).imgbuf) ++
        storedFrames number events := by
  have same : channel.dpipe.mOutPipe.map (fun buffer => (after.buffers buffer).imgbuf) =
      channel.dpipe.mOutPipe.map (fun buffer => (channel.buffers buffer).imgbuf) := by
    apply List.map_congr_left
    intro buffer member
    rw [kept buffer member]
  have nothing : channel.dpipe.mOutPipe.map (fun buffer => (after.buffers buffer).imgbuf) =
      channel.dpipe.mOutPipe.map (fun buffer => (channel.buffers buffer).imgbuf) ++
        storedFrames number [] := by
    rw [same]
    exact (List.append_nil _).symm
  cases stepped with
  | get pixels buffer lists here got =>
    simp only [(DualPipe.Lists.get_eq got).2]
    exact nothing
  | store buffer here =>
    simp [storedFrames,Event.storedIn,DualPipe.Lists.store]
  | _ => exact nothing

theorem stepped_elsewhere (stepped : channel.Stepped number action after events posted)
    (different : nChannel ≠ number) : storedFrames nChannel events = [] := by
  cases stepped with
  | store buffer here => simp [storedFrames,Event.storedIn,Ne.symm different]
  | _ => rfl

theorem stepped_length (stepped : channel.Stepped number action after events posted) :
    after.dpipe.mOutPipe.length =
      channel.dpipe.mOutPipe.length + (storedFrames number events).length := by
  cases stepped with
  | get pixels buffer lists here got =>
    rw [(DualPipe.Lists.get_eq got).2]
    rfl
  | store buffer here => simp [storedFrames,Event.storedIn,DualPipe.Lists.store]
  | _ => rfl

private theorem channel_underway (sound : Sound pool w)
    (stepped : (w.channels number).Stepped number action after events posted) :
    w.underway nChannel ++ storedFrames nChannel events =
      insertedFrames nChannel events ++
        ((w.setChannel number after).post posted).underway nChannel := by
  have kept : ∀ place buffer, place.ready = true → (nChannel,buffer) ∈ w.contents place →
      ((w.setChannel number after).post posted).picture nChannel buffer =
        w.picture nChannel buffer := by
    intro place buffer ready member
    have same := stepped_ready sound stepped place (nChannel,buffer) ready member
    unfold World.picture
    rw [post_channels,same]
  have hands : ∀ who, ((w.setChannel number after).post posted).inHand nChannel
      (w.consumers who) = w.inHand nChannel (w.consumers who) := by
    intro who
    have held : ∀ buffer, (nChannel,buffer) ∈ (w.consumers who).held → _ :=
      fun buffer member => kept (.consumer who) buffer rfl member
    generalize w.consumers who = pc at held
    cases pc with
    | route dpipe buffer =>
      by_cases here : dpipe = nChannel
      · simp only [World.inHand,if_pos here]
        rw [held buffer (by simp [ConsumerPc.held,here])]
      · simp only [World.inHand,if_neg here]
    | createMat dpipe buffer =>
      by_cases here : dpipe = nChannel
      · simp only [World.inHand,if_pos here]
        rw [held buffer (by simp [ConsumerPc.held,here])]
      · simp only [World.inHand,if_neg here]
    | _ => rfl
  have tasked : ((w.setChannel number after).post posted).tasked nChannel = w.tasked nChannel := by
    apply List.map_congr_left
    intro task member
    obtain ⟨queued,mine⟩ := List.mem_filter.mp member
    apply kept (.task (instanceOf nChannel)) task.dbuffer rfl
    refine List.mem_map.mpr ⟨task,queued,?_⟩
    rw [of_decide_eq_true mine]
  have filled : ((w.setChannel number after).post posted).filled nChannel =
      w.filled nChannel ++ storedFrames nChannel events := by
    by_cases here : nChannel = number
    · subst here
      unfold World.filled World.picture
      rw [post_channels,setChannel_self]
      apply stepped_filled stepped
      intro buffer member
      have same := stepped_ready sound stepped (.filled nChannel) (nChannel,buffer) rfl
        (List.mem_map_of_mem member)
      rwa [setChannel_self] at same
    · rw [stepped_elsewhere stepped here,List.append_nil]
      unfold World.filled World.picture
      rw [post_channels,setChannel_of_ne w after here]
  rw [stepped_inserted stepped,List.nil_append]
  unfold World.underway
  rw [tasked,filled,← List.append_assoc]
  congr 2
  · congr 1
    · congr 1
      exact (hands _).symm
    · exact (hands _).symm

end Channels

section Consumers

private theorem load_underway {dpipe buffer : Nat} {lists : DualPipe.Lists}
    (here : w.consumers .scheduler = .scan dpipe)
    (loaded : (w.channels dpipe).dpipe.load = some (buffer,lists))
    (takes : pc = .route dpipe buffer ∨ pc = .createMat dpipe buffer) :
    ((w.setChannel dpipe {w.channels dpipe with dpipe := lists}).goto .scheduler pc).underway
      nChannel = w.underway nChannel := by
  obtain ⟨taken,-⟩ := DualPipe.Lists.load_eq loaded
  let next : World Mat := (w.setChannel dpipe {w.channels dpipe with dpipe := lists}).goto .scheduler pc
  have pictures : ∀ number, next.picture nChannel number = w.picture nChannel number := by
    intro number
    have same := (lists_quiet w .scheduler dpipe lists pc).buffers nChannel
    unfold World.picture
    rw [show (next.channels nChannel).buffers = _ from same]
  have inferring : next.inHand nChannel (next.consumers (.infer (instanceOf nChannel))) =
      w.inHand nChannel (w.consumers (.infer (instanceOf nChannel))) := by
    rw [inHand_congr pictures,
      show next.consumers (.infer (instanceOf nChannel)) = _ from goto_of_ne _ pc (by simp)]
    rfl
  have tasked : next.tasked nChannel = w.tasked nChannel := by
    apply List.map_congr_left
    exact fun task _ => pictures task.dbuffer
  have hands : next.inHand nChannel (next.consumers .scheduler) =
      if dpipe = nChannel then [w.picture nChannel buffer] else [] := by
    rw [inHand_congr pictures,show next.consumers .scheduler = pc from goto_self _ _ pc]
    rcases takes with rfl | rfl
    · rfl
    · rfl
  have filled : w.filled nChannel =
      (if dpipe = nChannel then [w.picture nChannel buffer] else []) ++ next.filled nChannel := by
    unfold World.filled
    rw [List.map_congr_left fun number _ => pictures number]
    change _ = _ ++ List.map _ ((w.setChannel dpipe _).channels nChannel).dpipe.mOutPipe
    by_cases mine : dpipe = nChannel
    · subst mine
      rw [if_pos rfl,setChannel_self,taken]
      rfl
    · rw [if_neg mine,setChannel_of_ne w _ (Ne.symm mine)]
      rfl
  change next.underway nChannel = _
  unfold World.underway
  rw [inferring,tasked,hands,filled,here]
  simp [World.inHand]

private theorem tasked_queue (w : World Mat) (nChannel : Nat) : w.tasked nChannel =
    ((w.gtaskque (instanceOf nChannel)).filter fun task => task.dpipe = nChannel).map fun task =>
      w.picture nChannel task.dbuffer := rfl

private theorem route_underway {dpipe buffer : Nat} (sound : Sound pool w)
    (here : w.consumers .scheduler = .route dpipe buffer) :
    (w.route .scheduler dpipe buffer).underway nChannel = w.underway nChannel := by
  let next : World Mat := w.route .scheduler dpipe buffer
  have queues : next.gtaskque = update w.gtaskque (instanceOf dpipe)
      (w.gtaskque (instanceOf dpipe) ++ [⟨dpipe,buffer⟩]) := by
    change update w.gtaskque _ _ = _
    rw [routed_channel sound here]
  have inferring : next.consumers (.infer (instanceOf nChannel)) =
      w.consumers (.infer (instanceOf nChannel)) := goto_of_ne _ _ (by simp)
  have hands : next.inHand nChannel (next.consumers .scheduler) = [] := by
    rw [show next.consumers .scheduler = _ from goto_self _ _ _]
    rfl
  have tasked : next.tasked nChannel =
      w.tasked nChannel ++ w.inHand nChannel (w.consumers .scheduler) := by
    rw [tasked_queue,queues,here]
    by_cases same : instanceOf nChannel = instanceOf dpipe
    · rw [same,Function.update_self,List.filter_append,List.map_append,tasked_queue,same]
      congr 1
      by_cases mine : dpipe = nChannel
      · simp [World.inHand,mine,World.picture,next,World.route,World.goto]
      · simp [World.inHand,mine]
    · have apart : dpipe ≠ nChannel := by
        intro equal
        rw [equal] at same
        exact same rfl
      rw [Function.update_of_ne same,tasked_queue]
      simp [World.inHand,apart,World.picture,next,World.route,World.goto]
  change next.underway nChannel = _
  unfold World.underway
  rw [tasked,hands,inferring,List.append_nil]
  simp only [List.append_assoc]
  rfl

private theorem task_underway {task : InferTask} {left : List InferTask}
    (here : w.consumers (.infer (instanceOf task.dpipe)) = .drain)
    (tasked : w.gtaskque (instanceOf task.dpipe) = task :: left) :
    ({w with gtaskque := update w.gtaskque (instanceOf task.dpipe) left}.goto
      (.infer (instanceOf task.dpipe)) (.createMat task.dpipe task.dbuffer)).underway nChannel =
        w.underway nChannel := by
  let next : World Mat := {w with gtaskque := update w.gtaskque (instanceOf task.dpipe) left}.goto
    (.infer (instanceOf task.dpipe)) (.createMat task.dpipe task.dbuffer)
  have scheduling : next.consumers .scheduler = w.consumers .scheduler := goto_of_ne _ _ (by simp)
  have inferred : next.inHand nChannel (next.consumers (.infer (instanceOf nChannel))) ++
      next.tasked nChannel = w.inHand nChannel (w.consumers (.infer (instanceOf nChannel))) ++
        w.tasked nChannel := by
    rw [tasked_queue,tasked_queue]
    change _ ++ List.map _ (List.filter _ (update w.gtaskque _ left _)) = _
    by_cases same : instanceOf nChannel = instanceOf task.dpipe
    · rw [same,Function.update_self,here,tasked,
        show next.consumers (.infer (instanceOf task.dpipe)) = _ from goto_self _ _ _]
      by_cases mine : task.dpipe = nChannel
      · simp [World.inHand,mine,World.picture,next,World.goto]
      · simp [World.inHand,mine,World.picture,next,World.goto]
    · have apart : task.dpipe ≠ nChannel := by
        intro equal
        rw [equal] at same
        exact same rfl
      have other : Consumer.infer (instanceOf nChannel) ≠ .infer (instanceOf task.dpipe) := by
        simpa using same
      rw [Function.update_of_ne same,
        show next.consumers (.infer (instanceOf nChannel)) = _ from goto_of_ne _ _ other]
      rfl
  change next.underway nChannel = _
  unfold World.underway
  rw [inferred,scheduling]
  rfl

variable [CvMat Mat] {cfg : Config} {ie : Nat → InferenceEngine (Picture Mat)}
  {action : Action Mat} {events : List (Event Mat)}

theorem step_underway (sound : Sound pool w) (roles : Roles cfg w)
    (stepped : Stepped cfg ie w action next events) (nChannel : Nat) :
    w.underway nChannel ++ storedFrames nChannel events =
      insertedFrames nChannel events ++ next.underway nChannel := by
  have quiet : ∀ after : World Mat, after.underway nChannel = w.underway nChannel →
      w.underway nChannel ++ storedFrames nChannel [] =
        insertedFrames nChannel [] ++ after.underway nChannel := by
    intro after same
    rw [same]
    exact List.append_nil _
  cases stepped with
  | channel number acted after emitted posted inside stepped => exact channel_underway sound stepped
  | wakeScheduler here token => exact quiet _ (goto_underway (sameFrames rfl) here rfl)
  | wakeInfer number here token => exact quiet _ (goto_underway (sameFrames rfl) here rfl)
  | load who dpipe buffer lists here inside loaded =>
    obtain rfl := roles_schedules roles here trivial
    refine quiet _ (load_underway here loaded ?_)
    split
    · exact .inl rfl
    · exact .inr rfl
  | skip who dpipe here inside unfilled balanced =>
    exact quiet _ (goto_underway (sameFrames rfl) here rfl)
  | rest who dpipe here outside => exact quiet _ (goto_underway (sameFrames rfl) here rfl)
  | route who dpipe buffer here =>
    obtain rfl := roles_schedules roles here trivial
    exact quiet _ (route_underway sound here)
  | postInfer who dpipe number here => exact quiet _ (goto_underway (sameFrames rfl) here rfl)
  | drained who here untasked => exact quiet _ (goto_underway (sameFrames rfl) here rfl)
  | task who task left here tasked =>
    obtain rfl := roles_task roles here tasked
    exact quiet _ (task_underway here tasked)
  | createMat who dpipe buffer here =>
    refine quiet _ (goto_underway (sameFrames rfl) here ?_)
    by_cases mine : dpipe = nChannel
    · simp [World.inHand,mine,World.picture]
    · simp [World.inHand,mine]
  | put who dpipe buffer frame here =>
    exact quiet _ (goto_underway (put_sameFrames w dpipe buffer) here rfl)
  | readChannel who dpipe buffer frame frameno here =>
    exact quiet _ (goto_underway (sameFrames rfl) here rfl)
  | readFrameno who dpipe buffer frame channel here =>
    exact quiet _ (goto_underway (sameFrames rfl) here rfl)
  | insertImage who waited dpipe buffer frame channel frameno detector objects faceret here returns =>
    have own : frame.channel = dpipe := by
      have copied := sound.copied who
      rw [here] at copied
      exact copied.1
    have same : SameFrames w {w with
        gDetector := update w.gDetector who.instance detector
        objects := if who = Consumer.scheduler then objects else w.objects} :=
      sameFrames rfl
    have handed : w.underway nChannel = (if dpipe = nChannel then [frame] else []) ++
        (w.inserted who dpipe detector objects faceret).underway nChannel :=
      insert_underway same roles here rfl
    have stored : storedFrames nChannel [Event.inserted who frame channel frameno,
        .delivered (handled faceret objects)] = [] := rfl
    have inserted : insertedFrames nChannel [Event.inserted who frame channel frameno,
        .delivered (handled faceret objects)] =
          if dpipe = nChannel then [frame] else [] := by
      by_cases mine : dpipe = nChannel
      · simp [insertedFrames,Event.insertedOf,own,mine]
      · have apart : (dpipe : Int) ≠ nChannel := by omega
        simp [insertedFrames,Event.insertedOf,own,mine,apart]
    rw [stored,inserted,List.append_nil]
    exact handed
  | resume who dpipe here =>
    refine quiet _ (goto_underway (sameFrames rfl) here ?_)
    cases who with
    | scheduler => rfl
    | infer number => rfl
  | push who dpipe object objects here tracked =>
    exact quiet _ (goto_underway (sameFrames rfl) here rfl)
  | count who dpipe object objects here counts =>
    exact quiet _ (goto_underway (sameFrames rfl) here rfl)
  | postResult who dpipe object objects here =>
    exact quiet _ (goto_underway (sameFrames rfl) here rfl)
  | tracker number token => exact quiet _ rfl

end Consumers

end Underway

end VideoAnalytics.Pipeline
