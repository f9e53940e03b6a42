import VideoAnalytics.PipelineBuffers
import Mathlib.Data.Prod.Basic

/-! In every interleaving each buffer has one owner, and one that a decoder has
stored holds a picture together with its own channel and number. -/
namespace VideoAnalytics.Pipeline

open Function (update)

section Buffers

variable {Mat : Type}

section Consumers

variable {pool : List (Nat × Nat)} {w next : World Mat} {who : Consumer}

/-- Only this consumer has moved on, and no buffer was written. -/
structure Quiet (w next : World Mat) (who : Consumer) : Prop where
  buffers : ∀ nChannel, (next.channels nChannel).buffers = (w.channels nChannel).buffers
  decoders : ∀ nChannel, (next.channels nChannel).decoder = (w.channels nChannel).decoder
  others : ∀ other, other ≠ who → next.consumers other = w.consumers other

private theorem copied_congr {pc : ConsumerPc Mat}
    (same : ∀ nChannel, (next.channels nChannel).buffers = (w.channels nChannel).buffers)
    (copied : w.Copied pc) : next.Copied pc := by
  cases pc with
  | put dpipe buffer frame =>
    unfold World.Copied at copied ⊢
    simp only at copied ⊢
    rwa [same]
  | insert dpipe buffer frame channel frameno =>
    unfold World.Copied at copied ⊢
    simp only at copied ⊢
    rwa [same]
  | _ => trivial

private theorem quiet_sound (sound : Sound pool w) (quiet : Quiet w next who) (moved : Moved w next)
    (copied : w.Copied (next.consumers who)) : Sound pool next := by
  refine ⟨moved_parts moved sound.parts,moved_labelled moved sound ?_,?_,?_⟩
  · intro place buffer ready member
    have labelled := sound.labelled place buffer ready member
    unfold World.Labelled at labelled ⊢
    rwa [quiet.buffers]
  · intro nChannel
    have written := sound.written nChannel
    unfold Channel.Written at written ⊢
    rwa [quiet.decoders,quiet.buffers]
  · intro other
    apply copied_congr quiet.buffers
    by_cases same : other = who
    · rwa [same]
    · rw [quiet.others other same]
      exact sound.copied other

private theorem goto_quiet (w : World Mat) (who : Consumer) (pc : ConsumerPc Mat) :
    Quiet w (w.goto who pc) who :=
  ⟨fun _ => rfl,fun _ => rfl,fun _ different => goto_of_ne w pc different⟩

private theorem goto_sound {before pc : ConsumerPc Mat} (sound : Sound pool w)
    (here : w.consumers who = before) (held : pc.held = before.held) (copied : w.Copied pc) :
    Sound pool (w.goto who pc) := by
  refine quiet_sound sound (goto_quiet w who pc) ?_ ?_
  · apply Moved.stay
    intro place
    rw [contents_goto]
    split
    · next place_who =>
      rw [place_who,held,← here]
      rfl
    · rfl
  · rwa [goto_self]

private theorem same_sound (sound : Sound pool w) (channels : next.channels = w.channels)
    (tasks : next.gtaskque = w.gtaskque) (consumers : next.consumers = w.consumers) :
    Sound pool next := by
  have unmoved : ∀ place, next.contents place = w.contents place := by
    intro place
    cases place <;> simp [World.contents,channels,tasks,consumers]
  have quiet : Quiet w next .scheduler :=
    ⟨fun _ => by rw [channels],fun _ => by rw [channels],fun _ _ => by rw [consumers]⟩
  apply quiet_sound sound quiet (.stay unmoved)
  rw [consumers]
  exact sound.copied .scheduler

theorem lists_quiet (w : World Mat) (who : Consumer) (dpipe : Nat) (lists : DualPipe.Lists)
    (pc : ConsumerPc Mat) :
    Quiet w ((w.setChannel dpipe {w.channels dpipe with dpipe := lists}).goto who pc) who := by
  refine ⟨?_,?_,fun _ different => goto_of_ne _ pc different⟩
  · intro nChannel
    rw [goto_channels]
    by_cases same : nChannel = dpipe
    · rw [same,setChannel_self]
    · rw [setChannel_of_ne w _ same]
  · intro nChannel
    rw [goto_channels]
    by_cases same : nChannel = dpipe
    · rw [same,setChannel_self]
    · rw [setChannel_of_ne w _ same]

private theorem load_sound {dpipe buffer : Nat} {lists : DualPipe.Lists} {pc : ConsumerPc Mat}
    (sound : Sound pool w) (here : w.consumers who = .scan dpipe)
    (loaded : (w.channels dpipe).dpipe.load = some (buffer,lists))
    (held : pc.held = [(dpipe,buffer)]) (copied : w.Copied pc) :
    Sound pool ((w.setChannel dpipe {w.channels dpipe with dpipe := lists}).goto who pc) := by
  obtain ⟨taken,kept⟩ := DualPipe.Lists.load_eq loaded
  refine quiet_sound sound (lists_quiet w who dpipe lists pc) ?_ ?_
  · refine .move (.filled dpipe) (.consumer who) (dpipe,buffer) ?_ fun _ => .inl rfl
    apply move_of_cons
    · simp
    · rw [contents_goto,contents_setChannel]
      simp [World.contents,taken]
    · rw [contents_goto,if_pos rfl,held]
      simp [World.contents,here,ConsumerPc.held]
    · intro place source target
      rw [contents_goto,contents_setChannel,if_neg target,if_neg source,kept]
      split
      · next free => rw [free]; rfl
      split
      · next decoder => rw [decoder]; rfl
      · rfl
  · rwa [goto_self]

theorem put_labelled {dpipe buffer : Nat} {frame : Picture Mat} (sound : Sound pool w)
    (here : w.consumers who = .put dpipe buffer frame) :
    (dpipe,buffer) ∈ pool ∧ frame.channel = dpipe ∧
      ((w.channels dpipe).buffers buffer).channel = dpipe ∧
      ((w.channels dpipe).buffers buffer).frameno = frame.frameno := by
  have held : (dpipe,buffer) ∈ w.contents (.consumer who) := by
    simp [World.contents,here,ConsumerPc.held]
  obtain ⟨own,labelled,number⟩ := sound.labelled _ _ rfl held
  have copied := sound.copied who
  rw [here] at copied
  change ((w.channels dpipe).buffers buffer).imgbuf = frame at copied
  rw [← copied]
  exact ⟨(sound.parts.cover _).mpr ⟨_,held⟩,labelled,own,number.symm⟩

private theorem put_sound {dpipe buffer : Nat} {frame : Picture Mat} (sound : Sound pool w)
    (here : w.consumers who = .put dpipe buffer frame) : Sound pool (w.put who dpipe buffer frame) := by
  obtain ⟨-,labelled,own,-⟩ := put_labelled sound here
  refine quiet_sound sound (lists_quiet w who dpipe _ _) ?_ ?_
  · refine .move (.consumer who) (.free dpipe) (dpipe,buffer) ?_ (by simp [Place.ready])
    unfold World.put
    apply move_of_cons
    · simp
    · rw [contents_goto]
      simp [World.contents,here,ConsumerPc.held]
    · rw [contents_goto,contents_setChannel]
      simp [World.contents,DualPipe.Lists.put]
    · intro place source target
      rw [contents_goto,contents_setChannel,if_neg target,if_neg source]
      split
      · next decoder => rw [decoder]; rfl
      split
      · next filled => rw [filled]; rfl
      · rfl
  · unfold World.put
    rw [goto_self]
    exact ⟨labelled,own,rfl⟩

private theorem route_sound {dpipe buffer : Nat} (sound : Sound pool w)
    (here : w.consumers who = .route dpipe buffer) : Sound pool (w.route who dpipe buffer) := by
  have quiet : Quiet w (w.route who dpipe buffer) who :=
    ⟨fun _ => rfl,fun _ => rfl,fun _ different => goto_of_ne _ _ different⟩
  refine quiet_sound sound quiet ?_ ?_
  · unfold World.route
    simp only
    generalize (if ((w.channels dpipe).buffers buffer).channel = 0 then 1 else 0) = number
    refine .move (.consumer who) (.task number) (dpipe,buffer) ?_ fun _ => .inl rfl
    apply move_of_cons
    · simp
    · rw [contents_goto]
      simp [World.contents,here,ConsumerPc.held]
    · rw [contents_goto,contents_tasks]
      simp [World.contents]
    · intro place source target
      rw [contents_goto,contents_tasks,if_neg source,if_neg target]
  · unfold World.route
    rw [goto_self]
    trivial

private theorem task_sound {task : InferTask} {rest : List InferTask} (sound : Sound pool w)
    (here : w.consumers who = .drain) (tasked : w.gtaskque who.instance = task :: rest) :
    Sound pool ({w with gtaskque := update w.gtaskque who.instance rest}.goto who
      (.createMat task.dpipe task.dbuffer)) := by
  have quiet : Quiet w ({w with gtaskque := update w.gtaskque who.instance rest}.goto who
      (.createMat task.dpipe task.dbuffer)) who :=
    ⟨fun _ => rfl,fun _ => rfl,fun _ different => goto_of_ne _ _ different⟩
  refine quiet_sound sound quiet ?_ ?_
  · refine .move (.task who.instance) (.consumer who) (task.dpipe,task.dbuffer) ?_
      fun _ => .inl rfl
    apply move_of_cons
    · simp
    · rw [contents_goto,contents_tasks]
      simp [World.contents,tasked]
    · rw [contents_goto]
      simp [World.contents,here,ConsumerPc.held]
    · intro place source target
      rw [contents_goto,contents_tasks,if_neg target,if_neg source]
  · rw [goto_self]
    trivial

end Consumers

def Config.pool (cfg : Config) : List (Nat × Nat) :=
  (List.range cfg.c).flatMap fun nChannel => (List.range cfg.nframe).map (Prod.mk nChannel)

theorem mem_pool (cfg : Config) (buffer : Nat × Nat) :
    buffer ∈ cfg.pool ↔ buffer.1 < cfg.c ∧ buffer.2 < cfg.nframe := by
  unfold Config.pool
  rw [List.mem_flatMap]
  constructor
  · rintro ⟨nChannel,inside,member⟩
    obtain ⟨number,small,rfl⟩ := List.mem_map.mp member
    exact ⟨List.mem_range.mp inside,List.mem_range.mp small⟩
  · intro inside
    refine ⟨buffer.1,List.mem_range.mpr inside.1,?_⟩
    exact List.mem_map.mpr ⟨buffer.2,List.mem_range.mpr inside.2,rfl⟩

variable (cfg : Config) (detectors : Nat → Detector (Picture Mat)) (blank : Mat)

private theorem mem_start (place : Place) (buffer : Nat × Nat) :
    buffer ∈ (start cfg detectors blank).contents place ↔
      place = .free buffer.1 ∧ buffer.1 < cfg.c ∧ buffer.2 < cfg.nframe := by
  cases place with
  | free nChannel =>
    simp only [World.contents,start,Channel.initial,List.mem_map,List.mem_reverse,
      List.mem_range,Place.free.injEq]
    constructor
    · rintro ⟨number,small,rfl⟩
      split at small
      · next inside => exact ⟨rfl,inside,small⟩
      · omega
    · rintro ⟨rfl,inside,small⟩
      rw [if_pos inside]
      exact ⟨buffer.2,small,rfl⟩
  | _ => simp [World.contents,start,Channel.initial,DecodePc.held,ConsumerPc.held]

theorem start_sound : Sound cfg.pool (start cfg detectors blank) := by
  refine ⟨⟨?_,?_,?_⟩,?_,?_,?_⟩
  · intro place
    cases place with
    | free nChannel =>
      apply List.Nodup.map (Prod.mk_right_injective nChannel)
      exact List.nodup_reverse.mpr List.nodup_range
    | _ => simp [World.contents,start,Channel.initial,DecodePc.held,ConsumerPc.held]
  · intro place other buffer here there
    rw [mem_start] at here there
    rw [here.1,there.1]
  · intro buffer
    rw [mem_pool]
    constructor
    · intro inside
      exact ⟨.free buffer.1,(mem_start ..).mpr ⟨rfl,inside⟩⟩
    · intro owned
      obtain ⟨place,member⟩ := owned
      exact ((mem_start ..).mp member).2
  · intro place buffer ready member
    rw [((mem_start ..).mp member).1] at ready
    contradiction
  · intro nChannel
    trivial
  · intro who
    trivial

variable [CvMat Mat] {ie : Nat → InferenceEngine (Picture Mat)}

section Step

variable {cfg} {pool : List (Nat × Nat)} {w next : World Mat} {action : Action Mat}
  {events : List (Event Mat)}

theorem step_sound (sound : Sound pool w) (stepped : Stepped cfg ie w action next events) :
    Sound pool next := by
  cases stepped with
  | channel nChannel acted after emitted posted inside stepped => exact channel_sound sound stepped
  | wakeScheduler here token =>
    exact goto_sound (same_sound sound rfl rfl rfl) here rfl trivial
  | wakeInfer nChannel here token =>
    exact goto_sound (same_sound sound rfl rfl rfl) here rfl trivial
  | load who dpipe buffer lists here inside loaded =>
    refine load_sound sound here loaded ?_ ?_
    · split <;> rfl
    · split <;> trivial
  | skip who dpipe here inside unfilled balanced =>
    exact goto_sound sound here rfl trivial
  | rest who dpipe here outside => exact goto_sound sound here rfl trivial
  | route who dpipe buffer here => exact route_sound sound here
  | postInfer who dpipe nInferThreadInstance here =>
    exact goto_sound (same_sound sound rfl rfl rfl) here rfl trivial
  | drained who here untasked => exact goto_sound sound here rfl trivial
  | task who task rest here tasked => exact task_sound sound here tasked
  | createMat who dpipe buffer here => exact goto_sound sound here rfl rfl
  | put who dpipe buffer frame here => exact put_sound sound here
  | readChannel who dpipe buffer frame frameno here =>
    have copied := sound.copied who
    rw [here] at copied
    obtain ⟨own,labelled,-⟩ := copied
    exact goto_sound sound here rfl ⟨own,labelled,labelled⟩
  | readFrameno who dpipe buffer frame channel here =>
    have copied := sound.copied who
    rw [here] at copied
    exact goto_sound sound here rfl copied
  | insertImage who waited dpipe buffer frame channel frameno detector objects faceret here returns =>
    exact goto_sound (same_sound sound rfl rfl rfl) here rfl trivial
  | resume who dpipe here =>
    cases who with
    | scheduler => exact goto_sound sound here rfl trivial
    | infer nChannel => exact goto_sound sound here rfl trivial
  | push who dpipe object objects here tracked =>
    exact goto_sound (same_sound sound rfl rfl rfl) here rfl trivial
  | count who dpipe object objects here counts =>
    exact goto_sound (same_sound sound rfl rfl rfl) here rfl trivial
  | postResult who dpipe object objects here =>
    exact goto_sound (same_sound sound rfl rfl rfl) here rfl trivial
  | tracker nChannel token => exact same_sound sound rfl rfl rfl

end Step

end Buffers

end VideoAnalytics.Pipeline
