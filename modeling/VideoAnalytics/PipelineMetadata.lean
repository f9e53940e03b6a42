import VideoAnalytics.PipelineOwnership
import VideoAnalytics.DetectorDelivery

/-! The channel and the number that InsertImage gets with a picture. A consumer
reads them from a buffer that it has put back already, and the decoder takes the
buffer that was put back last. -/
namespace VideoAnalytics.Pipeline

open Function (update)

section Metadata

variable {Mat : Type}

/-- InsertImage gets what was written into the buffer with the picture. -/
def Event.Matched : Event Mat → Prop
  | .inserted _ frame channel frameno => channel = frame.channel ∧ frameno = frame.frameno
  | _ => True

/-- No decoder writes another number into a buffer that its consumer has put back
and whose number it has still to read. -/
def Undisturbed (w : World Mat) : Action Mat → Prop
  | .decoder nChannel => ∀ buffer pixels,
      (w.channels nChannel).decoder = .writeFrameno buffer pixels →
      ∀ who frame channel, w.consumers who = .insert nChannel buffer frame channel none →
        (w.channels nChannel).nFrameProcessed = frame.frameno
  | _ => True

/-- The number that a consumer has read, or is going to read, is its picture's. -/
def World.Current (w : World Mat) : ConsumerPc Mat → Prop
  | .insert dpipe buffer frame _ frameno =>
    frameno.getD ((w.channels dpipe).buffers buffer).frameno = frame.frameno
  | _ => True

section Channels

variable {nChannel posted : Nat} {channel next : Channel Mat} {action : Action Mat}
  {events : List (Event Mat)}

private theorem write_frameno (buffer other : Nat) (change : VsourceFrame Mat → VsourceFrame Mat)
    (pc : DecodePc Mat) (kept : ∀ frame, (change frame).frameno = frame.frameno) :
    ((channel.write buffer change pc).buffers other).frameno = (channel.buffers other).frameno := by
  by_cases same : other = buffer
  · rw [same,write_self]
    exact kept _
  · rw [write_of_ne channel change pc same]

private theorem stepped_frameno (stepped : channel.Stepped nChannel action next events posted)
    (buffer : Nat) :
    (next.buffers buffer).frameno = (channel.buffers buffer).frameno ∨
      action = .decoder nChannel ∧ (∃ pixels, channel.decoder = .writeFrameno buffer pixels) ∧
        (next.buffers buffer).frameno = channel.nFrameProcessed := by
  cases stepped with
  | writeChannel other pixels here => exact .inl (write_frameno other buffer _ _ fun _ => rfl)
  | writeFrameno other pixels here =>
    by_cases same : buffer = other
    · right
      rw [same,write_self]
      exact ⟨rfl,⟨pixels,here⟩,rfl⟩
    · left
      rw [write_of_ne channel _ _ same]
  | writeImgbuf other pixels frameno here =>
    exact .inl (write_frameno other buffer _ _ fun _ => rfl)
  | _ => exact .inl rfl

variable {w : World Mat}

private theorem channel_current (current : ∀ who, w.Current (w.consumers who))
    (undisturbed : Undisturbed w action)
    (stepped : (w.channels nChannel).Stepped nChannel action next events posted)
    (who : Consumer) : (w.setChannel nChannel next).Current (w.consumers who) := by
  have before := current who
  generalize reading : w.consumers who = pc at before
  cases pc with
  | insert dpipe buffer frame channel frameno =>
    change frameno.getD _ = frame.frameno
    change frameno.getD _ = frame.frameno at before
    by_cases same : dpipe = nChannel
    · rw [same] at before reading ⊢
      rw [setChannel_self]
      rcases stepped_frameno stepped buffer with kept | ⟨acted,⟨pixels,writing⟩,written⟩
      · rwa [kept]
      · cases frameno with
        | none =>
          rw [acted] at undisturbed
          rw [Option.getD_none,written]
          exact undisturbed buffer pixels writing who frame channel reading
        | some number => exact before
    · rwa [setChannel_of_ne w next same]
  | _ => trivial

end Channels

section Consumers

variable {w next : World Mat} {who : Consumer}

private theorem current_congr {pc : ConsumerPc Mat}
    (same : ∀ nChannel, (next.channels nChannel).buffers = (w.channels nChannel).buffers)
    (current : w.Current pc) : next.Current pc := by
  cases pc with
  | insert dpipe buffer frame channel frameno =>
    unfold World.Current at current ⊢
    simp only at current ⊢
    rwa [same]
  | _ => trivial

private theorem quiet_current (current : ∀ other, w.Current (w.consumers other))
    (quiet : Quiet w next who) (here : w.Current (next.consumers who)) (other : Consumer) :
    next.Current (next.consumers other) := by
  apply current_congr quiet.buffers
  by_cases same : other = who
  · rwa [same]
  · rw [quiet.others other same]
    exact current other

private theorem goto_current {rest : World Mat} {pc : ConsumerPc Mat}
    (current : ∀ other, w.Current (w.consumers other)) (channels : rest.channels = w.channels)
    (consumers : rest.consumers = w.consumers) (here : w.Current pc) (other : Consumer) :
    (rest.goto who pc).Current ((rest.goto who pc).consumers other) := by
  have quiet : Quiet w (rest.goto who pc) who := by
    refine ⟨?_,?_,?_⟩
    · exact fun _ => by rw [goto_channels,channels]
    · exact fun _ => by rw [goto_channels,channels]
    · exact fun _ different => by rw [goto_of_ne rest pc different,consumers]
  apply quiet_current current quiet
  rwa [goto_self]

private theorem put_current {pool : List (Nat × Nat)} {dpipe buffer : Nat} {frame : Picture Mat}
    (sound : Sound pool w) (current : ∀ other, w.Current (w.consumers other))
    (here : w.consumers who = .put dpipe buffer frame) (other : Consumer) :
    (w.put who dpipe buffer frame).Current ((w.put who dpipe buffer frame).consumers other) := by
  apply quiet_current current (lists_quiet w who dpipe _ _)
  rw [goto_self]
  exact (put_labelled sound here).2.2.2

end Consumers

variable [CvMat Mat] {cfg : Config} {ie : Nat → InferenceEngine (Picture Mat)}
  {pool : List (Nat × Nat)} {w next : World Mat} {action : Action Mat} {events : List (Event Mat)}

private theorem step_current (sound : Sound pool w) (current : ∀ who, w.Current (w.consumers who))
    (undisturbed : Undisturbed w action) (stepped : Stepped cfg ie w action next events)
    (who : Consumer) : next.Current (next.consumers who) := by
  cases stepped with
  | channel nChannel acted after emitted posted inside stepped =>
    exact channel_current current undisturbed stepped who
  | load other dpipe buffer lists here inside loaded =>
    apply quiet_current current (lists_quiet w other dpipe lists _)
    rw [goto_self]
    split <;> trivial
  | put other dpipe buffer frame here => exact put_current sound current here who
  | readChannel other dpipe buffer frame frameno here =>
    have before := current other
    rw [here] at before
    refine goto_current current rfl rfl ?_ who
    exact before
  | readFrameno other dpipe buffer frame channel here =>
    have before := current other
    rw [here] at before
    refine goto_current current rfl rfl ?_ who
    exact before
  | resume other dpipe here =>
    refine goto_current current rfl rfl ?_ who
    cases other <;> trivial
  | tracker nChannel token => exact current who
  | _ =>
    refine goto_current current rfl rfl ?_ who
    trivial

private theorem step_matched (sound : Sound pool w) (current : ∀ who, w.Current (w.consumers who))
    (stepped : Stepped cfg ie w action next events) : ∀ event ∈ events, event.Matched := by
  intro event member
  cases stepped with
  | channel nChannel acted after emitted posted inside stepped =>
    cases stepped with
    | store buffer here =>
      rw [List.mem_singleton.mp member]
      trivial
    | _ => contradiction
  | insertImage who waited dpipe buffer frame channel frameno detector objects faceret here returns =>
    rcases List.mem_cons.mp member with inserted | delivered
    · have copied := sound.copied who
      have number := current who
      rw [here] at copied number
      obtain ⟨own,-,read⟩ := copied
      rw [inserted]
      exact ⟨read.trans own.symm,number⟩
    · rw [List.mem_singleton.mp delivered]
      trivial
  | push who dpipe object objects here tracked =>
    rw [List.mem_singleton.mp member]
    trivial
  | count who dpipe object objects here counts =>
    rw [List.mem_singleton.mp member]
    trivial
  | postResult who dpipe object objects here =>
    rw [List.mem_singleton.mp member]
    trivial
  | _ => contradiction

/-- As long as no decoder writes another number into a buffer between its
consumer's Put and its consumer's read of the number, every picture is inserted
with the channel and the number that were written with it. -/
theorem metadata_matches (cfg : Config) (ie : Nat → InferenceEngine (Picture Mat))
    (detectors : Nat → Detector (Picture Mat)) (blank : Mat) (actions : List (Action Mat))
    (w : World Mat) (trace : List (Event Mat))
    (ran : (pipeline cfg ie).run (start cfg detectors blank) actions = some (w,trace))
    (undisturbed : (pipeline cfg ie).Along Undisturbed (start cfg detectors blank) actions) :
    ∀ event ∈ trace, event.Matched := by
  have kept := Machine.run_invariant_along
    (fun (state : World Mat) (seen : List (Event Mat)) => Sound cfg.pool state ∧
      (∀ who, state.Current (state.consumers who)) ∧ ∀ event ∈ seen, event.Matched)
    ?_ ⟨start_sound cfg detectors blank,fun _ => trivial,List.forall_mem_nil _⟩ undisturbed ran
  · exact kept.2.2
  · intro state seen action next emitted held condition stepped
    obtain ⟨sound,current,matched⟩ := held
    have spec := step_stepped stepped
    refine ⟨step_sound sound spec,step_current sound current condition spec,?_⟩
    intro event member
    rcases List.mem_append.mp member with before | now
    · exact matched event before
    · exact step_matched sound current spec event now

def Action.decodes : Action Mat → Bool
  | .decode _ _ => true
  | .decoder _ => true
  | _ => false

private theorem undisturbed_consumers {w : World Mat} (actions : List (Action Mat))
    (consumers : ∀ action ∈ actions, action.decodes = false) :
    (pipeline cfg ie).Along Undisturbed w actions := by
  induction actions generalizing w with
  | nil => trivial
  | cons action rest ih =>
    intro next emitted stepped
    refine ⟨?_,ih fun other member => consumers other (.tail _ member)⟩
    have idle := consumers action List.mem_cons_self
    cases action with
    | decoder nChannel => contradiction
    | _ => trivial

private theorem decodes_consumers {w next : World Mat} {action : Action Mat}
    {events : List (Event Mat)}
    (decodes : action.decodes = true) (stepped : Stepped cfg ie w action next events) :
    next.consumers = w.consumers := by
  cases stepped with
  | channel nChannel acted after emitted posted inside stepped => rfl
  | _ => contradiction

/-- Decoders that are done before any consumer wakes up disturb none. -/
theorem undisturbed_turns {w : World Mat} (first second : List (Action Mat))
    (waiting : ∀ who, w.consumers who = .wait) (decoders : ∀ action ∈ first, action.decodes = true)
    (consumers : ∀ action ∈ second, action.decodes = false) :
    (pipeline cfg ie).Along Undisturbed w (first ++ second) := by
  induction first generalizing w with
  | nil => exact undisturbed_consumers second consumers
  | cons action rest ih =>
    intro next emitted stepped
    refine ⟨?_,ih ?_ fun other member => decoders other (.tail _ member)⟩
    · cases action with
      | decoder nChannel =>
        intro buffer pixels writing who frame channel reading
        rw [waiting] at reading
        contradiction
      | _ => trivial
    · intro who
      rw [decodes_consumers (decoders action List.mem_cons_self) (step_stepped stepped)]
      exact waiting who

end Metadata

section Samples

def ssdDetector (batch : Nat) : Detector (Picture Size) :=
  match Detector.new.load ssdLoaded batch with
  | .ok (_,d) => d
  | .error _ => .new

def ssdEngines (_ : Nat) : InferenceEngine (Picture Size) := nothingFound (Picture Size)

/-- DecodeThreadFunc up to the Store of a frame and its sem_post. -/
def storeFrame (nChannel : Nat) : List (Action Size) :=
  .decode nChannel (some ⟨300,300⟩) :: List.replicate 6 (.decoder nChannel)

/-- The scheduler from Load to the copy of the pixels and Put. -/
def takeFrame : List (Action Size) := List.replicate 3 (.consumer .scheduler)

def insertFrame : List (Action Size) :=
  [.readChannel .scheduler,.readFrameno .scheduler,.insertImage .scheduler .ok]

def oneChannel : Config := ⟨false,false,1,100,1⟩

theorem metadata_matches_once : ∃ w trace,
    (pipeline oneChannel ssdEngines).run (start oneChannel (fun _ => ssdDetector 1) ⟨0,0⟩)
      (storeFrame 0 ++ (.consumer .scheduler :: takeFrame ++ insertFrame)) = some (w,trace) ∧
    .inserted .scheduler ⟨⟨300,300⟩,0,1⟩ 0 1 ∈ trace ∧ ∀ event ∈ trace, event.Matched := by
  have shown : ((pipeline oneChannel ssdEngines).run
      (start oneChannel (fun _ => ssdDetector 1) ⟨0,0⟩)
      (storeFrame 0 ++ (.consumer .scheduler :: takeFrame ++ insertFrame))).map Prod.snd =
        some [.stored 0 ⟨⟨300,300⟩,0,1⟩,.inserted .scheduler ⟨⟨300,300⟩,0,1⟩ 0 1,
          .delivered []] := by
    decide +kernel
  obtain ⟨⟨w,trace⟩,ran,same⟩ := Option.map_eq_some_iff.mp shown
  change trace = _ at same
  refine ⟨w,trace,ran,?_,?_⟩
  · rw [same]
    simp
  · exact metadata_matches oneChannel ssdEngines (fun _ => ssdDetector 1) ⟨0,0⟩ _ w trace ran
      (undisturbed_turns _ _ (fun _ => rfl) (by decide) (by decide))

/-- The decoder gets the buffer that the scheduler has just put back, and writes
the number of the second frame before the scheduler reads that of the first. -/
def lateRead : List (Action Size) :=
  storeFrame 0 ++ .consumer .scheduler :: takeFrame ++
    .decode 0 (some ⟨300,300⟩) :: List.replicate 3 (.decoder 0) ++ insertFrame

theorem frameno_overwritten : ∃ w trace,
    (pipeline oneChannel ssdEngines).run (start oneChannel (fun _ => ssdDetector 1) ⟨0,0⟩)
      lateRead = some (w,trace) ∧ ¬∀ event ∈ trace, event.Matched := by
  have shown : ((pipeline oneChannel ssdEngines).run
      (start oneChannel (fun _ => ssdDetector 1) ⟨0,0⟩) lateRead).map Prod.snd =
        some [.stored 0 ⟨⟨300,300⟩,0,1⟩,.inserted .scheduler ⟨⟨300,300⟩,0,1⟩ 0 2,
          .delivered []] := by
    decide +kernel
  obtain ⟨⟨w,trace⟩,ran,same⟩ := Option.map_eq_some_iff.mp shown
  change trace = _ at same
  refine ⟨w,trace,ran,?_⟩
  intro matched
  rw [same] at matched
  have wrong := matched (.inserted .scheduler ⟨⟨300,300⟩,0,1⟩ 0 2) (by simp)
  exact absurd wrong.2 (by decide)

end Samples

end VideoAnalytics.Pipeline
