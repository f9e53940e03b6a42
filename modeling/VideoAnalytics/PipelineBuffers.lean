import VideoAnalytics.PipelineSteps
import VideoAnalytics.Library.Partition

/-! Where the buffers of all channels are, what is in those that a decoder has
stored, and what a step on one channel does to both. -/
namespace VideoAnalytics.Pipeline

open Function (update)

inductive Place
  | free (nChannel : Nat)
  | decoder (nChannel : Nat)
  | filled (nChannel : Nat)
  | task (nInferThreadInstance : Nat)
  | consumer (who : Consumer)
  deriving DecidableEq, Repr

/-- A decoder has stored the buffers here, and no consumer has put them back. -/
def Place.ready : Place → Bool
  | .free _ => false
  | .decoder _ => false
  | .filled _ => true
  | .task _ => true
  | .consumer _ => true

section Buffers

variable {Mat : Type}

def DecodePc.held : DecodePc Mat → List Nat
  | .decoding => []
  | .get _ => []
  | .writeChannel buffer _ => [buffer]
  | .writeFrameno buffer _ => [buffer]
  | .writeImgbuf buffer _ _ => [buffer]
  | .store buffer => [buffer]
  | .post => []

def ConsumerPc.held : ConsumerPc Mat → List (Nat × Nat)
  | .route dpipe buffer => [(dpipe,buffer)]
  | .createMat dpipe buffer => [(dpipe,buffer)]
  | .put dpipe buffer _ => [(dpipe,buffer)]
  | _ => []

def World.contents (w : World Mat) : Place → List (Nat × Nat)
  | .free nChannel => (w.channels nChannel).dpipe.mInPipe.map (Prod.mk nChannel)
  | .decoder nChannel => (w.channels nChannel).decoder.held.map (Prod.mk nChannel)
  | .filled nChannel => (w.channels nChannel).dpipe.mOutPipe.map (Prod.mk nChannel)
  | .task nInferThreadInstance =>
    (w.gtaskque nInferThreadInstance).map fun task => (task.dpipe,task.dbuffer)
  | .consumer who => (w.consumers who).held

def VsourceFrame.Labelled (frame : VsourceFrame Mat) (nChannel : Nat) : Prop :=
  frame.channel = nChannel ∧ frame.imgbuf.channel = nChannel ∧
    frame.imgbuf.frameno = frame.frameno

def World.Labelled (w : World Mat) (buffer : Nat × Nat) : Prop :=
  ((w.channels buffer.1).buffers buffer.2).Labelled buffer.1

/-- What a decoder has already written into the buffer that it fills. -/
def Channel.Written (nChannel : Nat) (channel : Channel Mat) : Prop :=
  match channel.decoder with
  | .writeFrameno buffer _ => (channel.buffers buffer).channel = nChannel
  | .writeImgbuf buffer _ frameno =>
    (channel.buffers buffer).channel = nChannel ∧ (channel.buffers buffer).frameno = frameno
  | .store buffer => (channel.buffers buffer).Labelled nChannel
  | _ => True

/-- What a consumer has copied from its buffer. The channel of a buffer that was
stored never changes, so that it can still be read once the buffer is put back. -/
def World.Copied (w : World Mat) : ConsumerPc Mat → Prop
  | .put dpipe buffer frame => ((w.channels dpipe).buffers buffer).imgbuf = frame
  | .insert dpipe buffer frame channel _ => frame.channel = dpipe ∧
    ((w.channels dpipe).buffers buffer).channel = dpipe ∧ channel.getD dpipe = dpipe
  | _ => True

structure Sound (pool : List (Nat × Nat)) (w : World Mat) : Prop where
  parts : Partition.Parts pool w.contents
  labelled : ∀ place buffer, place.ready = true → buffer ∈ w.contents place → w.Labelled buffer
  written : ∀ nChannel, (w.channels nChannel).Written nChannel
  copied : ∀ who, w.Copied (w.consumers who)

private theorem contents_post (w : World Mat) (posted : Nat) (place : Place) :
    (w.post posted).contents place = w.contents place := rfl

theorem contents_setChannel (w : World Mat) (nChannel : Nat) (channel : Channel Mat)
    (place : Place) :
    (w.setChannel nChannel channel).contents place =
      if place = .free nChannel then channel.dpipe.mInPipe.map (Prod.mk nChannel)
      else if place = .decoder nChannel then channel.decoder.held.map (Prod.mk nChannel)
      else if place = .filled nChannel then channel.dpipe.mOutPipe.map (Prod.mk nChannel)
      else w.contents place := by
  cases place with
  | free other =>
    by_cases same : other = nChannel
    · simp [World.contents,World.setChannel,same]
    · simp [World.contents,World.setChannel,same]
  | decoder other =>
    by_cases same : other = nChannel
    · simp [World.contents,World.setChannel,same]
    · simp [World.contents,World.setChannel,same]
  | filled other =>
    by_cases same : other = nChannel
    · simp [World.contents,World.setChannel,same]
    · simp [World.contents,World.setChannel,same]
  | task nInferThreadInstance => simp [World.contents,World.setChannel]
  | consumer who => simp [World.contents,World.setChannel]

theorem contents_goto (w : World Mat) (who : Consumer) (pc : ConsumerPc Mat) (place : Place) :
    (w.goto who pc).contents place = if place = .consumer who then pc.held else w.contents place := by
  cases place with
  | free nChannel => simp [World.contents,World.goto]
  | decoder nChannel => simp [World.contents,World.goto]
  | filled nChannel => simp [World.contents,World.goto]
  | task nInferThreadInstance => simp [World.contents,World.goto]
  | consumer other =>
    by_cases same : other = who
    · simp [World.contents,World.goto,same]
    · simp [World.contents,World.goto,same]

theorem contents_tasks (w : World Mat) (nInferThreadInstance : Nat) (tasks : List InferTask)
    (place : Place) :
    {w with gtaskque := update w.gtaskque nInferThreadInstance tasks}.contents place =
      if place = .task nInferThreadInstance then tasks.map fun task => (task.dpipe,task.dbuffer)
      else w.contents place := by
  cases place with
  | free nChannel => simp [World.contents]
  | decoder nChannel => simp [World.contents]
  | filled nChannel => simp [World.contents]
  | task other =>
    by_cases same : other = nInferThreadInstance
    · simp [World.contents,same]
    · simp [World.contents,same]
  | consumer who => simp [World.contents]

/-- A step leaves every buffer where it is, or moves one, and what it makes ready
is labelled. -/
inductive Moved (w next : World Mat) : Prop
  | stay (same : ∀ place, next.contents place = w.contents place) : Moved w next
  | move (source target : Place) (buffer : Nat × Nat)
      (move : Partition.Move source target buffer w.contents next.contents)
      (ready : target.ready = true → source.ready = true ∨ next.Labelled buffer) : Moved w next

theorem moved_parts {pool : List (Nat × Nat)} {w next : World Mat} (moved : Moved w next)
    (parts : Partition.Parts pool w.contents) : Partition.Parts pool next.contents := by
  cases moved with
  | stay same => exact parts.congr same
  | move source target buffer move _ => exact parts.move move

theorem moved_labelled {pool : List (Nat × Nat)} {w next : World Mat} (moved : Moved w next)
    (sound : Sound pool w)
    (kept : ∀ place buffer, place.ready = true → buffer ∈ w.contents place → next.Labelled buffer)
    (place : Place) (buffer : Nat × Nat) (ready : place.ready = true)
    (member : buffer ∈ next.contents place) : next.Labelled buffer := by
  cases moved with
  | stay same =>
    rw [same] at member
    exact kept place buffer ready member
  | move source target thing move made =>
    rcases (move.mem_iff sound.parts place buffer).mp member with ⟨moved,there⟩ | ⟨-,before⟩
    · rw [there] at ready
      rcases made ready with source_ready | labelled
      · have taken : buffer ∈ w.contents source := by
          rw [move.taken.mem_iff,moved]
          exact List.mem_cons_self
        exact kept source buffer source_ready taken
      · rwa [moved]
    · exact kept place buffer ready before

section Channels

variable {nChannel posted : Nat} {channel next : Channel Mat} {action : Action Mat}
  {events : List (Event Mat)}

private theorem stepped_buffers (stepped : channel.Stepped nChannel action next events posted)
    (buffer : Nat) (apart : buffer ∉ channel.decoder.held) :
    next.buffers buffer = channel.buffers buffer := by
  cases stepped with
  | decode pixels here => rfl
  | get pixels buffer lists here got => rfl
  | writeChannel other pixels here =>
    apply write_of_ne
    simpa [here,DecodePc.held] using apart
  | writeFrameno other pixels here =>
    apply write_of_ne
    simpa [here,DecodePc.held] using apart
  | writeImgbuf other pixels frameno here =>
    apply write_of_ne
    simpa [here,DecodePc.held] using apart
  | store buffer here => rfl
  | post here => rfl
  | thrFps => rfl

private theorem write_channel (buffer other : Nat) (change : VsourceFrame Mat → VsourceFrame Mat)
    (pc : DecodePc Mat) (own : (channel.buffers other).channel = nChannel)
    (kept : ∀ frame, frame.channel = (nChannel : Int) → (change frame).channel = nChannel) :
    ((channel.write buffer change pc).buffers other).channel = nChannel := by
  by_cases same : other = buffer
  · rw [same] at own ⊢
    rw [write_self]
    exact kept _ own
  · rwa [write_of_ne channel change pc same]

private theorem stepped_channel (stepped : channel.Stepped nChannel action next events posted)
    (buffer : Nat) (own : (channel.buffers buffer).channel = nChannel) :
    (next.buffers buffer).channel = nChannel := by
  cases stepped with
  | decode pixels here => exact own
  | get pixels buffer lists here got => exact own
  | writeChannel other pixels here => exact write_channel other buffer _ _ own fun _ _ => rfl
  | writeFrameno other pixels here =>
    exact write_channel other buffer _ _ own fun _ before => before
  | writeImgbuf other pixels frameno here =>
    exact write_channel other buffer _ _ own fun _ before => before
  | store buffer here => exact own
  | post here => exact own
  | thrFps => exact own

private theorem stepped_written (stepped : channel.Stepped nChannel action next events posted)
    (written : channel.Written nChannel) : next.Written nChannel := by
  unfold Channel.Written at written
  cases stepped with
  | decode pixels here => cases pixels <;> trivial
  | get pixels buffer lists here got => trivial
  | writeChannel buffer pixels here => simp [Channel.Written,Channel.write]
  | writeFrameno buffer pixels here =>
    simp only [here] at written
    simpa [Channel.Written,Channel.write] using written
  | writeImgbuf buffer pixels frameno here =>
    simp only [here] at written
    obtain ⟨own,number⟩ := written
    simp [Channel.Written,Channel.write,VsourceFrame.Labelled,own,number]
  | store buffer here => trivial
  | post here => trivial
  | thrFps => exact written

variable {w : World Mat}

theorem move_of_cons {before after : Place → List (Nat × Nat)} {source target : Place}
    {buffer : Nat × Nat} (different : source ≠ target)
    (taken : before source = buffer :: after source)
    (added : (after target).Perm (buffer :: before target))
    (others : ∀ place, place ≠ source → place ≠ target → after place = before place) :
    Partition.Move source target buffer before after :=
  ⟨different,List.Perm.of_eq taken,added,others⟩

private theorem stay_channel (same_lists : next.dpipe = (w.channels nChannel).dpipe)
    (same_held : next.decoder.held = (w.channels nChannel).decoder.held) :
    Moved w ((w.setChannel nChannel next).post posted) := by
  apply Moved.stay
  intro place
  rw [contents_post,contents_setChannel,same_lists,same_held]
  split
  · next here => rw [here]; rfl
  split
  · next here => rw [here]; rfl
  split
  · next here => rw [here]; rfl
  · rfl

private theorem stepped_moved
    (stepped : (w.channels nChannel).Stepped nChannel action next events posted)
    (written : (w.channels nChannel).Written nChannel) :
    Moved w ((w.setChannel nChannel next).post posted) := by
  unfold Channel.Written at written
  cases stepped with
  | decode pixels here =>
    refine stay_channel rfl ?_
    rw [here]
    cases pixels <;> rfl
  | get pixels buffer lists here got =>
    obtain ⟨taken,kept⟩ := DualPipe.Lists.get_eq got
    refine .move (.free nChannel) (.decoder nChannel) (nChannel,buffer) ?_ ?_
    · apply move_of_cons
      · simp
      · rw [contents_post,contents_setChannel]
        simp [World.contents,taken]
      · rw [contents_post,contents_setChannel]
        simp [World.contents,here,DecodePc.held]
      · intro place source target
        rw [contents_post,contents_setChannel,if_neg source,if_neg target,kept]
        split
        · next here => rw [here]; rfl
        · rfl
    · simp [Place.ready]
  | writeChannel buffer pixels here => exact stay_channel rfl (by rw [here]; rfl)
  | writeFrameno buffer pixels here => exact stay_channel rfl (by rw [here]; rfl)
  | writeImgbuf buffer pixels frameno here => exact stay_channel rfl (by rw [here]; rfl)
  | store buffer here =>
    simp only [here] at written
    refine .move (.decoder nChannel) (.filled nChannel) (nChannel,buffer) ?_ ?_
    · apply move_of_cons
      · simp
      · rw [contents_post,contents_setChannel]
        simp [World.contents,here,DecodePc.held]
      · rw [contents_post,contents_setChannel]
        simp [World.contents,DualPipe.Lists.store]
      · intro place source target
        rw [contents_post,contents_setChannel,if_neg source,if_neg target]
        split
        · next here => rw [here]; rfl
        · rfl
    · intro _
      right
      simpa [World.Labelled] using written
  | post here => exact stay_channel rfl (by rw [here]; rfl)
  | thrFps => exact stay_channel rfl rfl

/-- What a consumer can still copy is out of the decoder's reach. -/
theorem stepped_ready {pool : List (Nat × Nat)} (sound : Sound pool w)
    (stepped : (w.channels nChannel).Stepped nChannel action next events posted)
    (place : Place) (buffer : Nat × Nat) (ready : place.ready = true)
    (member : buffer ∈ w.contents place) :
    ((w.setChannel nChannel next).channels buffer.1).buffers buffer.2 =
      (w.channels buffer.1).buffers buffer.2 := by
  by_cases same : buffer.1 = nChannel
  · have apart : buffer.2 ∉ (w.channels nChannel).decoder.held := by
      intro held
      have decoding : buffer ∈ w.contents (.decoder nChannel) := by
        rw [← same] at held ⊢
        exact List.mem_map_of_mem held
      rw [sound.parts.apart _ _ _ member decoding] at ready
      contradiction
    rw [same,setChannel_self]
    exact stepped_buffers stepped buffer.2 apart
  · rw [setChannel_of_ne w next same]

private theorem channel_written {pool : List (Nat × Nat)} (sound : Sound pool w)
    (stepped : (w.channels nChannel).Stepped nChannel action next events posted) (other : Nat) :
    ((w.setChannel nChannel next).channels other).Written other := by
  by_cases same : other = nChannel
  · rw [same,setChannel_self]
    exact stepped_written stepped (sound.written nChannel)
  · rw [setChannel_of_ne w next same]
    exact sound.written other

private theorem channel_copied {pool : List (Nat × Nat)} (sound : Sound pool w)
    (stepped : (w.channels nChannel).Stepped nChannel action next events posted)
    (who : Consumer) : (w.setChannel nChannel next).Copied (w.consumers who) := by
  have copied := sound.copied who
  have held : ∀ buffer ∈ (w.consumers who).held,
      ((w.setChannel nChannel next).channels buffer.1).buffers buffer.2 =
        (w.channels buffer.1).buffers buffer.2 :=
    fun buffer member => stepped_ready sound stepped (.consumer who) buffer rfl member
  generalize w.consumers who = pc at copied held
  cases pc with
  | put dpipe buffer frame =>
    unfold World.Copied at copied ⊢
    simp only at copied ⊢
    rwa [held (dpipe,buffer) List.mem_cons_self]
  | insert dpipe buffer frame read number =>
    obtain ⟨own,labelled,channel_read⟩ := copied
    refine ⟨own,?_,channel_read⟩
    by_cases same : dpipe = nChannel
    · rw [same] at labelled ⊢
      rw [setChannel_self]
      exact stepped_channel stepped buffer labelled
    · rwa [setChannel_of_ne w next same]
  | _ => trivial

theorem channel_sound {pool : List (Nat × Nat)} (sound : Sound pool w)
    (stepped : (w.channels nChannel).Stepped nChannel action next events posted) :
    Sound pool ((w.setChannel nChannel next).post posted) := by
  have moved : Moved w ((w.setChannel nChannel next).post posted) :=
    stepped_moved stepped (sound.written nChannel)
  refine ⟨moved_parts moved sound.parts,moved_labelled moved sound ?_,
    channel_written sound stepped,channel_copied sound stepped⟩
  intro place buffer ready member
  have labelled := sound.labelled place buffer ready member
  unfold World.Labelled at labelled ⊢
  rwa [post_channels,stepped_ready sound stepped place buffer ready member]

end Channels

end Buffers

end VideoAnalytics.Pipeline
