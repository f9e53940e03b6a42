import VideoAnalytics.SurfaceSharingSteps

/-! Where the buffers of dKCFpipe are, to which surfaces the two threads refer through
them, and that Locked counts these references. -/
namespace VideoAnalytics.SurfaceSharing

open DecodeLoop (Status Answers Decoder)
open Function (update)

section Buffers

inductive Place
  | free
  | decoder
  | filled
  | tracker
  deriving DecidableEq, Repr

def DecodePc.held : DecodePc → List Nat
  | .lock buffer => [buffer]
  | .write buffer _ => [buffer]
  | .store buffer => [buffer]
  | _ => []

def TrackerPc.held : TrackerPc → List Nat
  | .track buffer => [buffer]
  | .copy buffer => [buffer]
  | .unlock buffer => [buffer]
  | .put buffer => [buffer]
  | _ => []

def World.contents (w : World) : Place → List Nat
  | .free => w.dKCFpipe.mInPipe
  | .decoder => w.pc.held
  | .filled => w.dKCFpipe.mOutPipe
  | .tracker => w.tracker.held

def pool : List Nat := List.range numOfBuffers

variable {infer : Int} {w next : World} {action : Action} {events : List Event}

theorem start_parts (nDecSurfNum nVppInSurfNum : Nat) :
    Partition.Parts pool (start nDecSurfNum nVppInSurfNum).contents := by
  refine ⟨?_,?_,?_⟩
  · intro place
    cases place with
    | free => exact List.nodup_reverse.mpr List.nodup_range
    | decoder => exact List.nodup_nil
    | filled => exact List.nodup_nil
    | tracker => exact List.nodup_nil
  · intro place other thing first second
    cases place with
    | free =>
      cases other with
      | free => rfl
      | decoder => contradiction
      | filled => contradiction
      | tracker => contradiction
    | decoder => contradiction
    | filled => contradiction
    | tracker => contradiction
  · intro thing
    constructor
    · intro member
      exact ⟨.free,List.mem_reverse.mpr member⟩
    · rintro ⟨place,member⟩
      cases place with
      | free => exact List.mem_reverse.mp member
      | decoder => contradiction
      | filled => contradiction
      | tracker => contradiction

private theorem keep_parts (parts : Partition.Parts pool w.contents)
    (pipe : next.dKCFpipe = w.dKCFpipe)
    (pc : next.pc.held = w.pc.held) (tracker : next.tracker.held = w.tracker.held) :
    Partition.Parts pool next.contents := by
  refine parts.congr fun place => ?_
  cases place with
  | free => exact congrArg DualPipe.Lists.mInPipe pipe
  | decoder => exact pc
  | filled => exact congrArg DualPipe.Lists.mOutPipe pipe
  | tracker => exact tracker

/-- DecodeThreadFunc is about to refer to the output in its slot. -/
def DecodePc.usesSlot : DecodePc → Bool
  | .get => true
  | .lock _ => true
  | _ => false

/-- The slot then holds an output, which the SDK is done with. -/
def World.Slotted (w : World) : Prop :=
  w.pc.usesSlot = true → ∃ surface, w.surfaceIn = some surface ∧ w.sdkDecodes surface = false

theorem step_parts (parts : Partition.Parts pool w.contents) (slotted : w.Slotted)
    (stepped : Stepped infer w action next events) : Partition.Parts pool next.contents := by
  cases stepped with
  | ends answers decoder here stops => exact keep_parts parts rfl rfl rfl
  | retry => exact parts
  | get buffer lists here got =>
    obtain ⟨free,out⟩ := DualPipe.Lists.get_eq got
    have move : Partition.Move .free .decoder buffer w.contents
        {w with dKCFpipe := lists,pc := .lock buffer}.contents := by
      refine ⟨by decide,List.Perm.of_eq free,?_,?_⟩
      · simp [World.contents,here,DecodePc.held]
      · intro place unfree undecoded
        cases place with
        | free => contradiction
        | decoder => contradiction
        | filled => exact out
        | tracker => rfl
    exact parts.move move
  | crashLock buffer here slot =>
    obtain ⟨surface,held,-⟩ := slotted (by rw [here]; rfl)
    rw [slot] at held
    contradiction
  | store buffer here =>
    have move : Partition.Move .decoder .filled buffer w.contents
        {w with dKCFpipe := w.dKCFpipe.store buffer,pc := .post}.contents := by
      refine ⟨by decide,?_,?_,?_⟩
      · simp [World.contents,here,DecodePc.held]
      · exact List.perm_append_singleton buffer w.dKCFpipe.mOutPipe
      · intro place undecoded unfilled
        cases place with
        | free => rfl
        | decoder => contradiction
        | filled => contradiction
        | tracker => rfl
    exact parts.move move
  | post here tokens decoder same pc there =>
    refine keep_parts parts rfl ?_ rfl
    rw [here]
    rcases there with rfl | rfl
    · rfl
    · rfl
  | wake here tokens => exact keep_parts parts rfl rfl (by rw [here]; rfl)
  | load buffer lists here loaded =>
    obtain ⟨out,free⟩ := DualPipe.Lists.load_eq loaded
    have move : Partition.Move .filled .tracker buffer w.contents
        {w with dKCFpipe := lists,tracker := .track buffer}.contents := by
      refine ⟨by decide,List.Perm.of_eq out,?_,?_⟩
      · simp [World.contents,here,TrackerPc.held]
      · intro place unfilled untracked
        cases place with
        | free => exact free
        | decoder => rfl
        | filled => contradiction
        | tracker => contradiction
    exact parts.move move
  | track buffer here => exact keep_parts parts rfl rfl (by rw [here]; rfl)
  | copy buffer here => exact keep_parts parts rfl rfl (by rw [here]; rfl)
  | unlock buffer here => exact keep_parts parts rfl rfl (by rw [here]; rfl)
  | put buffer here =>
    have move : Partition.Move .tracker .free buffer w.contents
        {w with dKCFpipe := w.dKCFpipe.put buffer,tracker := .load}.contents := by
      refine ⟨by decide,?_,List.Perm.refl _,?_⟩
      · simp [World.contents,here,TrackerPc.held]
      · intro place untracked unfree
        cases place with
        | free => contradiction
        | decoder => rfl
        | filled => rfl
        | tracker => contradiction
    exact parts.move move
  | sdkAcquire surface few => exact keep_parts parts rfl rfl rfl
  | sdkRelease surface some_held => exact keep_parts parts rfl rfl rfl
  | sdkWrite surface picture decodes => exact keep_parts parts rfl rfl rfl
  | goesOn answers sts here goes status => exact keep_parts parts rfl (by rw [here]; rfl) rfl
  | chooseDec index here found => exact keep_parts parts rfl (by rw [here]; rfl) rfl
  | keepDec here kept => exact keep_parts parts rfl (by rw [here]; rfl) rfl
  | chooseVppIn index here searches found => exact keep_parts parts rfl (by rw [here]; rfl) rfl
  | keepVppIn here => exact keep_parts parts rfl (by rw [here]; rfl) rfl
  | crashVppIn here searches read => exact keep_parts parts rfl (by rw [here]; rfl) rfl
  | output answers surfaceWork surface here work more fewer =>
    exact keep_parts parts rfl (by rw [here]; rfl) rfl
  | noOutput answers surfaceWork here work sts more needs =>
    exact keep_parts parts rfl (by rw [here]; rfl) rfl
  | lock buffer surface here slot frame same => exact keep_parts parts rfl (by rw [here]; rfl) rfl
  | write buffer surface here frame written => exact keep_parts parts rfl (by rw [here]; rfl) rfl
  | runFrameVPPAsync answers decoder here status => exact keep_parts parts rfl (by rw [here]; rfl) rfl

end Buffers

section References

/-- The surface to which DecodeThreadFunc refers for the frame in its hands. -/
def DecodePc.inUse (buffers : Nat → VsourceFrame) : DecodePc → List Nat
  | .write _ surface => [surface]
  | .store buffer => [(buffers buffer).pmfxSurface]
  | _ => []

def TrackerPc.inUse (buffers : Nat → VsourceFrame) : TrackerPc → List Nat
  | .track buffer => [(buffers buffer).pmfxSurface]
  | .copy buffer => [(buffers buffer).pmfxSurface]
  | .unlock buffer => [(buffers buffer).pmfxSurface]
  | _ => []

def World.filled (w : World) : List Nat :=
  w.dKCFpipe.mOutPipe.map fun buffer => (w.buffers buffer).pmfxSurface

/-- The surfaces that the two threads refer to, oldest first. -/
def World.inUse (w : World) : List Nat :=
  w.tracker.inUse w.buffers ++ w.filled ++ w.pc.inUse w.buffers

variable {infer : Int} {w next : World} {action : Action} {events : List Event}

/-- A write into the decoder's buffer is not seen by the tracker. -/
theorem setBuffer_elsewhere {buffer : Nat} (frame : VsourceFrame)
    (parts : Partition.Parts pool w.contents) (held : buffer ∈ w.pc.held) :
    w.tracker.inUse (w.setBuffer buffer frame).buffers = w.tracker.inUse w.buffers ∧
      (w.setBuffer buffer frame).filled = w.filled := by
  have apart : ∀ place, place ≠ .decoder → ∀ other ∈ w.contents place,
      (w.setBuffer buffer frame).buffers other = w.buffers other := by
    intro place elsewhere other member
    refine Function.update_of_ne ?_ frame w.buffers
    intro same
    rw [same] at member
    exact elsewhere (parts.apart place .decoder buffer member held)
  constructor
  · have tracked := apart .tracker (by decide)
    change ∀ other ∈ w.tracker.held, _ at tracked
    cases here : w.tracker with
    | track other =>
      rw [here] at tracked
      exact congrArg (fun found : VsourceFrame => [found.pmfxSurface]) (tracked other List.mem_cons_self)
    | copy other =>
      rw [here] at tracked
      exact congrArg (fun found : VsourceFrame => [found.pmfxSurface]) (tracked other List.mem_cons_self)
    | unlock other =>
      rw [here] at tracked
      exact congrArg (fun found : VsourceFrame => [found.pmfxSurface]) (tracked other List.mem_cons_self)
    | wait => rfl
    | load => rfl
    | put other => rfl
  · apply List.map_congr_left
    intro other member
    rw [apart .filled (by decide) other member]

/-- What a step does to the references of the two threads and to those of the SDK. -/
inductive Referred (w next : World) : Prop
  | same (kept : next.inUse = w.inUse) (sdk : next.sdkReferences = w.sdkReferences)
      (locked : ∀ surface, (next.surfaces surface).locked = (w.surfaces surface).locked)
  | locked (surface : Nat) (slot : w.surfaceIn = some surface) (here : w.pc.usesSlot = true)
      (surfaces : next.surfaces = (w.lock surface).surfaces)
      (sdk : next.sdkReferences = w.sdkReferences) (more : next.inUse = w.inUse ++ [surface])
  | unlocked (surface : Nat) (surfaces : next.surfaces = (w.unlock surface).surfaces)
      (sdk : next.sdkReferences = w.sdkReferences) (fewer : w.inUse = surface :: next.inUse)
  | acquired (surface : Nat) (kept : next.inUse = w.inUse) (few : w.sdkReferences surface < 32768)
      (surfaces : next.surfaces = (w.lock surface).surfaces)
      (sdk : next.sdkReferences =
        update w.sdkReferences surface (w.sdkReferences surface + 1))
  | released (surface : Nat) (kept : next.inUse = w.inUse) (some_held : 0 < w.sdkReferences surface)
      (surfaces : next.surfaces = (w.unlock surface).surfaces)
      (sdk : next.sdkReferences =
        update w.sdkReferences surface (w.sdkReferences surface - 1))

private theorem keep_inUse (buffers : next.buffers = w.buffers)
    (filled : next.dKCFpipe.mOutPipe = w.dKCFpipe.mOutPipe)
    (pc : next.pc.inUse w.buffers = w.pc.inUse w.buffers)
    (tracker : next.tracker.inUse w.buffers = w.tracker.inUse w.buffers) : next.inUse = w.inUse := by
  unfold World.inUse World.filled
  rw [buffers,filled,pc,tracker]

private theorem keep_referred (kept : next.inUse = w.inUse)
    (sdk : next.sdkReferences = w.sdkReferences)
    (surfaces : next.surfaces = w.surfaces) : Referred w next :=
  .same kept sdk fun surface => by rw [surfaces]

theorem step_referred (parts : Partition.Parts pool w.contents)
    (stepped : Stepped infer w action next events) : Referred w next := by
  cases stepped with
  | ends answers decoder here stops => exact keep_referred rfl rfl rfl
  | goesOn answers sts here goes status => exact keep_referred (keep_inUse rfl rfl (by rw [here]; rfl) rfl) rfl rfl
  | chooseDec index here found => exact keep_referred (keep_inUse rfl rfl (by rw [here]; rfl) rfl) rfl rfl
  | keepDec here kept => exact keep_referred (keep_inUse rfl rfl (by rw [here]; rfl) rfl) rfl rfl
  | retry => exact keep_referred rfl rfl rfl
  | chooseVppIn index here searches found => exact keep_referred (keep_inUse rfl rfl (by rw [here]; rfl) rfl) rfl rfl
  | keepVppIn here => exact keep_referred (keep_inUse rfl rfl (by rw [here]; rfl) rfl) rfl rfl
  | crashVppIn here searches read => exact keep_referred (keep_inUse rfl rfl (by rw [here]; rfl) rfl) rfl rfl
  | output answers surfaceWork surface here work more fewer =>
    exact keep_referred (keep_inUse rfl rfl (by rw [here]; rfl) rfl) rfl rfl
  | noOutput answers surfaceWork here work sts more needs =>
    exact keep_referred (keep_inUse rfl rfl (by rw [here]; rfl) rfl) rfl rfl
  | get buffer lists here got =>
    obtain ⟨-,out⟩ := DualPipe.Lists.get_eq got
    refine keep_referred ?_ rfl rfl
    unfold World.inUse World.filled
    rw [here,out]
    rfl
  | lock buffer surface here slot frame same =>
    obtain ⟨tracked,filled⟩ := setBuffer_elsewhere frame parts
      (by rw [here]; exact List.mem_cons_self : buffer ∈ w.pc.held)
    refine .locked surface slot (by rw [here]; rfl) rfl rfl ?_
    unfold World.inUse
    rw [here]
    change w.tracker.inUse (w.setBuffer buffer frame).buffers ++ (w.setBuffer buffer frame).filled ++
      [surface] = _
    rw [tracked,filled]
    simp [DecodePc.inUse]
  | crashLock buffer here slot => exact keep_referred (keep_inUse rfl rfl (by rw [here]; rfl) rfl) rfl rfl
  | write buffer surface here frame written =>
    obtain ⟨tracked,filled⟩ := setBuffer_elsewhere frame parts
      (by rw [here]; exact List.mem_cons_self : buffer ∈ w.pc.held)
    refine keep_referred ?_ rfl rfl
    unfold World.inUse
    rw [here]
    change w.tracker.inUse (w.setBuffer buffer frame).buffers ++ (w.setBuffer buffer frame).filled ++
      [((w.setBuffer buffer frame).buffers buffer).pmfxSurface] = _
    rw [tracked,filled]
    simp [World.setBuffer,written,DecodePc.inUse]
  | store buffer here =>
    refine keep_referred ?_ rfl rfl
    simp [World.inUse,World.filled,here,DecodePc.inUse,DualPipe.Lists.store]
  | post here tokens decoder same pc there =>
    refine keep_referred (keep_inUse rfl rfl ?_ rfl) rfl rfl
    rw [here]
    rcases there with rfl | rfl
    · rfl
    · rfl
  | runFrameVPPAsync answers decoder here status => exact keep_referred (keep_inUse rfl rfl (by rw [here]; rfl) rfl) rfl rfl
  | wake here tokens => exact keep_referred (keep_inUse rfl rfl rfl (by rw [here]; rfl)) rfl rfl
  | load buffer lists here loaded =>
    obtain ⟨out,-⟩ := DualPipe.Lists.load_eq loaded
    refine keep_referred ?_ rfl rfl
    simp [World.inUse,World.filled,here,TrackerPc.inUse,out]
  | track buffer here => exact keep_referred (keep_inUse rfl rfl rfl (by rw [here]; rfl)) rfl rfl
  | copy buffer here => exact keep_referred (keep_inUse rfl rfl rfl (by rw [here]; rfl)) rfl rfl
  | unlock buffer here =>
    refine .unlocked (w.buffers buffer).pmfxSurface rfl rfl ?_
    unfold World.inUse
    rw [here]
    rfl
  | put buffer here => exact keep_referred (keep_inUse rfl rfl rfl (by rw [here]; rfl)) rfl rfl
  | sdkAcquire surface few => exact .acquired surface rfl few rfl rfl
  | sdkRelease surface some_held => exact .released surface rfl some_held rfl rfl
  | sdkWrite surface picture decodes =>
    refine .same rfl rfl ?_
    intro other
    by_cases mine : other = surface
    · subst mine
      simp
    · simp [mine]

private theorem inUse_few (parts : Partition.Parts pool w.contents) :
    w.inUse.length ≤ numOfBuffers + 2 := by
  have tracker : (w.tracker.inUse w.buffers).length ≤ 1 := by
    cases w.tracker <;> simp [TrackerPc.inUse]
  have decoder : (w.pc.inUse w.buffers).length ≤ 1 := by
    cases w.pc <;> simp [DecodePc.inUse]
  have inside : w.dKCFpipe.mOutPipe ⊆ pool := fun buffer member =>
    (parts.cover buffer).mpr ⟨.filled,member⟩
  have filled : w.dKCFpipe.mOutPipe.length ≤ pool.length :=
    (List.subperm_of_subset (parts.nodup .filled) inside).length_le
  have size : pool.length = numOfBuffers := List.length_range
  unfold World.inUse World.filled
  simp only [List.length_append,List.length_map]
  omega

/-- Locked counts the references of the SDK and those of the two threads. -/
structure Counted (w : World) : Prop where
  locked : ∀ surface, (w.surfaces surface).locked =
    (w.sdkReferences surface + w.inUse.count surface) % 65536
  sdk : ∀ surface, w.sdkReferences surface ≤ 32768

theorem start_counted (nDecSurfNum nVppInSurfNum : Nat) :
    Counted (start nDecSurfNum nVppInSurfNum) :=
  ⟨fun _ => rfl,fun _ => Nat.zero_le _⟩

/-- A surface that is not locked is not in use. -/
theorem counted_free (parts : Partition.Parts pool w.contents) (counted : Counted w)
    {surface : Nat} (free : (w.surfaces surface).locked = 0) : surface ∉ w.inUse := by
  intro member
  have positive := List.count_pos_iff.mpr member
  have few := inUse_few parts
  have most := w.inUse.count_le_length (a := surface)
  have sdk := counted.sdk surface
  have locked := counted.locked surface
  rw [free] at locked
  unfold numOfBuffers at few
  omega

private theorem setLocked_self (w : World) (surface locked : Nat) :
    ((w.setLocked surface locked).surfaces surface).locked = locked % 65536 := by
  unfold World.setLocked
  simp

theorem setLocked_of_ne (w : World) {surface other : Nat} (locked : Nat) (different : other ≠ surface) :
    (w.setLocked surface locked).surfaces other = w.surfaces other := by
  unfold World.setLocked
  exact Function.update_of_ne different _ w.surfaces

private theorem lock_locked (w : World) (surface other : Nat) :
    ((w.lock surface).surfaces other).locked =
      if other = surface then ((w.surfaces other).locked + 1) % 65536
      else (w.surfaces other).locked := by
  split_ifs with mine
  · subst mine
    exact setLocked_self w other _
  · exact congrArg Surface.locked (setLocked_of_ne w _ mine)

private theorem unlock_locked (w : World) (surface other : Nat) :
    ((w.unlock surface).surfaces other).locked =
      if other = surface then ((w.surfaces other).locked + 65535) % 65536
      else (w.surfaces other).locked := by
  split_ifs with mine
  · subst mine
    exact setLocked_self w other _
  · exact congrArg Surface.locked (setLocked_of_ne w _ mine)

theorem referred_counted (counted : Counted w) (referred : Referred w next) : Counted next := by
  cases referred with
  | same kept sdk locked =>
    constructor
    · intro surface
      rw [locked,sdk,kept]
      exact counted.locked surface
    · rw [sdk]
      exact counted.sdk
  | locked surface slot here surfaces sdk more =>
    constructor
    · intro other
      have before := counted.locked other
      rw [surfaces,lock_locked,sdk,more,List.count_append]
      by_cases mine : other = surface
      · subst mine
        rw [if_pos rfl,List.count_singleton_self]
        omega
      · rw [if_neg mine,List.count_singleton,if_neg (by simpa using Ne.symm mine)]
        exact before
    · rw [sdk]
      exact counted.sdk
  | unlocked surface surfaces sdk fewer =>
    constructor
    · intro other
      have before := counted.locked other
      rw [surfaces,unlock_locked,sdk]
      by_cases mine : other = surface
      · subst mine
        rw [fewer,List.count_cons_self] at before
        rw [if_pos rfl]
        omega
      · rw [fewer,List.count_cons_of_ne (Ne.symm mine)] at before
        rw [if_neg mine]
        exact before
    · rw [sdk]
      exact counted.sdk
  | acquired surface kept few surfaces sdk =>
    constructor
    · intro other
      have before := counted.locked other
      rw [surfaces,lock_locked,sdk,kept,Function.update_apply]
      split_ifs with mine
      · subst mine
        omega
      · exact before
    · intro other
      rw [sdk,Function.update_apply]
      split_ifs with mine
      · omega
      · exact counted.sdk other
  | released surface kept some_held surfaces sdk =>
    constructor
    · intro other
      have before := counted.locked other
      rw [surfaces,unlock_locked,sdk,kept,Function.update_apply]
      split_ifs with mine
      · subst mine
        omega
      · exact before
    · intro other
      have most := counted.sdk other
      rw [sdk,Function.update_apply]
      split_ifs with mine
      · subst mine
        omega
      · exact most

end References

end VideoAnalytics.SurfaceSharing
