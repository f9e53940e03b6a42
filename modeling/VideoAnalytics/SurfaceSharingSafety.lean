import VideoAnalytics.SurfaceSharingControl
import VideoAnalytics.SurfaceSharingCounter

/-! The tracker sees every picture that was put out, once and in order, and no surface
is given to the decoder before the tracker is done with it. -/
namespace VideoAnalytics.SurfaceSharing

open DecodeLoop (Status Answers Decoder)
open Function (update)

section Pictures

variable {infer : Int} {w next : World} {action : Action} {events trace : List Event}

def outputPictures (trace : List Event) : List Nat :=
  trace.filterMap fun
    | .output picture => some picture
    | _ => none

def trackedPictures (trace : List Event) : List Nat :=
  trace.filterMap fun
    | .tracked picture _ => some picture
    | _ => none

def shownPictures (trace : List Event) : List Nat :=
  trace.filterMap fun
    | .shown picture => some picture
    | _ => none

/-- The output that DecodeThreadFunc is about to refer to. -/
def World.slot (w : World) : List Nat := if w.pc.usesSlot then w.surfaceIn.toList else []

def TrackerPc.tracks : TrackerPc → Bool
  | .track _ => true
  | _ => false

def TrackerPc.copies : TrackerPc → Bool
  | .copy _ => true
  | _ => false

/-- The surface that the tracker has loaded and not yet tracked. -/
def World.loaded (w : World) : List Nat :=
  if w.tracker.tracks then w.tracker.inUse w.buffers else []

def World.unshown (w : World) : List Nat :=
  if w.tracker.copies then w.tracker.inUse w.buffers else []

/-- The surfaces that were put out and that the tracker has not looked at. -/
def World.underway (w : World) : List Nat :=
  w.loaded ++ w.filled ++ w.pc.inUse w.buffers ++ w.slot

def World.pictures (w : World) (surfaces : List Nat) : List Nat :=
  surfaces.map fun surface => (w.surfaces surface).picture

/-- The pictures put out are those that were tracked and those underway, and the
tracker shows each picture that it has tracked. -/
structure Seen (w : World) (trace : List Event) : Prop where
  tracked : outputPictures trace = trackedPictures trace ++ w.pictures w.underway
  shown : trackedPictures trace = shownPictures trace ++ w.pictures w.unshown

private theorem underway_done (apart : Apart w) {surface : Nat} (member : surface ∈ w.underway) :
    w.sdkDecodes surface = false := by
  unfold World.underway World.loaded World.slot at member
  rcases List.mem_append.mp member with inUse | slot
  · apply apart.done
    unfold World.inUse
    simp only [List.mem_append] at inUse ⊢
    rcases inUse with (loaded | filled) | decoder
    · split_ifs at loaded
      · exact .inl (.inl loaded)
      · contradiction
    · exact .inl (.inr filled)
    · exact .inr decoder
  · split_ifs at slot with slotted
    · obtain ⟨other,there,done⟩ := apart.slotted slotted
      rw [there] at slot
      rwa [List.mem_singleton.mp slot]
    · contradiction

private theorem unshown_done (apart : Apart w) {surface : Nat} (member : surface ∈ w.unshown) :
    w.sdkDecodes surface = false := by
  unfold World.unshown at member
  split_ifs at member
  · apply apart.done
    unfold World.inUse
    rw [List.append_assoc]
    exact List.mem_append_left _ member
  · contradiction

/-- What a step does to the surfaces on their way to the tracker. -/
inductive Passed (w next : World) : List Event → Prop
  | same (underway : next.underway = w.underway) (unshown : next.unshown = w.unshown) :
      Passed w next []
  | output (surface : Nat) (surfaces : next.surfaces = w.surfaces)
      (more : next.underway = w.underway ++ [surface]) (unshown : next.unshown = w.unshown) :
      Passed w next [.output (w.surfaces surface).picture]
  | tracked (surface : Nat) (bROIRrefresh : Bool) (fewer : w.underway = surface :: next.underway)
      (shown : w.unshown = []) (unshown : next.unshown = [surface]) :
      Passed w next [.tracked (w.surfaces surface).picture bROIRrefresh]
  | shown (surface : Nat) (underway : next.underway = w.underway) (unshown : w.unshown = [surface])
      (shown : next.unshown = []) : Passed w next [.shown (w.surfaces surface).picture]

private theorem keep_passed (buffers : next.buffers = w.buffers)
    (tracker : next.tracker = w.tracker)
    (filled : next.filled = w.filled) (pc : next.pc.inUse w.buffers = w.pc.inUse w.buffers)
    (slot : next.slot = w.slot) : Passed w next [] := by
  refine .same ?_ ?_
  · unfold World.underway World.loaded
    rw [buffers,tracker,filled,pc,slot]
  · unfold World.unshown
    rw [buffers,tracker]

private theorem pass_passed (tracker : next.tracker = w.tracker)
    (tracked : w.tracker.inUse next.buffers = w.tracker.inUse w.buffers)
    (same : next.filled ++ next.pc.inUse next.buffers ++ next.slot =
      w.filled ++ w.pc.inUse w.buffers ++ w.slot) : Passed w next [] := by
  refine .same ?_ ?_
  · unfold World.underway World.loaded
    rw [tracker,tracked,List.append_assoc,List.append_assoc,← List.append_assoc next.filled,same]
    simp
  · unfold World.unshown
    rw [tracker,tracked]

private theorem slot_unused (unslotted : w.pc.usesSlot = false) : w.slot = [] := by
  unfold World.slot
  rw [unslotted]
  rfl

/-- A step of DecodeThreadFunc between two places where it has no output in its hands. -/
theorem plain_passed (buffers : next.buffers = w.buffers) (tracker : next.tracker = w.tracker)
    (filled : next.filled = w.filled) (before : w.pc.inUse w.buffers = [] ∧ w.pc.usesSlot = false)
    (after : next.pc.inUse w.buffers = [] ∧ next.pc.usesSlot = false) : Passed w next [] :=
  keep_passed buffers tracker filled (after.1.trans before.1.symm)
    ((slot_unused after.2).trans (slot_unused before.2).symm)

private theorem decode_passed (parts : Partition.Parts pool w.contents)
    (stepped : Stepped infer w .decodeThread next events) : Passed w next events := by
  cases stepped with
  | retry => exact keep_passed rfl rfl rfl rfl rfl
  | chooseDec index here found =>
    exact plain_passed rfl rfl rfl (by rw [here]; exact ⟨rfl,rfl⟩) ⟨rfl,rfl⟩
  | keepDec here kept => exact plain_passed rfl rfl rfl (by rw [here]; exact ⟨rfl,rfl⟩) ⟨rfl,rfl⟩
  | chooseVppIn index here searches found =>
    exact plain_passed rfl rfl rfl (by rw [here]; exact ⟨rfl,rfl⟩) ⟨rfl,rfl⟩
  | keepVppIn here => exact plain_passed rfl rfl rfl (by rw [here]; exact ⟨rfl,rfl⟩) ⟨rfl,rfl⟩
  | crashVppIn here searches read =>
    exact plain_passed rfl rfl rfl (by rw [here]; exact ⟨rfl,rfl⟩) ⟨rfl,rfl⟩
  | get buffer lists here got =>
    obtain ⟨-,out⟩ := DualPipe.Lists.get_eq got
    refine keep_passed rfl rfl ?_ (by rw [here]; rfl) ?_
    · unfold World.filled
      rw [out]
    · unfold World.slot
      rw [here]
      rfl
  | lock buffer surface here slot frame same =>
    obtain ⟨tracked,filled⟩ := setBuffer_elsewhere frame parts
      (by rw [here]; exact List.mem_cons_self : buffer ∈ w.pc.held)
    refine pass_passed rfl tracked ?_
    change (w.setBuffer buffer frame).filled ++ [surface] ++ [] = _
    unfold World.slot
    rw [filled,here,slot]
    simp [DecodePc.inUse,DecodePc.usesSlot]
  | crashLock buffer here slot =>
    refine keep_passed rfl rfl rfl (by rw [here]; rfl) ?_
    unfold World.slot
    rw [here,slot]
    rfl
  | write buffer surface here frame written =>
    obtain ⟨tracked,filled⟩ := setBuffer_elsewhere frame parts
      (by rw [here]; exact List.mem_cons_self : buffer ∈ w.pc.held)
    refine pass_passed rfl tracked ?_
    change (w.setBuffer buffer frame).filled ++
      [((w.setBuffer buffer frame).buffers buffer).pmfxSurface] ++ [] = _
    unfold World.slot
    rw [filled,here]
    simp [World.setBuffer,written,DecodePc.inUse,DecodePc.usesSlot]
  | store buffer here =>
    refine pass_passed rfl rfl ?_
    simp [World.filled,World.slot,here,DecodePc.inUse,DecodePc.usesSlot,DualPipe.Lists.store]
  | post here tokens decoder same pc there =>
    rcases there with rfl | rfl
    · exact plain_passed rfl rfl rfl (by rw [here]; exact ⟨rfl,rfl⟩) ⟨rfl,rfl⟩
    · exact plain_passed rfl rfl rfl (by rw [here]; exact ⟨rfl,rfl⟩) ⟨rfl,rfl⟩

private theorem tracker_passed (stepped : Stepped infer w .trackerThread next events) :
    Passed w next events := by
  cases stepped with
  | wake here tokens =>
    refine .same ?_ ?_
    · simp [World.underway,World.loaded,World.filled,World.slot,World.surfaceIn,here,TrackerPc.tracks]
    · simp [World.unshown,here,TrackerPc.copies]
  | load buffer lists here loaded =>
    obtain ⟨out,-⟩ := DualPipe.Lists.load_eq loaded
    refine .same ?_ ?_
    · simp [World.underway,World.loaded,World.filled,World.slot,World.surfaceIn,here,
        TrackerPc.tracks,TrackerPc.inUse,out]
    · simp [World.unshown,here,TrackerPc.copies]
  | track buffer here =>
    refine .tracked _ _ ?_ ?_ ?_
    · simp [World.underway,World.loaded,World.filled,World.slot,World.surfaceIn,here,
        TrackerPc.tracks,TrackerPc.inUse]
    · simp [World.unshown,here,TrackerPc.copies]
    · simp [World.unshown,TrackerPc.copies,TrackerPc.inUse]
  | copy buffer here =>
    refine .shown _ ?_ ?_ ?_
    · simp [World.underway,World.loaded,World.filled,World.slot,World.surfaceIn,here,TrackerPc.tracks]
    · simp [World.unshown,here,TrackerPc.copies,TrackerPc.inUse]
    · simp [World.unshown,TrackerPc.copies]
  | unlock buffer here =>
    refine .same ?_ ?_
    · simp [World.underway,World.loaded,World.filled,World.slot,World.surfaceIn,here,
        TrackerPc.tracks,World.unlock,World.setLocked]
    · simp [World.unshown,here,TrackerPc.copies]
  | put buffer here =>
    refine .same ?_ ?_
    · simp [World.underway,World.loaded,World.filled,World.slot,World.surfaceIn,here,
        TrackerPc.tracks,DualPipe.Lists.put]
    · simp [World.unshown,here,TrackerPc.copies]

private theorem step_passed (parts : Partition.Parts pool w.contents) (controlled : Controlled w)
    (stepped : Stepped infer w action next events) : Passed w next events := by
  cases action with
  | iterate answers =>
    cases stepped with
    | ends _ decoder here stops => exact keep_passed rfl rfl rfl rfl rfl
    | goesOn _ sts here goes status =>
      exact plain_passed rfl rfl rfl (by rw [here]; exact ⟨rfl,rfl⟩) ⟨rfl,rfl⟩
  | decodeThread => exact decode_passed parts stepped
  | decodeFrameAsync answers surfaceOut =>
    cases stepped with
    | output _ surfaceWork surface here work more fewer =>
      refine .output surface rfl ?_ rfl
      have slot : (w.given surfaceWork (some surface)).surfaceIn = some surface := by
        change (w.pmfxVppInSurfaces.set w.nIndexVppIn (some surface))[w.nIndexVppIn]?.join = _
        rw [List.getElem?_set_self controlled.inRange]
        rfl
      change w.loaded ++ w.filled ++ [] ++ (w.given surfaceWork (some surface)).surfaceIn.toList = _
      rw [slot]
      unfold World.underway
      rw [slot_unused (by rw [here]; rfl),here]
      simp [DecodePc.inUse]
    | noOutput _ surfaceWork here work sts more needs =>
      exact plain_passed rfl rfl rfl (by rw [here]; exact ⟨rfl,rfl⟩) ⟨rfl,rfl⟩
  | runFrameVPPAsync answers =>
    cases stepped with
    | runFrameVPPAsync _ decoder here status =>
      exact plain_passed rfl rfl rfl (by rw [here]; exact ⟨rfl,rfl⟩) ⟨rfl,rfl⟩
  | trackerThread => exact tracker_passed stepped
  | sdkAcquire surface =>
    cases stepped
    exact keep_passed rfl rfl rfl rfl rfl
  | sdkRelease surface =>
    cases stepped
    exact keep_passed rfl rfl rfl rfl rfl
  | sdkWrite surface picture =>
    cases stepped
    exact keep_passed rfl rfl rfl rfl rfl

private theorem setLocked_picture (w : World) (surface locked other : Nat) :
    ((w.setLocked surface locked).surfaces other).picture = (w.surfaces other).picture := by
  by_cases mine : other = surface
  · subst mine
    simp [World.setLocked]
  · rw [setLocked_of_ne w locked mine]

/-- The SDK writes only into surfaces that it decodes into. -/
theorem step_picture (stepped : Stepped infer w action next events) {surface : Nat}
    (done : w.sdkDecodes surface = false) :
    (next.surfaces surface).picture = (w.surfaces surface).picture := by
  cases stepped with
  | lock buffer locked here slot frame same =>
    exact setLocked_picture (w.setBuffer buffer frame) locked _ surface
  | unlock buffer here => exact setLocked_picture w (w.buffers buffer).pmfxSurface _ surface
  | sdkAcquire locked few => exact setLocked_picture w locked _ surface
  | sdkRelease locked some_held => exact setLocked_picture w locked _ surface
  | sdkWrite written picture decodes =>
    have different : surface ≠ written := by
      intro same
      rw [← same,done] at decodes
      contradiction
    exact congrArg Surface.picture (Function.update_of_ne different _ w.surfaces)
  | _ => rfl

private theorem pictures_kept (stepped : Stepped infer w action next events) {surfaces : List Nat}
    (done : ∀ surface ∈ surfaces, w.sdkDecodes surface = false) :
    next.pictures surfaces = w.pictures surfaces :=
  List.map_congr_left fun surface member => step_picture stepped (done surface member)

private theorem step_seen (parts : Partition.Parts pool w.contents) (controlled : Controlled w)
    (apart : Apart w) (seen : Seen w trace) (stepped : Stepped infer w action next events) :
    Seen next (trace ++ events) := by
  have tracked := seen.tracked
  have shown := seen.shown
  have underway : next.pictures w.underway = w.pictures w.underway :=
    pictures_kept stepped fun _ member => underway_done apart member
  have unshown : next.pictures w.unshown = w.pictures w.unshown :=
    pictures_kept stepped fun _ member => unshown_done apart member
  rw [← underway] at tracked
  rw [← unshown] at shown
  cases step_passed parts controlled stepped with
  | same underway unshown =>
    rw [List.append_nil]
    exact ⟨by rw [underway]; exact tracked,by rw [unshown]; exact shown⟩
  | output surface surfaces more unshown =>
    constructor
    · simp only [outputPictures,trackedPictures,List.filterMap_append] at tracked ⊢
      rw [more,tracked]
      simp [World.pictures,surfaces]
    · simp only [trackedPictures,shownPictures,List.filterMap_append] at shown ⊢
      rw [unshown,shown]
      simp
  | tracked surface bROIRrefresh fewer before unshown =>
    have picture : (next.surfaces surface).picture = (w.surfaces surface).picture :=
      step_picture stepped (underway_done apart (by rw [fewer]; exact List.mem_cons_self))
    constructor
    · simp only [outputPictures,trackedPictures,List.filterMap_append] at tracked ⊢
      rw [tracked,fewer]
      simp [World.pictures,picture]
    · simp only [trackedPictures,shownPictures,List.filterMap_append] at shown ⊢
      rw [unshown,shown,before]
      simp [World.pictures,picture]
  | shown surface underway before after =>
    have picture : (next.surfaces surface).picture = (w.surfaces surface).picture :=
      step_picture stepped (unshown_done apart (by rw [before]; exact List.mem_cons_self))
    constructor
    · simp only [outputPictures,trackedPictures,List.filterMap_append] at tracked ⊢
      rw [tracked,underway]
      simp
    · simp only [trackedPictures,shownPictures,List.filterMap_append] at shown ⊢
      rw [shown,before,after]
      simp [World.pictures,picture]

end Pictures

section Runs

variable {infer : Int} {w next : World} {action : Action} {events trace : List Event}

structure Safe (w : World) (trace : List Event) : Prop where
  parts : Partition.Parts pool w.contents
  counted : Counted w
  controlled : Controlled w
  apart : Apart w
  seen : Seen w trace
  intact : w.pc ≠ .crashed

private theorem start_safe (nDecSurfNum : Nat) {nVppInSurfNum : Nat} (slots : 0 < nVppInSurfNum) :
    Safe (start nDecSurfNum nVppInSurfNum) [] :=
  ⟨start_parts nDecSurfNum nVppInSurfNum,start_counted nDecSurfNum nVppInSurfNum,
    start_controlled nDecSurfNum slots,start_apart nDecSurfNum nVppInSurfNum,⟨rfl,rfl⟩,by simp [start]⟩

private theorem step_intact (safe : Safe w trace) (stepped : Stepped infer w action next events) :
    next.pc ≠ .crashed := by
  cases stepped with
  | crashVppIn here searches read =>
    obtain ⟨index,empty⟩ := search_nullRead read
    exact absurd empty (search_intact safe.controlled here searches index)
  | crashLock buffer here slot =>
    obtain ⟨surface,held,-⟩ := safe.apart.slotted (by rw [here]; rfl)
    rw [slot] at held
    contradiction
  | post here tokens decoder same pc there =>
    rcases there with rfl | rfl
    · simp
    · simp
  | ends answers decoder here stops => exact safe.intact
  | retry => exact safe.intact
  | wake here tokens => exact safe.intact
  | load buffer lists here loaded => exact safe.intact
  | track buffer here => exact safe.intact
  | copy buffer here => exact safe.intact
  | unlock buffer here => exact safe.intact
  | put buffer here => exact safe.intact
  | sdkAcquire surface few => exact safe.intact
  | sdkRelease surface some_held => exact safe.intact
  | sdkWrite surface picture decodes => exact safe.intact
  | _ => simp

/-- SyncOperation leaves no warning behind, such as one that it has timed out. -/
def Action.Synced : Action → Prop
  | .runFrameVPPAsync answers => answers.syncOperation.isWarning = false
  | _ => True

instance synced_decidable : ∀ action : Action, Decidable action.Synced
  | .runFrameVPPAsync answers =>
    inferInstanceAs (Decidable (answers.syncOperation.isWarning = false))
  | .iterate _ | .decodeThread | .decodeFrameAsync _ _ | .trackerThread | .sdkAcquire _
  | .sdkRelease _ | .sdkWrite _ _ => .isTrue trivial

private theorem step_safe (safe : Safe w trace) (synced : action.Synced)
    (stepped : Stepped infer w action next events) : Safe next (trace ++ events) := by
  have parts := step_parts safe.parts safe.apart.slotted stepped
  have free := step_free safe.parts safe.counted safe.controlled safe.apart stepped
    (fun answers same => by rw [same] at synced; exact synced)
  exact ⟨parts,referred_counted safe.counted (step_referred safe.parts stepped),
    step_controlled safe.controlled stepped,
    ⟨step_slotted safe.controlled safe.apart.slotted stepped,
      step_done safe.parts safe.apart stepped,free⟩,
    step_seen safe.parts safe.controlled safe.apart safe.seen stepped,step_intact safe stepped⟩

private theorem sharing_safe {actions : List Action} {nDecSurfNum nVppInSurfNum : Nat}
    (slots : 0 < nVppInSurfNum) (synced : ∀ action ∈ actions, action.Synced)
    (ran : (sharing infer).run (start nDecSurfNum nVppInSurfNum) actions = some (w,trace)) :
    Safe w trace := by
  refine Machine.run_invariant_along Safe ?_ (start_safe nDecSurfNum slots)
    ((Machine.along_actions ran).mpr synced) ran
  intro state seen action next emitted safe condition stepped
  exact step_safe safe condition (step_stepped stepped)

end Runs

section Samples

def answering (decodeFrameAsync syncOperation : Status) : Answers :=
  ⟨true,.errNone,.errNone,decodeFrameAsync,false,true,[(.errNone,true)],syncOperation⟩

/-- DecodeThreadFunc from the search for surfaces to sem_post, with one output. -/
def outputFrame (surface : Nat) : List Access :=
  [.step (.iterate (answering .errNone .errNone)),.step .decodeThread,.step .decodeThread,
    .step (.decodeFrameAsync (answering .errNone .errNone) (some surface)),.step .decodeThread,
    .load .decodeThread] ++ List.replicate 4 (.step .decodeThread)

/-- The decoder wants a second surface before it puts out the first, and the SDK is at its
references to the second while the threads are at the first. -/
def trackedFrame : List Access :=
  [.step (.iterate (answering .errNone .errNone)),.step .decodeThread,.step .decodeThread,
    .step (.decodeFrameAsync (answering .errMoreSurface .errNone) none),
    .load (.sdk 0),.step (.sdkAcquire 0),.step (.sdkWrite 0 7),.load (.sdk 1)] ++
    outputFrame 0 ++
    [.step (.sdkAcquire 1),.step (.runFrameVPPAsync (answering .errNone .errNone)),
      .load (.sdk 0),.step (.sdkRelease 0)] ++ List.replicate 4 (.step .trackerThread) ++
    [.load .trackerThread,.step .trackerThread,.step .trackerThread]

/-- The SDK loads a counter that DecodeThreadFunc updates before it stores: one of the two
references is not counted. -/
example : ((counting 1).run ⟨start 1 1,fun _ => none⟩
    ([.load (.sdk 0)] ++ outputFrame 0 ++ [.step (.sdkAcquire 0)])).map
    (fun out => ((out.1.world.surfaces 0).locked,out.1.world.sdkReferences 0,out.1.world.inUse)) =
      some (1,1,[0]) := by
  decide +kernel

/-- After a warning of SyncOperation the surface in the pipe is the next work surface. -/
example : ((counting 1).run ⟨start 1 1,fun _ => none⟩ (outputFrame 0 ++
    [.step (.runFrameVPPAsync (answering .errNone (.warning 1))),
      .step (.iterate (answering .errNone .errNone)),.step .decodeThread,.step .decodeThread])).map
    (fun out => (out.1.world.pc,out.1.world.surfaceWork,out.1.world.inUse)) =
      some (.decodeFrameAsync,some 0,[0]) := by
  decide +kernel

end Samples

end VideoAnalytics.SurfaceSharing
