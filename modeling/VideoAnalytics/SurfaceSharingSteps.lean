import VideoAnalytics.SurfaceSharing

/-! What each step of the two threads and of the SDK does, said once for all
invariants. -/
namespace VideoAnalytics.SurfaceSharing

open DecodeLoop (Status Answers Decoder)
open Function (update)

/-- A status that the loop goes on with, without choosing surfaces anew. -/
def World.keeps (w : World) : Bool := w.decoder.sts.isWarning

/-- What DecodeFrameAsync leaves behind: the work surface is given to the SDK, and
the slot of the VPP input holds what it put out. -/
def World.given (w : World) (surfaceWork : Nat) (surfaceOut : Option Nat) : World :=
  {w with
    sdkDecodes := update w.sdkDecodes surfaceWork true
    pmfxVppInSurfaces := w.pmfxVppInSurfaces.set w.nIndexVppIn surfaceOut}

inductive Stepped (infer : Int) (w : World) : Action → World → List Event → Prop
  | ends (answers : Answers) (decoder : Decoder) (here : w.pc = .next)
      (stops : decoder.goesOn = false) :
      Stepped infer w (.iterate answers) {w with decoder := decoder} []
  | goesOn (answers : Answers) (sts : Status) (here : w.pc = .next)
      (goes : w.decoder.goesOn = true)
      (status : (sts = w.decoder.sts ∧ (w.chooses = true ∨ w.keeps = true)) ∨
        (w.decoder.sts = .errMoreData ∧ sts = .errNone)) :
      Stepped infer w (.iterate answers)
        {w with decoder := {w.decoder with sts := sts},pc := .searchDec} []
  | chooseDec (index : Nat) (here : w.pc = .searchDec)
      (found : getFreeSurfaceIndex w.surfaces 0 (w.pmfxDecSurfaces.map some) = .found index) :
      Stepped infer w .decodeThread {w with nIndexDec := index,pc := .searchVppIn} []
  | keepDec (here : w.pc = .searchDec) (kept : w.chooses = false) :
      Stepped infer w .decodeThread {w with pc := .searchVppIn} []
  | retry : Stepped infer w .decodeThread w []
  | chooseVppIn (index : Nat) (here : w.pc = .searchVppIn)
      (searches : (!w.bNeedMore && w.chooses) = true)
      (found : getFreeSurfaceIndex w.surfaces 0 w.pmfxVppInSurfaces = .found index) :
      Stepped infer w .decodeThread {w with nIndexVppIn := index,pc := .decodeFrameAsync} []
  | keepVppIn (here : w.pc = .searchVppIn) :
      Stepped infer w .decodeThread {w with pc := .decodeFrameAsync} []
  | crashVppIn (here : w.pc = .searchVppIn) (searches : (!w.bNeedMore && w.chooses) = true)
      (read : getFreeSurfaceIndex w.surfaces 0 w.pmfxVppInSurfaces = .nullRead) :
      Stepped infer w .decodeThread {w with pc := .crashed} []
  | output (answers : Answers) (surfaceWork surface : Nat) (here : w.pc = .decodeFrameAsync)
      (work : w.surfaceWork = some surfaceWork) (more : Bool) (fewer : more = true → w.bNeedMore) :
      Stepped infer w (.decodeFrameAsync answers (some surface))
        {w.given surfaceWork (some surface) with
          sdkDecodes := update (update w.sdkDecodes surfaceWork true) surface false
          bNeedMore := more
          decoder := {w.decoder with sts := .errNone,decoded := w.decoder.decoded + 1}
          pc := .get}
        [.output (w.surfaces surface).picture]
  | noOutput (answers : Answers) (surfaceWork : Nat) (here : w.pc = .decodeFrameAsync)
      (work : w.surfaceWork = some surfaceWork) (sts : Status) (more : Bool)
      (needs : more = true ∨ sts.isWarning = true ∨ ∃ code, sts = .error code) :
      Stepped infer w (.decodeFrameAsync answers none)
        {w.given surfaceWork none with
          bNeedMore := more
          decoder := {w.decoder with sts := sts}
          pc := .next} []
  | get (buffer : Nat) (lists : DualPipe.Lists) (here : w.pc = .get)
      (got : w.dKCFpipe.get = some (buffer,lists)) :
      Stepped infer w .decodeThread {w with dKCFpipe := lists,pc := .lock buffer} []
  | lock (buffer surface : Nat) (here : w.pc = .lock buffer) (slot : w.surfaceIn = some surface)
      (frame : VsourceFrame) (same : frame.pmfxSurface = (w.buffers buffer).pmfxSurface) :
      Stepped infer w .decodeThread
        {(w.setBuffer buffer frame).lock surface with pc := .write buffer surface} []
  | crashLock (buffer : Nat) (here : w.pc = .lock buffer) (slot : w.surfaceIn = none) :
      Stepped infer w .decodeThread {w with pc := .crashed} []
  | write (buffer surface : Nat) (here : w.pc = .write buffer surface) (frame : VsourceFrame)
      (written : frame.pmfxSurface = surface) :
      Stepped infer w .decodeThread {w.setBuffer buffer frame with pc := .store buffer} []
  | store (buffer : Nat) (here : w.pc = .store buffer) :
      Stepped infer w .decodeThread {w with dKCFpipe := w.dKCFpipe.store buffer,pc := .post} []
  | post (here : w.pc = .post) (tokens : Nat) (decoder : Decoder)
      (same : decoder.sts = w.decoder.sts) (pc : DecodePc)
      (there : pc = .runFrameVPPAsync ∨ pc = .next) :
      Stepped infer w .decodeThread
        {w with gNewTrackTaskAvaiable := tokens,decoder := decoder,pc := pc} []
  | runFrameVPPAsync (answers : Answers) (decoder : Decoder) (here : w.pc = .runFrameVPPAsync)
      (status : decoder.sts.isWarning = true → answers.syncOperation.isWarning = true) :
      Stepped infer w (.runFrameVPPAsync answers) {w with decoder := decoder,pc := .next} []
  | wake (here : w.tracker = .wait) (tokens : Nat) :
      Stepped infer w .trackerThread {w with gNewTrackTaskAvaiable := tokens,tracker := .load} []
  | load (buffer : Nat) (lists : DualPipe.Lists) (here : w.tracker = .load)
      (loaded : w.dKCFpipe.load = some (buffer,lists)) :
      Stepped infer w .trackerThread {w with dKCFpipe := lists,tracker := .track buffer} []
  | track (buffer : Nat) (here : w.tracker = .track buffer) :
      Stepped infer w .trackerThread {w with tracker := .copy buffer}
        [.tracked (w.surfaces (w.buffers buffer).pmfxSurface).picture (w.buffers buffer).bROIRrefresh]
  | copy (buffer : Nat) (here : w.tracker = .copy buffer) :
      Stepped infer w .trackerThread {w with tracker := .unlock buffer}
        [.shown (w.surfaces (w.buffers buffer).pmfxSurface).picture]
  | unlock (buffer : Nat) (here : w.tracker = .unlock buffer) :
      Stepped infer w .trackerThread
        {w.unlock (w.buffers buffer).pmfxSurface with tracker := .put buffer} []
  | put (buffer : Nat) (here : w.tracker = .put buffer) :
      Stepped infer w .trackerThread {w with dKCFpipe := w.dKCFpipe.put buffer,tracker := .load} []
  | sdkAcquire (surface : Nat) (few : w.sdkReferences surface < 32768) :
      Stepped infer w (.sdkAcquire surface) {w.lock surface with
        sdkReferences := update w.sdkReferences surface (w.sdkReferences surface + 1)} []
  | sdkRelease (surface : Nat) (some_held : 0 < w.sdkReferences surface) :
      Stepped infer w (.sdkRelease surface) {w.unlock surface with
        sdkReferences := update w.sdkReferences surface (w.sdkReferences surface - 1)} []
  | sdkWrite (surface picture : Nat) (decodes : w.sdkDecodes surface = true) :
      Stepped infer w (.sdkWrite surface picture) {w with
        surfaces := update w.surfaces surface {w.surfaces surface with picture := picture}} []

variable {infer : Int} {w next : World} {events : List Event}

private theorem search_valid (surfaces : Nat → Surface) (pool : List Nat) (i : Nat) :
    getFreeSurfaceIndex surfaces i (pool.map some) ≠ .nullRead := by
  induction pool generalizing i with
  | nil => simp [getFreeSurfaceIndex]
  | cons surface rest ih =>
    simp only [List.map_cons,getFreeSurfaceIndex]
    split
    · simp
    · exact ih (i + 1)

/-- The search ends at an index of the pool whose surface nobody has locked. -/
theorem search_found {surfaces : Nat → Surface} {pool : List (Option Nat)} {i index : Nat}
    (found : getFreeSurfaceIndex surfaces i pool = .found index) :
    ∃ surface, i ≤ index ∧ pool[index - i]? = some (some surface) ∧
      (surfaces surface).locked = 0 := by
  induction pool generalizing i with
  | nil => contradiction
  | cons slot rest ih =>
    cases slot with
    | none => contradiction
    | some surface =>
      simp only [getFreeSurfaceIndex] at found
      split at found
      · next free =>
        cases found
        exact ⟨surface,Nat.le_refl _,by simp,free⟩
      · obtain ⟨other,after,there,free⟩ := ih found
        refine ⟨other,by omega,?_,free⟩
        rw [show index - i = index - (i + 1) + 1 by omega]
        exact there

theorem search_nullRead {surfaces : Nat → Surface} {pool : List (Option Nat)} {i : Nat}
    (read : getFreeSurfaceIndex surfaces i pool = .nullRead) : ∃ index : Nat, pool[index]? = some none := by
  induction pool generalizing i with
  | nil => contradiction
  | cons slot rest ih =>
    cases slot with
    | none => exact ⟨0,rfl⟩
    | some surface =>
      simp only [getFreeSurfaceIndex] at read
      split at read
      · contradiction
      · obtain ⟨index,there⟩ := ih read
        exact ⟨index + 1,there⟩

private theorem goesOn_status (goes : w.decoder.goesOn = true)
    (fed : w.decoder.sts ≠ .errMoreData) : w.chooses = true ∨ w.keeps = true := by
  unfold Decoder.goesOn at goes
  unfold World.chooses World.keeps
  cases sts : w.decoder.sts with
  | errNone => simp
  | errMoreData => exact absurd sts fed
  | errMoreSurface => simp
  | warning code => simp [Status.isWarning]
  | error code => simp [sts] at goes

private theorem iterate_stepped {answers : Answers} (stepped : w.iterate answers = some next) :
    Stepped infer w (.iterate answers) next [] := by
  unfold World.iterate at stepped
  dsimp only at stepped
  split_ifs at stepped with outside stopped hungry failed
  · cases stepped
    exact .ends answers _ (by simpa using (not_or.mp outside).1) rfl
  · cases stepped
    exact .ends answers _ (by simpa using (not_or.mp outside).1) rfl
  · cases stepped
    have goes : w.decoder.goesOn = true := by simpa using (not_or.mp outside).2
    refine .goesOn answers _ (by simpa using (not_or.mp outside).1) goes (.inr ⟨hungry,?_⟩)
    simpa using failed
  · cases stepped
    have goes : w.decoder.goesOn = true := by simpa using (not_or.mp outside).2
    exact .goesOn answers w.decoder.sts (by simpa using (not_or.mp outside).1) goes
      (.inl ⟨rfl,goesOn_status goes hungry⟩)

private theorem searchDec_stepped (here : w.pc = .searchDec) :
    Stepped infer w .decodeThread w.searchDec [] := by
  unfold World.searchDec
  split
  · split
    · next index found => exact .chooseDec index here found
    · exact .retry
    · next read => exact absurd read (search_valid _ _ _)
  · next kept => exact .keepDec here (by simpa using kept)

private theorem searchVppIn_stepped (here : w.pc = .searchVppIn) :
    Stepped infer w .decodeThread w.searchVppIn [] := by
  unfold World.searchVppIn
  split
  · next searches =>
    split
    · next index found => exact .chooseVppIn index here searches found
    · exact .retry
    · next read => exact .crashVppIn here searches read
  · exact .keepVppIn here

private theorem decodeFrameAsync_stepped {answers : Answers} {surfaceOut : Option Nat}
    (stepped : w.decodeFrameAsync answers surfaceOut = some (next,events)) :
    Stepped infer w (.decodeFrameAsync answers surfaceOut) next events := by
  unfold World.decodeFrameAsync at stepped
  split at stepped
  · next surfaceWork here work =>
    dsimp only at stepped
    split at stepped
    · next surface success =>
      cases stepped
      exact .output answers surfaceWork surface here work _ (by simp)
    · next failure =>
      cases stepped
      refine .noOutput answers surfaceWork here work answers.decodeFrameAsync _ ?_
      cases status : answers.decodeFrameAsync with
      | errNone => simp [yields,status] at failure
      | errMoreData => simp
      | errMoreSurface => simp
      | warning code => simp [Status.isWarning]
      | error code => simp
    · contradiction
  · contradiction

private theorem decodeThread_stepped (stepped : w.decodeThread = some next) :
    Stepped infer w .decodeThread next [] := by
  unfold World.decodeThread at stepped
  split at stepped
  · next here =>
    cases stepped
    exact searchDec_stepped here
  · next here =>
    cases stepped
    exact searchVppIn_stepped here
  · next here =>
    split at stepped
    · next buffer lists got =>
      cases stepped
      exact .get buffer lists here got
    · contradiction
  · next buffer here =>
    cases stepped
    unfold World.lockSurface
    split
    · next surface slot => exact .lock buffer surface here slot _ rfl
    · next slot => exact .crashLock buffer here slot
  · next buffer surface here =>
    cases stepped
    exact .write buffer surface here _ rfl
  · next buffer here =>
    cases stepped
    exact .store buffer here
  · next here =>
    cases stepped
    unfold World.post
    dsimp only
    split
    · exact .post here _ _ rfl _ (.inl rfl)
    · exact .post here _ {w.decoder with nFrame := w.decoder.nFrame + 1} rfl _ (.inr rfl)
  · contradiction

/-- Only the status of SyncOperation can be a warning after the VPP. -/
theorem runVpp_settled (answers : List (Status × Bool)) (sts : Status)
    (vpp : DecodeLoop.runVpp answers = some sts) : sts.isWarning = false := by
  induction answers with
  | nil => contradiction
  | cons answer rest ih =>
    obtain ⟨first,syncpVPP⟩ := answer
    simp only [DecodeLoop.runVpp] at vpp
    split_ifs at vpp with again warned
    · exact ih vpp
    · cases vpp
      rfl
    · cases vpp
      simpa using warned

private theorem detect_status {decoder after : Decoder} {answers : Answers} {frame : Nat}
    {emitted : List DecodeLoop.Event}
    (detected : decoder.detect infer answers frame = some (after,emitted))
    (warned : after.sts.isWarning = true) : answers.syncOperation.isWarning = true := by
  unfold Decoder.detect at detected
  split at detected
  · contradiction
  · cases detected
    contradiction
  · cases detected
    contradiction
  · dsimp only at detected
    split_ifs at detected
    · cases detected
      exact warned
    · cases detected
      exact warned
  · next sts _ _ _ vpp =>
    cases detected
    rw [runVpp_settled _ _ vpp] at warned
    contradiction

private theorem trackerThread_stepped (stepped : w.trackerThread = some (next,events)) :
    Stepped infer w .trackerThread next events := by
  unfold World.trackerThread at stepped
  split at stepped
  · next here =>
    split at stepped
    · cases stepped
      exact .wake here _
    · contradiction
  · next here =>
    split at stepped
    · next buffer lists loaded =>
      cases stepped
      exact .load buffer lists here loaded
    · contradiction
  · next buffer here =>
    cases stepped
    exact .track buffer here
  · next buffer here =>
    cases stepped
    exact .copy buffer here
  · next buffer here =>
    cases stepped
    exact .unlock buffer here
  · next buffer here =>
    cases stepped
    exact .put buffer here

theorem step_stepped {action : Action}
    (stepped : (sharing infer).step w action = some (next,events)) :
    Stepped infer w action next events := by
  cases action with
  | iterate answers =>
    obtain ⟨after,iterated,same⟩ := Option.map_eq_some_iff.mp stepped
    cases same
    exact iterate_stepped iterated
  | decodeThread =>
    obtain ⟨after,decoded,same⟩ := Option.map_eq_some_iff.mp stepped
    cases same
    exact decodeThread_stepped decoded
  | decodeFrameAsync answers surfaceOut => exact decodeFrameAsync_stepped stepped
  | runFrameVPPAsync answers =>
    obtain ⟨after,processed,same⟩ := Option.map_eq_some_iff.mp stepped
    cases same
    unfold World.runFrameVPPAsync at processed
    split at processed
    · next here =>
      obtain ⟨⟨decoder,emitted⟩,detected,rfl⟩ := Option.map_eq_some_iff.mp processed
      exact .runFrameVPPAsync answers decoder here (detect_status detected)
    · contradiction
  | trackerThread => exact trackerThread_stepped stepped
  | sdkAcquire surface =>
    obtain ⟨after,acquired,same⟩ := Option.map_eq_some_iff.mp stepped
    cases same
    obtain ⟨few,lasts⟩ := Option.ite_none_right_eq_some.mp acquired
    cases lasts
    exact .sdkAcquire surface few
  | sdkRelease surface =>
    obtain ⟨after,released,same⟩ := Option.map_eq_some_iff.mp stepped
    cases same
    obtain ⟨some_held,lasts⟩ := Option.ite_none_right_eq_some.mp released
    cases lasts
    exact .sdkRelease surface some_held
  | sdkWrite surface picture =>
    obtain ⟨after,written,same⟩ := Option.map_eq_some_iff.mp stepped
    cases same
    obtain ⟨decodes,lasts⟩ := Option.ite_none_right_eq_some.mp written
    cases lasts
    exact .sdkWrite surface picture decodes

end VideoAnalytics.SurfaceSharing
