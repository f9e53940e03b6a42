import VideoAnalytics.GaussianCorrelation

/-! The cache of a tracker read off the history of its calls: which call has created
what is held, and which was the last to reach its end. -/
namespace VideoAnalytics.GaussianCorrelation
open Dft EarlyReturn

section Readings

variable {F : Type}

def Event.holder (surface : Surface) (holder : Option Sizes) : Event F → Option Sizes
  | .destroyed other => if other = surface then none else holder
  | .created other sizes => if other = surface then some sizes else holder
  | _ => holder

/-- The sizes of the call that has created a surface, as long as it is there. -/
def holder (history : List (Event F)) (surface : Surface) : Option Sizes :=
  history.foldl (Event.holder surface) none

def Event.filler (axis : Axis) (filler : Option Sizes) : Event F → Option Sizes
  | .cleared other => if other = axis then none else filler
  | .filled other sizes => if other = axis then some sizes else filler
  | _ => filler

/-- The sizes of the call that has filled a table, as long as it is there. -/
def filler (history : List (Event F)) (axis : Axis) : Option Sizes :=
  history.foldl (Event.filler axis) none

def Event.ended (ended : Sizes) : Event F → Sizes
  | .recorded sizes => sizes
  | _ => ended

/-- The sizes of the last call that has reached its end, or zeros. -/
def ended (history : List (Event F)) : Sizes := history.foldl Event.ended ⟨0,0,0,0,0⟩

variable (history : List (Event F)) (event : Event F)

@[simp] theorem holder_next (surface : Surface) :
    holder (history ++ [event]) surface = event.holder surface (holder history surface) := by
  simp [holder]

@[simp] theorem filler_next (axis : Axis) :
    filler (history ++ [event]) axis = event.filler axis (filler history axis) := by
  simp [filler]

@[simp] theorem ended_next : ended (history ++ [event]) = event.ended (ended history) := by
  simp [ended]

end Readings

section Recalls

variable {D F : Type} [FloatType D] (math : Math D F)

/-- The table that DFTFactorize and DFTInit compute for a pitch. -/
def dftTable (pitch : Nat) : Table F :=
  tableOf math pitch (store (fun _ => 0) (itabWrites pitch (dftFactorize pitch)))

theorem dftTable_injective {first second : Nat}
    (same : dftTable math first = dftTable math second) : first = second := by
  have entries := congrArg (fun table => table.itab.length) same
  simpa [dftTable,tableOf] using entries

/-- What the cache holds is what the calls of the history have made it. -/
structure Recalls (history : List (Event F)) (cache : Cache F) : Prop where
  recorded : cache.recorded = ended history
  held : ∀ surface, cache.held surface = (holder history surface).map fun sizes =>
    sizes.extent surface
  table : ∀ axis, cache.table axis = (filler history axis).map fun sizes =>
    dftTable math (sizes.pitch axis)
  nf : ∀ axis, ∀ sizes ∈ filler history axis,
    cache.nf axis = (dftFactorize (sizes.pitch axis)).length

theorem tableOf_eq {math : Math D F} (pitch : Nat) (within : WithinArrays math pitch)
    (itab : Int → Int) :
    tableOf math pitch (store itab (itabWrites pitch (dftFactorize pitch))) = dftTable math pitch := by
  obtain ⟨_,fits,inside,_⟩ := within
  have positive : 1 ≤ pitch := by
    by_contra zero
    obtain rfl : pitch = 0 := by omega
    have below := inside (-1,-1) (by decide)
    omega
  unfold dftTable tableOf
  congr 1
  apply List.map_congr_left
  intro i member
  have written := (itabWrites_range pitch positive fits).2 i (List.mem_range.mp member)
  rw [store_agree _ _ itab (fun _ => 0) (.inr written)]

variable {math} {history : List (Event F)} {cache : Cache F} {frame : Frame F}

private theorem recalls_start : Recalls math [] (start : Tracker F).cache :=
  ⟨rfl,fun _ => rfl,fun _ => rfl,by simp [filler]⟩

/-- An event after which a surface is there, or is not, and nothing else has changed. -/
private theorem Recalls.hold {event : Event F} (recalls : Recalls math history frame.cache)
    (surface : Surface) (made : Option Sizes)
    (held : ∀ other holder, event.holder other holder = if surface = other then made else holder)
    (filled : ∀ axis filler, event.filler axis filler = filler)
    (ended : ∀ sizes, event.ended sizes = sizes) : Recalls math (history ++ [event])
      (frame.hold surface (made.map fun sizes => sizes.extent surface)).cache where
  recorded := by rw [ended_next,ended]; exact recalls.recorded
  held other := by
    rw [holder_next,held]
    by_cases same : surface = other
    · subst same
      simp [Frame.hold]
    · simp [Frame.hold,same,Ne.symm same,recalls.held]
  table axis := by rw [filler_next,filled]; exact recalls.table axis
  nf axis := by rw [filler_next,filled]; exact recalls.nf axis

private theorem Recalls.destroyed (recalls : Recalls math history frame.cache) (surface : Surface) :
    Recalls math (history ++ [.destroyed surface]) (frame.hold surface none).cache :=
  recalls.hold surface none (fun _ _ => rfl) (fun _ _ => rfl) fun _ => rfl

private theorem Recalls.allDestroyed (surfaces : List Surface)
    (recalls : Recalls math history frame.cache) :
    Recalls math (history ++ surfaces.map Event.destroyed)
      (surfaces.foldl (fun frame surface => frame.hold surface none) frame).cache := by
  induction surfaces generalizing history frame with
  | nil => simpa using recalls
  | cons surface rest ih => simpa using ih (recalls.destroyed surface)

private theorem Recalls.created (recalls : Recalls math history frame.cache) (surface : Surface)
    (sizes : Sizes) : Recalls math (history ++ [.created surface sizes])
      (frame.hold surface (some (sizes.extent surface))).cache :=
  recalls.hold surface (some sizes) (fun _ _ => rfl) (fun _ _ => rfl) fun _ => rfl

private theorem Recalls.cleared (recalls : Recalls math history cache) (axis : Axis) (nf : Nat) :
    Recalls math (history ++ [.cleared axis]) {cache with
      nf := Function.update cache.nf axis nf
      table := Function.update cache.table axis none} where
  recorded := by rw [ended_next]; exact recalls.recorded
  held surface := by rw [holder_next]; exact recalls.held surface
  table other := by
    by_cases same : axis = other
    · subst same
      simp [Event.filler]
    · simp [Event.filler,same,Ne.symm same,recalls.table]
  nf other sizes present := by
    by_cases same : axis = other
    · simp [Event.filler,same] at present
    · simp only [filler_next,Event.filler,same,if_false] at present
      dsimp only
      rw [Function.update_of_ne (Ne.symm same),recalls.nf other sizes present]

private theorem Recalls.filled (recalls : Recalls math history cache) (axis : Axis) (sizes : Sizes)
    (counted : cache.nf axis = (dftFactorize (sizes.pitch axis)).length) :
    Recalls math (history ++ [.filled axis sizes]) {cache with
      table := Function.update cache.table axis
        (some (dftTable math (sizes.pitch axis)))} where
  recorded := by rw [ended_next]; exact recalls.recorded
  held surface := by rw [holder_next]; exact recalls.held surface
  table other := by
    by_cases same : axis = other
    · subst same
      simp [Event.filler]
    · simp [Event.filler,same,Ne.symm same,recalls.table]
  nf other found present := by
    by_cases same : axis = other
    · subst same
      simp only [filler_next,Event.filler,if_true,Option.mem_def,Option.some.injEq] at present
      subst present
      exact counted
    · simp only [filler_next,Event.filler,same,if_false] at present
      exact recalls.nf other found present

private theorem Recalls.enqueued (recalls : Recalls math history cache) (sizes : Sizes)
    (task : Task) (bound : List (Binding F)) :
    Recalls math (history ++ [.enqueued sizes task bound]) cache where
  recorded := by rw [ended_next]; exact recalls.recorded
  held surface := by rw [holder_next]; exact recalls.held surface
  table axis := by rw [filler_next]; exact recalls.table axis
  nf axis := by rw [filler_next]; exact recalls.nf axis

private theorem Recalls.ended (recalls : Recalls math history cache) (sizes : Sizes) :
    Recalls math (history ++ [.recorded sizes]) {cache with recorded := sizes} where
  recorded := by simp [Event.ended]
  held surface := by rw [holder_next]; exact recalls.held surface
  table axis := by rw [filler_next]; exact recalls.table axis
  nf axis := by rw [filler_next]; exact recalls.nf axis

end Recalls

section Calls

variable {D F : Type} [FloatType D] (math : Math D F) (call : Call) {history : List (Event F)}

/-- The frame of a call after all that has happened so far. -/
def Remembers (history : List (Event F)) (frame : Frame F) : Prop := Recalls math history frame.cache

variable {math} {frame : Frame F}

private theorem create_keeps (checked : Surface) (surfaces : List Surface)
    (recalls : Remembers math history frame) :
    Keeps (Remembers math) history (create call checked surfaces frame) := by
  induction surfaces generalizing history frame with
  | nil => exact .proceed recalls
  | cons surface rest ih =>
    unfold create
    split
    · exact .emit_andThen (ih (recalls.created surface call.sizes))
    · split
      · exact .stopped _ recalls
      · exact ih recalls

private theorem refresh_keeps (surface : Surface) (recalls : Remembers math history frame) :
    Keeps (Remembers math) history (refresh call surface frame) := by
  unfold refresh
  dsimp only
  split
  · exact .emit_andThen (create_keeps call _ _ (recalls.allDestroyed (block surface).created))
  · exact .proceed recalls

private theorem refreshTable_keeps (axis : Axis) (recalls : Remembers math history frame) :
    Keeps (Remembers math) history (refreshTable math call axis frame) := by
  unfold refreshTable
  dsimp only
  split
  · split
    · next within =>
      have cleared := recalls.cleared axis (dftFactorize (call.sizes.pitch axis)).length
      apply Keeps.emit_andThen
      split
      · split
        · rw [tableOf_eq _ within]
          exact cleared.filled axis call.sizes (Function.update_self ..)
        · exact .proceed cleared
      · exact .stopped _ cleared
    · exact .stopped _ recalls
  · exact .proceed recalls

private theorem refreshKernel_keeps (name : Kernel) (recalls : Remembers math history frame) :
    Keeps (Remembers math) history (refreshKernel call name frame) := by
  have created : ∀ kernels, Recalls math history {frame.cache with kernels := kernels} :=
    fun _ => ⟨recalls.recorded,recalls.held,recalls.table,recalls.nf⟩
  unfold refreshKernel
  split
  · exact .proceed recalls
  · split
    · exact .stopped _ recalls
    · dsimp only
      split
      · exact .stopped _ (created _)
      · exact .proceed (created _)

private theorem bind_keeps (kernel : Kernel) (surfaces : List Surface) (axis : Option Axis)
    (recalls : Remembers math history frame) :
    Keeps (Remembers math) history (bind call kernel surfaces axis frame) := by
  unfold bind
  dsimp only
  split
  · exact .stopped _ recalls
  · split
    · exact .stopped _ recalls
    · exact .proceed recalls

/-- One case for each kind of stage. -/
theorem perform_keeps (stage : Stage) (recalls : Remembers math history frame) :
    Keeps (Remembers math) history (perform math call stage frame) := by
  cases stage with
  | refresh surface => exact refresh_keeps call surface recalls
  | write surface =>
    simp only [perform]
    split
    · exact .stopped _ recalls
    · split
      · exact .proceed recalls
      · exact .stopped _ recalls
  | table axis => exact refreshTable_keeps call axis recalls
  | kernel name => exact refreshKernel_keeps call name recalls
  | bind kernel surfaces axis => exact bind_keeps call kernel surfaces axis recalls
  | attempt task attempt =>
    simp only [perform]
    split
    · exact .proceed recalls
    · exact .stopped _ recalls
  | enqueue task =>
    have enqueued := recalls.enqueued call.sizes task frame.bound
    apply Keeps.emit_andThen
    split
    · exact .proceed enqueued
    · exact .stopped _ enqueued

private theorem runTask_keeps (task : Task) (recalls : Remembers math history frame) :
    Keeps (Remembers math) history (runTask math call task frame) :=
  Keeps.performAll (fun stage _ _ kept => perform_keeps call stage kept) task.stages recalls

private theorem gpuGaussianCorrelation_keeps {cache : Cache F}
    (recalls : Recalls math history cache) :
    Keeps (Remembers math) history (gpuGaussianCorrelation math call cache) := by
  have begun : Remembers math history (⟨cache,fun _ => 0,[]⟩ : Frame F) := recalls
  apply Keeps.andThen (runTask_keeps call .gaussianCorrelation begun)
  intro correlated frame kept
  apply Keeps.andThen (runTask_keeps call .srcImageSum kept).resume
  intro summed frame kept
  apply Keeps.andThen (runTask_keeps call .finalExpImageSum kept).resume
  intro events frame kept
  exact kept.ended call.sizes

/-- In every run, the cache is what the history of the calls has made it. -/
theorem run_recalls (calls : List Call) (tracker : Tracker F)
    (ran : (correlations math).run start calls = some (tracker,history)) :
    Recalls math history tracker.cache := by
  apply Machine.run_invariant (fun tracker history => Recalls math history tracker.cache) ?_
    recalls_start ran
  intro tracker before call next emitted recalls stepped
  simp only [correlations,Option.ite_none_left_eq_some,Option.some.injEq,Prod.mk.injEq] at stepped
  obtain ⟨_,rfl,rfl⟩ := stepped
  exact gpuGaussianCorrelation_keeps call recalls

end Calls

end VideoAnalytics.GaussianCorrelation
