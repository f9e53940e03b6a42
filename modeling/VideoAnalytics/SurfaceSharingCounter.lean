import VideoAnalytics.SurfaceSharing

/-! The updates of Locked as the processor executes them: no mutex and no atomic type
guards the counter, so that it is loaded and stored in two steps, with those of other
threads between them. Where no update of a counter overlaps another, the steps are
those of the system in which an update is one step. -/
namespace VideoAnalytics.SurfaceSharing

open Function (update)

/-- Who updates a counter. The SDK does not overlap its own updates of a surface. -/
inductive Updater
  | decodeThread
  | trackerThread
  | sdk (surface : Nat)
  deriving DecidableEq, Repr

/-- The surface whose counter a thread updates where it is. -/
def World.updated (w : World) : Updater → Option Nat
  | .decodeThread =>
    match w.pc with
    | .lock _ => w.surfaceIn
    | _ => none
  | .trackerThread =>
    match w.tracker with
    | .unlock buffer => some (w.buffers buffer).pmfxSurface
    | _ => none
  | .sdk surface => some surface

def Action.updater : Action → Option Updater
  | .decodeThread => some .decodeThread
  | .trackerThread => some .trackerThread
  | .sdkAcquire surface => some (.sdk surface)
  | .sdkRelease surface => some (.sdk surface)
  | _ => none

/-- With the values of Locked that have been loaded to be updated. -/
structure Accesses where
  world : World
  loaded : Updater → Option Nat

inductive Access
  | load (updater : Updater)
  | step (action : Action)

def Access.action : Access → Option Action
  | .load _ => none
  | .step action => some action

/-- Who stores to the counter of which surface in a step. -/
def World.stores (w : World) (action : Action) : Option (Updater × Nat) :=
  action.updater.bind fun updater => (w.updated updater).map fun surface => (updater,surface)

def Accesses.load (a : Accesses) (updater : Updater) : Option Accesses :=
  match a.world.updated updater,a.loaded updater with
  | some surface,none =>
    some {a with loaded := update a.loaded updater (some (a.world.surfaces surface).locked)}
  | _,_ => none

/-- The counter as an update presumes it. -/
def World.presumed (w : World) (surface locked : Nat) : World :=
  {w with surfaces := update w.surfaces surface {w.surfaces surface with locked := locked}}

/-- A store writes one more or less than what was loaded. -/
def Accesses.step (infer : Int) (a : Accesses) (action : Action) :
    Option (Accesses × List Event) :=
  match a.world.stores action with
  | some (updater,surface) =>
    (a.loaded updater).bind fun locked =>
      ((sharing infer).step (a.world.presumed surface locked) action).map fun (next,events) =>
        (⟨next,update a.loaded updater none⟩,events)
  | none => ((sharing infer).step a.world action).map fun (next,events) => ({a with world := next},events)

def counting (infer : Int) : Machine.System Accesses Access Event where
  step a
    | .load updater => (a.load updater).map fun next => (next,[])
    | .step action => a.step infer action

/-- The counter that a step stores to is as it was loaded: no other update of it has come
between. -/
def Untorn (a : Accesses) : Access → Prop
  | .load _ => True
  | .step action => ∀ store ∈ a.world.stores action, ∀ locked ∈ a.loaded store.1,
      locked = (a.world.surfaces store.2).locked

instance (a : Accesses) : ∀ access, Decidable (Untorn a access)
  | .load _ => .isTrue trivial
  | .step action => inferInstanceAs (Decidable (∀ store ∈ a.world.stores action,
      ∀ locked ∈ a.loaded store.1, locked = (a.world.surfaces store.2).locked))

private theorem presumed_self (w : World) (surface : Nat) :
    w.presumed surface (w.surfaces surface).locked = w := by
  unfold World.presumed
  rw [show ({w.surfaces surface with locked := (w.surfaces surface).locked} : Surface) =
    w.surfaces surface from rfl,Function.update_eq_self]

section Refines

variable {infer : Int} {a next final : Accesses} {events trace : List Event}

/-- A load leaves the world as it is. -/
theorem load_world {updater : Updater} (loaded : a.load updater = some next) :
    next.world = a.world := by
  unfold Accesses.load at loaded
  split at loaded
  · cases loaded
    rfl
  · contradiction

/-- An untorn step is one of the system in which an update is one step. -/
theorem step_refines {action : Action} (untorn : Untorn a (.step action))
    (stepped : a.step infer action = some (next,events)) :
    (sharing infer).step a.world action = some (next.world,events) := by
  unfold Accesses.step at stepped
  split at stepped
  · next updater surface stores =>
    simp only [Option.bind_eq_some_iff,Option.map_eq_some_iff,Prod.exists,Prod.mk.injEq] at stepped
    obtain ⟨locked,loaded,world,emitted,stepped,rfl,rfl⟩ := stepped
    rw [untorn (updater,surface) stores locked loaded,presumed_self] at stepped
    exact stepped
  · simp only [Option.map_eq_some_iff,Prod.exists,Prod.mk.injEq] at stepped
    obtain ⟨world,emitted,stepped,rfl,rfl⟩ := stepped
    exact stepped

/-- A run in which no update is torn is one of the system in which an update is one step. -/
theorem counting_refines {accesses : List Access}
    (untorn : (counting infer).Along Untorn a accesses)
    (ran : (counting infer).run a accesses = some (final,trace)) :
    (sharing infer).run a.world (accesses.filterMap Access.action) = some (final.world,trace) := by
  induction accesses generalizing a trace with
  | nil =>
    simp only [Machine.run_nil,Option.some.injEq,Prod.mk.injEq] at ran
    obtain ⟨rfl,rfl⟩ := ran
    rfl
  | cons access rest ih =>
    obtain ⟨next,emitted,tail,stepped,later,rfl⟩ := Machine.run_cons.mp ran
    obtain ⟨now,untorn⟩ := untorn next emitted stepped
    have follows := ih untorn later
    cases access with
    | load updater =>
      simp only [counting,Option.map_eq_some_iff,Prod.mk.injEq] at stepped
      obtain ⟨_,loaded,rfl,rfl⟩ := stepped
      rw [load_world loaded] at follows
      exact follows
    | step action =>
      have here := step_refines now stepped
      simp only [List.filterMap_cons,Access.action]
      exact Machine.run_cons.mpr ⟨next.world,emitted,tail,here,follows,rfl⟩

end Refines

end VideoAnalytics.SurfaceSharing
