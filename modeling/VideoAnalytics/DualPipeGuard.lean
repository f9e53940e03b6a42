import VideoAnalytics.DualPipeSteps

/-! The lists of a VaDualPipe are looked at and changed under its mutex only, so
that the operations of several threads on them never overlap. -/
namespace VideoAnalytics.DualPipe

def Guarded (w : World) : Prop :=
  ∀ thread, (w.clients thread).pc.critical = true → w.pipe.mMutex = some thread

def Action.thread : Action → Nat
  | .call thread _ => thread
  | .run thread => thread

theorem step_others {w next : World} {action : Action} {events : List Event}
    (stepped : Stepped w action next events) :
    ∀ other, other ≠ action.thread → next.clients other = w.clients other := by
  intro other different
  cases stepped <;>
    simp_all [Action.thread,World.call,World.ret,World.unlock,World.goto,World.setHeld,
      World.setMutex,World.setIn,World.setOut]

private theorem guarded_keep {w next : World} (thread : Nat) (guarded : Guarded w)
    (mutex : next.pipe.mMutex = w.pipe.mMutex)
    (others : ∀ other, other ≠ thread → next.clients other = w.clients other)
    (inside : (next.clients thread).pc.critical = true → w.pipe.mMutex = some thread) :
    Guarded next := by
  intro other critical
  rw [mutex]
  by_cases same : other = thread
  · rw [same] at critical ⊢
    exact inside critical
  · rw [others other same] at critical
    exact guarded other critical

/-- Once the owner has left, nobody is inside. -/
private theorem guarded_free {w next : World} (thread : Nat) (guarded : Guarded w)
    (owned : w.pipe.mMutex = some thread)
    (others : ∀ other, other ≠ thread → next.clients other = w.clients other)
    (outside : (next.clients thread).pc.critical = false) : Guarded next := by
  intro other critical
  by_cases same : other = thread
  · rw [same,outside] at critical
    contradiction
  · rw [others other same] at critical
    have other_owned := guarded other critical
    rw [owned] at other_owned
    exact absurd (Option.some.inj other_owned).symm same

theorem step_guarded {w next : World} {action : Action} {events : List Event}
    (guarded : Guarded w) (stepped : Stepped w action next events) : Guarded next := by
  have others := step_others stepped
  cases stepped with
  | call thread op idle held =>
    refine guarded_keep thread guarded rfl others ?_
    simp [World.call,start_outside]
  | goto thread pc inside before underway answered =>
    refine guarded_keep thread guarded rfl others ?_
    intro critical
    rw [goto_pc,inside] at critical
    exact guarded thread critical
  | lock thread pc unowned underway unreturned =>
    intro other critical
    by_cases same : other = thread
    · rw [same]
      rfl
    · rw [others other same] at critical
      have owned := guarded other critical
      rw [unowned] at owned
      contradiction
  | unlock thread pc inside outside before underway =>
    refine guarded_free thread guarded (guarded thread inside) others ?_
    rw [World.unlock,goto_pc]
    exact outside
  | ret thread op buffer seen returns =>
    refine guarded_free thread guarded (guarded thread (returns_critical returns))
      others ?_
    rw [World.ret,setHeld_pc,World.unlock,goto_pc]
    rfl
  | popIn thread buffer rest here found =>
    refine guarded_keep thread guarded rfl others ?_
    exact fun _ => guarded thread (by rw [here]; rfl)
  | pushIn thread buffer here =>
    refine guarded_keep thread guarded rfl others ?_
    exact fun _ => guarded thread (by rw [here]; rfl)
  | popOut thread buffer rest pc inside before found after loads =>
    refine guarded_keep thread guarded rfl others ?_
    exact fun _ => guarded thread inside
  | pushOut thread buffer here =>
    refine guarded_keep thread guarded rfl others ?_
    exact fun _ => guarded thread (by rw [here]; rfl)

theorem start_guarded (pipe : VaDualPipe) : Guarded (start pipe) := by
  intro thread critical
  simp [start,Pc.critical] at critical

/-- In every interleaving at most the owner of the mutex is at a statement on the lists. -/
theorem lists_guarded (pipe : VaDualPipe) (actions : List Action) (w : World) (trace : List Event)
    (ran : dualPipe.run (start pipe) actions = some (w,trace)) : Guarded w := by
  refine Machine.run_invariant (fun state _ => Guarded state) ?_ (start_guarded pipe) ran
  intro state before action next emitted guarded stepped
  exact step_guarded guarded (step_stepped stepped)

end VideoAnalytics.DualPipe
