import VideoAnalytics.DualPipeSteps

/-! The operations of a VaDualPipe as its callers see them, each one change of the
two lists. Every interleaving of their statements is a sequence of such changes. -/
namespace VideoAnalytics.DualPipe

structure Lists where
  mInPipe : List Nat
  mOutPipe : List Nat
  deriving DecidableEq, Repr

def Lists.get : Lists → Option (Nat × Lists)
  | ⟨[],_⟩ => none
  | ⟨buffer :: rest,out⟩ => some (buffer,⟨rest,out⟩)

def Lists.put (buffer : Nat) (lists : Lists) : Lists :=
  {lists with mInPipe := buffer :: lists.mInPipe}

def Lists.load : Lists → Option (Nat × Lists)
  | ⟨_,[]⟩ => none
  | ⟨free,buffer :: rest⟩ => some (buffer,⟨free,rest⟩)

def Lists.store (buffer : Nat) (lists : Lists) : Lists :=
  {lists with mOutPipe := lists.mOutPipe ++ [buffer]}

theorem Lists.get_eq {lists next : Lists} {buffer : Nat}
    (got : lists.get = some (buffer,next)) :
    lists.mInPipe = buffer :: next.mInPipe ∧ next.mOutPipe = lists.mOutPipe := by
  obtain ⟨free,out⟩ := lists
  cases free with
  | nil => contradiction
  | cons front rest =>
    cases got
    exact ⟨rfl,rfl⟩

theorem Lists.load_eq {lists next : Lists} {buffer : Nat}
    (loaded : lists.load = some (buffer,next)) :
    lists.mOutPipe = buffer :: next.mOutPipe ∧ next.mInPipe = lists.mInPipe := by
  obtain ⟨free,out⟩ := lists
  cases out with
  | nil => contradiction
  | cons front rest =>
    cases loaded
    exact ⟨rfl,rfl⟩

inductive Access
  | get
  | put (buffer : Nat)
  | load
  | store (buffer : Nat)
  deriving DecidableEq, Repr

def lists : Machine.System Lists Access Event where
  step now
    | .get => now.get.map fun (_,next) => (next,[])
    | .put buffer => some (now.put buffer,[])
    | .load => now.load.map fun (buffer,next) => (next,[.loaded buffer])
    | .store buffer => some (now.store buffer,[.stored buffer])

/-- A call and a return change no list. -/
def Event.moves : Event → Bool
  | .called _ _ => false
  | .stored _ => true
  | .loaded _ => true
  | .returned _ _ _ _ => false

def World.lists (w : World) : Lists := ⟨w.pipe.mInPipe,w.pipe.mOutPipe⟩

def Accessed (w next : World) (events : List Event) : Prop :=
  ∃ accesses, lists.run w.lists accesses = some (next.lists,events.filter Event.moves)

private theorem accessed_quiet {w next : World} {events : List Event} (same : next.lists = w.lists)
    (unmoved : events.filter Event.moves = []) : Accessed w next events := by
  refine ⟨[],?_⟩
  rw [Machine.run_nil,same,unmoved]

private theorem accessed_once {w next : World} {events : List Event} (access : Access)
    (moved : events.filter Event.moves = events)
    (changed : lists.step w.lists access = some (next.lists,events)) :
    Accessed w next events := by
  refine ⟨[access],?_⟩
  rw [Machine.run_cons]
  exact ⟨next.lists,events,[],changed,rfl,by rw [moved,List.append_nil]⟩

/-- One step of a thread is at most one change of the lists. -/
theorem accessed_step {w next : World} {action : Action} {events : List Event}
    (stepped : Stepped w action next events) : Accessed w next events := by
  cases stepped with
  | call thread op idle held => exact accessed_quiet rfl rfl
  | goto thread pc inside before underway answered => exact accessed_quiet rfl rfl
  | lock thread pc unowned underway unreturned => exact accessed_quiet rfl rfl
  | unlock thread pc inside outside before underway => exact accessed_quiet rfl rfl
  | ret thread op buffer seen returns => exact accessed_quiet rfl rfl
  | popIn thread buffer rest here found =>
    apply accessed_once .get rfl
    simp [lists,World.lists,found,Lists.get,World.setIn,World.goto]
  | pushIn thread buffer here => exact accessed_once (.put buffer) rfl rfl
  | popOut thread buffer rest pc inside before found after loads =>
    apply accessed_once .load rfl
    simp [lists,World.lists,found,Lists.load,World.setOut,World.goto]
  | pushOut thread buffer here => exact accessed_once (.store buffer) rfl rfl

/-- What a run of the threads' statements does to the lists, and the buffers it
stores and loads, is what a sequence of whole operations does. -/
theorem operations_atomic (pipe : VaDualPipe) (actions : List Action) (w : World)
    (trace : List Event) (ran : dualPipe.run (start pipe) actions = some (w,trace)) :
    Accessed (start pipe) w trace := by
  refine Machine.run_invariant (fun state seen => Accessed (start pipe) state seen) ?_ ?_ ran
  · intro state before action next emitted accessed stepped
    have once := accessed_step (step_stepped stepped)
    obtain ⟨first,ran_first⟩ := accessed
    obtain ⟨second,ran_second⟩ := once
    refine ⟨first ++ second,?_⟩
    rw [Machine.run_append]
    exact ⟨state.lists,_,_,ran_first,ran_second,by rw [List.filter_append]⟩
  · exact accessed_quiet rfl rfl

end VideoAnalytics.DualPipe
