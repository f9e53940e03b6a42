import VideoAnalytics.DualPipeGuard
import VideoAnalytics.Library.Partition

/-! What holds of a VaDualPipe in every interleaving: no buffer is lost or
doubled, Load and LoadNoWait return the buffers in the order stored, and NULL is
returned only by a look at an empty list. -/
namespace VideoAnalytics.DualPipe

open Function (update)

inductive Place
  | free
  | filled
  | client (thread : Nat)
  | underway (thread : Nat)
  deriving DecidableEq, Repr

def World.contents (w : World) : Place → List Nat
  | .free => w.pipe.mInPipe
  | .filled => w.pipe.mOutPipe
  | .client thread => (w.clients thread).held
  | .underway thread => (w.clients thread).pc.underway

/-- What the owner of the mutex has popped from the filled list and not returned. -/
def World.popped (w : World) : List Nat :=
  match w.pipe.mMutex with
  | some owner => (w.clients owner).pc.popped
  | none => []

def Event.storedBuffer : Event → Option Nat
  | .stored buffer => some buffer
  | .called _ _ => none
  | .loaded _ => none
  | .returned _ _ _ _ => none

def Event.loadedBuffer : Event → Option Nat
  | .loaded buffer => some buffer
  | .called _ _ => none
  | .stored _ => none
  | .returned _ _ _ _ => none

def Event.handedBuffer : Event → List Nat
  | .returned _ op buffer _ => if op.loads then nonNull buffer else []
  | .called _ _ => []
  | .stored _ => []
  | .loaded _ => []

def storedOf (trace : List Event) : List Nat := trace.filterMap Event.storedBuffer

def loadedOf (trace : List Event) : List Nat := trace.filterMap Event.loadedBuffer

/-- The buffers that Load and LoadNoWait have returned. -/
def handedOut (trace : List Event) : List Nat := trace.flatMap Event.handedBuffer

def Event.hold (thread : Nat) (held : List Nat) : Event → List Nat
  | .called other op => if thread = other then op.left held else held
  | .returned other _ buffer _ => if thread = other then nonNull buffer ++ held else held
  | _ => held

/-- The buffers returned to a thread that it has not handed over since. -/
def holdings (thread : Nat) (trace : List Event) : List Nat :=
  trace.foldl (Event.hold thread) []

@[simp] theorem storedOf_append (first second : List Event) :
    storedOf (first ++ second) = storedOf first ++ storedOf second :=
  List.filterMap_append

@[simp] theorem loadedOf_append (first second : List Event) :
    loadedOf (first ++ second) = loadedOf first ++ loadedOf second :=
  List.filterMap_append

@[simp] theorem handedOut_append (first second : List Event) :
    handedOut (first ++ second) = handedOut first ++ handedOut second :=
  List.flatMap_append

/-- A load returns the first buffer stored that no load has returned before, and
NULL if there is none; Load(NULL) never returns NULL. -/
def Result (before : List Event) (op : Op) (buffer : Nat) (seen : List Nat) : Prop :=
  match op with
  | .get => buffer ≠ 0
  | .load timed => handedOut before ++ seen = storedOf before ∧ buffer = seen.headD 0 ∧
      (buffer = 0 → timed = true ∧ seen = [])
  | .loadNoWait => handedOut before ++ seen = storedOf before ∧ buffer = seen.headD 0 ∧
      (buffer = 0 → seen = [])
  | .put _ => False
  | .store _ => False

def Event.Sound (before : List Event) : Event → Prop
  | .called thread op => ∀ buffer, op.handed = some buffer → buffer ∈ holdings thread before
  | .stored _ => True
  | .loaded _ => True
  | .returned _ op buffer seen => Result before op buffer seen

section Contents

variable (w : World) (thread : Nat)

private theorem contents_goto (pc : Pc) :
    (w.goto thread pc).contents = update w.contents (.underway thread) pc.underway := by
  funext place
  cases place with
  | free => rfl
  | filled => rfl
  | client other => simp [World.contents]
  | underway other =>
    by_cases same : other = thread
    · simp [World.contents,same]
    · simp [World.contents,goto_other w thread pc same,same]

private theorem contents_setHeld (held : List Nat) :
    (w.setHeld thread held).contents = update w.contents (.client thread) held := by
  funext place
  cases place with
  | free => rfl
  | filled => rfl
  | client other =>
    by_cases same : other = thread
    · simp [World.contents,same]
    · simp [World.contents,same]
  | underway other => simp [World.contents]

private theorem contents_setIn (buffers : List Nat) :
    (w.setIn buffers).contents = update w.contents .free buffers := by
  funext place
  cases place <;> simp [World.contents,World.setIn]

private theorem contents_setOut (buffers : List Nat) :
    (w.setOut buffers).contents = update w.contents .filled buffers := by
  funext place
  cases place <;> simp [World.contents,World.setOut]

private theorem contents_setMutex (owner : Option Nat) :
    (w.setMutex owner).contents = w.contents := by
  funext place
  cases place <;> rfl

end Contents

section Parts

variable {pool : List Nat} {w : World} {thread : Nat}

private theorem goto_parts (parts : Partition.Parts pool w.contents) {pc : Pc}
    (underway : pc.underway = (w.clients thread).pc.underway) :
    Partition.Parts pool (w.goto thread pc).contents := by
  have same : update w.contents (.underway thread) pc.underway = w.contents := by
    rw [underway]
    exact Function.update_eq_self (Place.underway thread) w.contents
  rwa [contents_goto,same]

private theorem setMutex_parts (parts : Partition.Parts pool w.contents) (owner : Option Nat) :
    Partition.Parts pool (w.setMutex owner).contents := by
  rwa [contents_setMutex]

private theorem call_parts (parts : Partition.Parts pool w.contents) (op : Op)
    (idle : (w.clients thread).pc = .idle)
    (held : ∀ buffer, op.handed = some buffer → buffer ∈ (w.clients thread).held) :
    Partition.Parts pool (w.call thread op).contents := by
  have before : w.contents (.underway thread) = [] := by
    simp [World.contents,idle,Pc.underway]
  rw [World.call,contents_setHeld,contents_goto,start_underway,Op.left]
  cases handed : op.handed with
  | none =>
    have stays : update w.contents (.underway thread) [] = w.contents := by
      rw [← before]
      exact Function.update_eq_self _ _
    simp only [Option.toList_none,stays]
    rwa [show (w.clients thread).held = w.contents (.client thread) from rfl,Function.update_eq_self]
  | some buffer =>
    rw [Function.update_comm (by simp)]
    refine parts.transfer (.client thread) (.underway thread) buffer (by simp) ?_ ?_
    · exact List.perm_cons_erase (held buffer handed)
    · rw [before]
      exact .refl _

private theorem ret_parts (parts : Partition.Parts pool w.contents) {buffer : Nat}
    (before : (w.clients thread).pc.underway = nonNull buffer) :
    Partition.Parts pool (w.ret thread buffer).contents := by
  have underway : w.contents (.underway thread) = nonNull buffer := before
  rw [World.ret,contents_setHeld,World.unlock,contents_goto,contents_setMutex]
  by_cases null : buffer = 0
  · have stays : update w.contents (.underway thread) [] = w.contents := by
      rw [null,nonNull_zero] at underway
      rw [← underway]
      exact Function.update_eq_self _ _
    rw [null,show Pc.underway .idle = [] from rfl,stays,nonNull_zero,List.nil_append]
    rwa [show (w.clients thread).held = w.contents (.client thread) from rfl,Function.update_eq_self]
  · rw [nonNull_of_ne null] at underway ⊢
    refine parts.transfer (.underway thread) (.client thread) buffer (by simp) ?_ (.refl _)
    rw [underway]
    exact .refl _

private theorem step_parts {next : World} {action : Action} {events : List Event}
    (present : ∀ buffer ∈ pool, buffer ≠ 0) (parts : Partition.Parts pool w.contents)
    (stepped : Stepped w action next events) : Partition.Parts pool next.contents := by
  have some_buffer : ∀ place buffer, buffer ∈ w.contents place → buffer ≠ 0 := by
    intro place buffer member
    exact present buffer ((parts.cover buffer).mpr ⟨place,member⟩)
  cases stepped with
  | call thread op idle held => exact call_parts parts op idle held
  | goto thread pc inside before underway answered =>
    exact goto_parts parts (by rw [underway,before])
  | lock thread pc unowned underway unreturned =>
    exact goto_parts (setMutex_parts parts _) underway
  | unlock thread pc inside outside before underway =>
    exact goto_parts (setMutex_parts parts _) (underway.trans before.symm)
  | ret thread op buffer seen returns => exact ret_parts parts (returns_underway returns)
  | popIn thread buffer rest here found =>
    have free : w.contents .free = buffer :: rest := found
    have before : w.contents (.underway thread) = [] := by
      simp [World.contents,here,Pc.underway]
    have taken := some_buffer .free buffer (by rw [free]; exact List.mem_cons_self)
    rw [contents_goto,contents_setIn,if_neg taken,Pc.underway,nonNull_of_ne taken]
    refine parts.transfer .free (.underway thread) buffer (by simp) ?_ ?_
    · rw [free]
    · rw [before]
  | pushIn thread buffer here =>
    have before : w.contents (.underway thread) = [buffer] := by
      simp [World.contents,here,Pc.underway]
    rw [contents_goto,contents_setIn,Function.update_comm (by simp)]
    refine parts.transfer (.underway thread) .free buffer (by simp) ?_ (.refl _)
    rw [before]
    exact .refl _
  | popOut thread buffer rest pc inside before found after loads =>
    have filled : w.contents .filled = buffer :: rest := found
    have underway : w.contents (.underway thread) = [] := before
    have taken := some_buffer .filled buffer (by rw [filled]; exact List.mem_cons_self)
    obtain ⟨op,loads,returns⟩ := loads taken
    rw [contents_goto,contents_setOut,returns_underway returns,nonNull_of_ne taken]
    refine parts.transfer .filled (.underway thread) buffer (by simp) ?_ ?_
    · rw [filled]
    · rw [underway]
  | pushOut thread buffer here =>
    have before : w.contents (.underway thread) = [buffer] := by
      simp [World.contents,here,Pc.underway]
    rw [contents_goto,contents_setOut,Function.update_comm (by simp)]
    refine parts.transfer (.underway thread) .filled buffer (by simp) ?_ ?_
    · rw [before]
      exact .refl _
    · exact List.perm_append_singleton buffer w.pipe.mOutPipe

end Parts

section Steps

variable {w next : World} {action : Action} {events : List Event}

private theorem step_held (stepped : Stepped w action next events) (thread : Nat) :
    (next.clients thread).held = events.foldl (Event.hold thread) (w.clients thread).held := by
  cases stepped with
  | call other op idle held =>
    by_cases same : thread = other
    · simp [World.call,Event.hold,same]
    · simp [World.call,Event.hold,same]
  | ret other op buffer seen returns =>
    by_cases same : thread = other
    · simp [World.ret,World.unlock,World.setMutex,Event.hold,same]
    · simp [World.ret,World.unlock,World.setMutex,Event.hold,same]
  | _ => simp [World.unlock,World.setMutex,World.setIn,World.setOut,Event.hold]

private theorem popped_owned (w : World) (thread : Nat) (owned : w.pipe.mMutex = some thread) :
    w.popped = (w.clients thread).pc.popped := by
  rw [World.popped,owned]

private theorem popped_free (free : w.pipe.mMutex = none) : w.popped = [] := by
  rw [World.popped,free]

private theorem popped_keep (thread : Nat) (mutex : next.pipe.mMutex = w.pipe.mMutex)
    (others : ∀ other, other ≠ thread → next.clients other = w.clients other)
    (own : (next.clients thread).pc.popped = (w.clients thread).pc.popped) :
    next.popped = w.popped := by
  cases owned : w.pipe.mMutex with
  | none => rw [popped_free owned,popped_free (mutex.trans owned)]
  | some owner =>
    rw [popped_owned w owner owned,popped_owned next owner (mutex.trans owned)]
    by_cases same : owner = thread
    · rw [same,own]
    · rw [others owner same]

/-- Each step keeps the account of what has been popped, returned and stored. -/
theorem step_order (filled : ∀ buffer ∈ w.pipe.mOutPipe, buffer ≠ 0) (guarded : Guarded w)
    (stepped : Stepped w action next events) :
    handedOut events ++ next.popped ++ next.pipe.mOutPipe =
      w.popped ++ w.pipe.mOutPipe ++ storedOf events := by
  have others := step_others stepped
  cases stepped with
  | call thread op idle held =>
    have kept : (w.call thread op).popped = w.popped := by
      refine popped_keep thread rfl others ?_
      rw [World.call,setHeld_pc,goto_pc,idle,popped_of_returns (outside_returns (start_outside op))]
      rfl
    simp [kept,handedOut,storedOf,List.filterMap_cons,Event.handedBuffer,Event.storedBuffer]
  | goto thread pc inside before underway answered =>
    have kept : (w.goto thread pc).popped = w.popped := by
      refine popped_keep thread rfl others ?_
      rw [goto_pc,popped_of_underway underway,popped_of_underway before]
    simp [kept,handedOut,storedOf]
  | lock thread pc unowned underway unreturned =>
    have now : ((w.setMutex (some thread)).goto thread pc).popped = [] := by
      rw [popped_owned _ thread rfl,goto_pc,popped_of_returns unreturned]
    simp [now,popped_free unowned,handedOut,storedOf]
  | unlock thread pc inside outside before underway =>
    have was : w.popped = [] := by
      rw [popped_owned w thread (guarded thread inside),popped_of_underway before]
    have now : (w.unlock thread pc).popped = [] := popped_free rfl
    simp [was,now,handedOut,storedOf]
  | ret thread op buffer seen returns =>
    have was : w.popped = if op.loads then nonNull buffer else [] := by
      rw [popped_owned w thread (guarded thread (returns_critical returns)),Pc.popped,returns]
    have now : (w.ret thread buffer).popped = [] := popped_free rfl
    simp [was,now,handedOut,storedOf,List.filterMap_cons,Event.handedBuffer,Event.storedBuffer]
  | popIn thread buffer rest here found =>
    have inside : (w.clients thread).pc.critical = true := by
      rw [here]
      rfl
    have kept : ((w.setIn rest).goto thread
        (if buffer = 0 then .getLock else .getUnlock buffer)).popped = w.popped := by
      refine popped_keep thread rfl others ?_
      rw [goto_pc,here]
      split <;> rfl
    simp [kept,handedOut,storedOf]
  | pushIn thread buffer here =>
    have kept : ((w.setIn (buffer :: w.pipe.mInPipe)).goto thread .putUnlock).popped = w.popped := by
      refine popped_keep thread rfl others ?_
      rw [goto_pc,here]
      rfl
    simp [kept,handedOut,storedOf]
  | popOut thread buffer rest pc inside before found after loads =>
    have some_buffer : buffer ≠ 0 := filled buffer (by rw [found]; exact List.mem_cons_self)
    obtain ⟨op,loads,returns⟩ := loads some_buffer
    have owned := guarded thread inside
    have was : w.popped = [] := by rw [popped_owned w thread owned,popped_of_underway before]
    have now : ((w.setOut rest).goto thread pc).popped = [buffer] := by
      rw [popped_owned ((w.setOut rest).goto thread pc) thread owned,goto_pc,Pc.popped,returns]
      simp [loads,nonNull_of_ne some_buffer]
    simp [was,now,found,handedOut,storedOf,List.filterMap_cons,Event.handedBuffer,Event.storedBuffer]
  | pushOut thread buffer here =>
    have kept : ((w.setOut (w.pipe.mOutPipe ++ [buffer])).goto thread .storeUnlock).popped =
        w.popped := by
      refine popped_keep thread rfl others ?_
      rw [goto_pc,here]
      rfl
    simp [kept,handedOut,storedOf,Event.handedBuffer,Event.storedBuffer]

private theorem step_loaded (stepped : Stepped w action next events) :
    loadedOf events ++ next.pipe.mOutPipe = w.pipe.mOutPipe ++ storedOf events := by
  cases stepped with
  | popOut thread buffer rest pc inside before found after loads =>
    simp [found,loadedOf,storedOf,Event.loadedBuffer,Event.storedBuffer]
  | _ => simp [loadedOf,storedOf,List.filterMap_cons,Event.loadedBuffer,Event.storedBuffer]

/-- Outside the mutex nothing has been found yet, so that a step of its owner
cannot make an answer stale. -/
theorem step_answered (filled : ∀ buffer ∈ w.pipe.mOutPipe, buffer ≠ 0) (guarded : Guarded w)
    (answered : ∀ thread, (w.clients thread).pc.Answered w.pipe.mOutPipe)
    (stepped : Stepped w action next events) (thread : Nat) :
    (next.clients thread).pc.Answered next.pipe.mOutPipe := by
  have others := step_others stepped thread
  have elsewhere : ∀ owner, w.pipe.mMutex = some owner → thread ≠ owner → ∀ out,
      (w.clients thread).pc.Answered out := by
    intro owner owned different out
    apply answered_none
    apply outside_returns
    by_contra inside
    have owned_too := guarded thread (by simpa using inside)
    rw [owned] at owned_too
    exact different (Option.some.inj owned_too).symm
  by_cases same : thread = action.thread
  · subst same
    cases stepped with
    | call thread op idle held =>
      rw [World.call,Action.thread,setHeld_pc,goto_pc]
      exact answered_none (outside_returns (start_outside op))
    | goto thread pc inside before underway answers =>
      rw [Action.thread,goto_pc]
      exact answers
    | lock thread pc unowned underway unreturned =>
      rw [Action.thread,goto_pc]
      exact answered_none unreturned
    | unlock thread pc inside outside before underway =>
      rw [Action.thread,World.unlock,goto_pc]
      exact answered_none (outside_returns outside)
    | ret thread op buffer seen returns =>
      rw [World.ret,Action.thread,setHeld_pc,World.unlock,goto_pc]
      exact answered_none rfl
    | popIn thread buffer rest here found =>
      rw [Action.thread,goto_pc]
      split
      · exact answered_none rfl
      · next some_buffer =>
        intro op found seen returns
        cases returns
        exact some_buffer
    | pushIn thread buffer here =>
      rw [Action.thread,goto_pc]
      exact answered_none rfl
    | popOut thread buffer rest pc inside before found after loads =>
      have some_buffer : buffer ≠ 0 := filled buffer (by rw [found]; exact List.mem_cons_self)
      obtain ⟨op,loads,returns⟩ := loads some_buffer
      rw [Action.thread,goto_pc]
      intro other_op other seen found_too
      rw [returns] at found_too
      cases found_too
      have front : w.pipe.mOutPipe = nonNull buffer ++ rest := by
        rw [found,nonNull_of_ne some_buffer]
        rfl
      cases op with
      | load timed => exact ⟨front,fun null => absurd null some_buffer⟩
      | loadNoWait => exact ⟨front,fun null => absurd null some_buffer⟩
      | get => contradiction
      | put buffer => contradiction
      | store buffer => contradiction
    | pushOut thread buffer here =>
      rw [Action.thread,goto_pc]
      exact answered_none rfl
  · rw [others same]
    cases stepped with
    | popOut owner buffer rest pc inside before found after loads =>
      exact elsewhere owner (guarded owner inside) same _
    | pushOut owner buffer here =>
      exact elsewhere owner (guarded owner (by rw [here]; rfl)) same _
    | _ => exact answered thread

end Steps

/-- What an operation has found by its return is right by the trace so far. -/
theorem answers_result {before : List Event} {out : List Nat} {op : Op} {buffer : Nat}
    {seen : List Nat} (order : handedOut before ++ (if op.loads then nonNull buffer else []) ++ out =
      storedOf before) (answers : Answers out op buffer seen) : Result before op buffer seen := by
  have front : ∀ rest, seen = nonNull buffer ++ rest → (buffer = 0 → seen = []) →
      buffer = seen.headD 0 := by
    intro rest split empty
    by_cases null : buffer = 0
    · rw [empty null,null]
      rfl
    · rw [split,nonNull_of_ne null]
      rfl
  cases op with
  | get => exact answers
  | put buffer => exact answers
  | store buffer => exact answers
  | load timed =>
    obtain ⟨split,null⟩ := answers
    refine ⟨?_,front out split (fun zero => (null zero).2),null⟩
    rw [split,← order,List.append_assoc]
    rfl
  | loadNoWait =>
    obtain ⟨split,null⟩ := answers
    refine ⟨?_,front out split null,null⟩
    rw [split,← order,List.append_assoc]
    rfl

structure Safe (pool : List Nat) (w : World) (trace : List Event) : Prop where
  guarded : Guarded w
  parts : Partition.Parts pool w.contents
  held : ∀ thread, (w.clients thread).held = holdings thread trace
  order : handedOut trace ++ w.popped ++ w.pipe.mOutPipe = storedOf trace
  loaded : loadedOf trace ++ w.pipe.mOutPipe = storedOf trace
  answered : ∀ thread, (w.clients thread).pc.Answered w.pipe.mOutPipe
  events : Machine.Each Event.Sound trace

private theorem step_sound {pool : List Nat} {w next : World} {trace events : List Event}
    {action : Action} (safe : Safe pool w trace) (stepped : Stepped w action next events) :
    Machine.Each Event.Sound (trace ++ events) := by
  cases stepped with
  | call thread op idle held =>
    refine Machine.each_snoc safe.events ?_
    intro buffer handed
    rw [← safe.held thread]
    exact held buffer handed
  | ret thread op buffer seen returns =>
    refine Machine.each_snoc safe.events ?_
    have order := safe.order
    rw [popped_owned w thread (safe.guarded thread (returns_critical returns)),Pc.popped,returns] at order
    exact answers_result order (safe.answered thread op buffer seen returns)
  | popOut thread buffer rest pc inside before found after loads =>
    exact Machine.each_snoc safe.events trivial
  | pushOut thread buffer here => exact Machine.each_snoc safe.events trivial
  | _ =>
    rw [List.append_nil]
    exact safe.events

private theorem step_safe {pool : List Nat} {w next : World} {trace events : List Event}
    {action : Action} (present : ∀ buffer ∈ pool, buffer ≠ 0) (safe : Safe pool w trace)
    (stepped : Stepped w action next events) : Safe pool next (trace ++ events) := by
  have filled : ∀ buffer ∈ w.pipe.mOutPipe, buffer ≠ 0 := by
    intro buffer member
    exact present buffer ((safe.parts.cover buffer).mpr ⟨.filled,member⟩)
  refine ⟨step_guarded safe.guarded stepped,step_parts present safe.parts stepped,?_,?_,?_,
    step_answered filled safe.guarded safe.answered stepped,step_sound safe stepped⟩
  · intro thread
    rw [step_held stepped,safe.held thread,holdings,holdings,List.foldl_append]
  · have now := step_order filled safe.guarded stepped
    rw [handedOut_append,storedOf_append,← safe.order]
    simpa only [List.append_assoc,List.append_cancel_left_eq] using now
  · have now := step_loaded stepped
    rw [loadedOf_append,storedOf_append,← safe.loaded]
    simpa only [List.append_assoc,List.append_cancel_left_eq] using now

private theorem initialize_list (answers : List Nat) (pipe after : VaDualPipe)
    (ok : VaDualPipe.initialize answers pipe = (0,after)) :
    after = {pipe with mInPipe := answers.reverse ++ pipe.mInPipe} ∧
      ∀ buffer ∈ answers, buffer ≠ 0 := by
  induction answers generalizing pipe with
  | nil =>
    obtain ⟨-,rfl⟩ := Prod.mk.inj ok
    exact ⟨rfl,by simp⟩
  | cons data answers ih =>
    unfold VaDualPipe.initialize at ok
    split at ok
    · exact absurd (Prod.mk.inj ok).1 (by decide)
    · next some_data =>
      obtain ⟨same,present⟩ := ih _ ok
      refine ⟨by simp [same],?_⟩
      intro buffer member
      rcases List.mem_cons.mp member with rfl | later
      · exact some_data
      · exact present buffer later

private theorem start_safe (answers : List Nat) (distinct : answers.Nodup) :
    Safe answers (start ⟨answers.reverse ++ [],[],none⟩) [] := by
  refine ⟨start_guarded _,⟨?_,?_,?_⟩,fun _ => rfl,rfl,rfl,fun _ => answered_none rfl,
    Machine.each_nil _⟩
  · intro place
    cases place with
    | free => simpa [World.contents,start] using distinct
    | filled => exact List.nodup_nil
    | client thread => exact List.nodup_nil
    | underway thread => exact List.nodup_nil
  · intro place other thing first second
    cases place <;> cases other <;> simp_all [World.contents,start,Pc.underway]
  · intro thing
    constructor
    · intro member
      exact ⟨.free,by simpa [World.contents,start] using member⟩
    · rintro ⟨place,member⟩
      cases place <;> simp_all [World.contents,start,Pc.underway]

/-- After every interleaving the two lists, the clients and their operations share
out the frames that Initialize allocated, where a client has what has been
returned to it. What the loads have returned, with what the owner of the mutex is
about to return and the filled list, is what was stored, in its order. -/
theorem buffers_conserved_in_order (answers : List Nat) (pipe : VaDualPipe)
    (actions : List Action) (w : World) (trace : List Event) (distinct : answers.Nodup)
    (initialized : VaDualPipe.initialize answers .new = (0,pipe))
    (ran : dualPipe.run (start pipe) actions = some (w,trace)) :
    Partition.Parts answers w.contents ∧
      (∀ thread, w.contents (.client thread) = holdings thread trace) ∧
      handedOut trace ++ w.popped ++ w.pipe.mOutPipe = storedOf trace ∧
      loadedOf trace ++ w.pipe.mOutPipe = storedOf trace ∧ Machine.Each Event.Sound trace := by
  obtain ⟨rfl,present⟩ := initialize_list answers .new pipe initialized
  have safe : Safe answers w trace := by
    refine Machine.run_invariant (Safe answers) ?_ (start_safe answers distinct) ran
    intro state before action next emitted kept stepped
    exact step_safe present kept (step_stepped stepped)
  exact ⟨safe.parts,safe.held,safe.order,safe.loaded,safe.events⟩

/-- Two threads get a buffer each and store them; a third loads both in the order
stored, and its timed load then finds nothing. -/
def storeAndLoad : List Action :=
  [.call 1 .get,.run 1,.run 1,.run 1,.call 2 .get,.run 2,.run 2,.run 2,
    .call 2 (.store 16),.run 2,.run 2,.run 2,.run 2,
    .call 1 (.store 32),.run 1,.run 1,.run 1,.run 1,
    .call 3 (.load false),.run 3,.run 3,.run 3,.call 3 .loadNoWait,.run 3,.run 3,.run 3,
    .call 3 (.load true),.run 3,.run 3,.run 3,.run 3,.run 3]

theorem buffers_conserved_in_order_store_and_load : ∃ w trace,
    dualPipe.run (start ⟨[32,16],[],none⟩) storeAndLoad = some (w,trace) ∧
      trace = [.called 1 .get,.returned 1 .get 32 [],.called 2 .get,.returned 2 .get 16 [],
        .called 2 (.store 16),.stored 16,.called 1 (.store 32),.stored 32,
        .called 3 (.load false),.loaded 16,.returned 3 (.load false) 16 [16,32],
        .called 3 .loadNoWait,.loaded 32,.returned 3 .loadNoWait 32 [32],.called 3 (.load true),
        .returned 3 (.load true) 0 []] ∧
      Partition.Parts [16,32] w.contents ∧
      (∀ thread, w.contents (.client thread) = holdings thread trace) ∧
      handedOut trace ++ w.popped ++ w.pipe.mOutPipe = storedOf trace ∧
      loadedOf trace ++ w.pipe.mOutPipe = storedOf trace ∧ Machine.Each Event.Sound trace :=
  ⟨_,_,rfl,rfl,
    buffers_conserved_in_order [16,32] ⟨[32,16],[],none⟩ storeAndLoad _ _ (by decide) rfl rfl⟩

end VideoAnalytics.DualPipe
