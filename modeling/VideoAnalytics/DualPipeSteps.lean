import VideoAnalytics.DualPipe

/-! What one statement on a VaDualPipe can do, said once: every invariant of the
pipe is shown of these steps. -/
namespace VideoAnalytics.DualPipe

/-- Between pthread_mutex_lock and pthread_mutex_unlock. -/
def Pc.critical : Pc → Bool
  | .getLook => true
  | .getUnlock _ => true
  | .putPush _ => true
  | .putUnlock => true
  | .loadLook _ _ => true
  | .loadUnlock _ _ _ => true
  | .loadNoWaitLook => true
  | .loadNoWaitUnlock _ _ => true
  | .storePush _ => true
  | .storeUnlock => true
  | _ => false

/-- The buffer that an operation has popped and not returned, or was handed and
has not pushed. -/
def Pc.underway : Pc → List Nat
  | .getUnlock buffer => nonNull buffer
  | .putLock buffer => [buffer]
  | .putPush buffer => [buffer]
  | .loadUnlock _ buffer _ => nonNull buffer
  | .loadNoWaitUnlock buffer _ => nonNull buffer
  | .storeLock buffer => [buffer]
  | .storePush buffer => [buffer]
  | _ => []

def Pc.returns : Pc → Option (Op × Nat × List Nat)
  | .getUnlock buffer => some (.get,buffer,[])
  | .loadUnlock timed buffer seen => some (.load timed,buffer,seen)
  | .loadNoWaitUnlock buffer seen => some (.loadNoWait,buffer,seen)
  | _ => none

def Op.loads : Op → Bool
  | .load _ => true
  | .loadNoWait => true
  | _ => false

/-- What an operation that is about to return has found, with the filled list as
it is now. -/
def Answers (out : List Nat) (op : Op) (buffer : Nat) (seen : List Nat) : Prop :=
  match op with
  | .get => buffer ≠ 0
  | .load timed => seen = nonNull buffer ++ out ∧ (buffer = 0 → timed = true ∧ seen = [])
  | .loadNoWait => seen = nonNull buffer ++ out ∧ (buffer = 0 → seen = [])
  | .put _ => False
  | .store _ => False

def Pc.Answered (pc : Pc) (out : List Nat) : Prop :=
  ∀ op buffer seen, pc.returns = some (op,buffer,seen) → Answers out op buffer seen

/-- What Load and LoadNoWait have popped and not returned. -/
def Pc.popped (pc : Pc) : List Nat :=
  match pc.returns with
  | some (op,buffer,_) => if op.loads then nonNull buffer else []
  | none => []

@[simp] theorem nonNull_zero : nonNull 0 = [] := rfl

theorem nonNull_of_ne {buffer : Nat} (some_buffer : buffer ≠ 0) : nonNull buffer = [buffer] :=
  if_neg some_buffer

theorem returns_underway {pc : Pc} {op : Op} {buffer : Nat} {seen : List Nat}
    (returns : pc.returns = some (op,buffer,seen)) : pc.underway = nonNull buffer := by
  cases pc <;> cases returns <;> rfl

theorem returns_critical {pc : Pc} {op : Op} {buffer : Nat} {seen : List Nat}
    (returns : pc.returns = some (op,buffer,seen)) : pc.critical = true := by
  cases pc <;> cases returns <;> rfl

theorem popped_of_underway {pc : Pc} (underway : pc.underway = []) : pc.popped = [] := by
  unfold Pc.popped
  split
  · next op buffer seen returns =>
    rw [← returns_underway returns,underway,ite_self]
  · rfl

theorem popped_of_returns {pc : Pc} (unreturned : pc.returns = none) : pc.popped = [] := by
  rw [Pc.popped,unreturned]

theorem start_underway (op : Op) : op.start.underway = op.handed.toList := by
  cases op <;> rfl

theorem start_outside (op : Op) : op.start.critical = false := by
  cases op <;> rfl

theorem answered_none {pc : Pc} {out : List Nat} (unreturned : pc.returns = none) :
    pc.Answered out := by
  intro op buffer seen returns
  rw [unreturned] at returns
  contradiction

theorem outside_returns {pc : Pc} (outside : pc.critical = false) : pc.returns = none := by
  cases found : pc.returns with
  | none => rfl
  | some result =>
    have inside := returns_critical found
    rw [outside] at inside
    contradiction

section Updates

variable (w : World) (thread : Nat)

@[simp] theorem goto_pipe (pc : Pc) : (w.goto thread pc).pipe = w.pipe := rfl

@[simp] theorem setHeld_pipe (held : List Nat) : (w.setHeld thread held).pipe = w.pipe := rfl

@[simp] theorem setMutex_out (owner : Option Nat) :
    (w.setMutex owner).pipe.mOutPipe = w.pipe.mOutPipe := rfl

@[simp] theorem setIn_out (buffers : List Nat) :
    (w.setIn buffers).pipe.mOutPipe = w.pipe.mOutPipe := rfl

@[simp] theorem setOut_out (buffers : List Nat) : (w.setOut buffers).pipe.mOutPipe = buffers := rfl

@[simp] theorem call_out (op : Op) : (w.call thread op).pipe.mOutPipe = w.pipe.mOutPipe := rfl

@[simp] theorem unlock_out (pc : Pc) :
    (w.unlock thread pc).pipe.mOutPipe = w.pipe.mOutPipe := rfl

@[simp] theorem ret_out (buffer : Nat) : (w.ret thread buffer).pipe.mOutPipe = w.pipe.mOutPipe := rfl

@[simp] theorem goto_pc (pc : Pc) : ((w.goto thread pc).clients thread).pc = pc := by
  simp [World.goto]

@[simp] theorem goto_held (pc : Pc) (other : Nat) :
    ((w.goto thread pc).clients other).held = (w.clients other).held := by
  by_cases same : other = thread
  · simp [World.goto,same]
  · simp [World.goto,same]

theorem goto_other (pc : Pc) {other : Nat} (different : other ≠ thread) :
    (w.goto thread pc).clients other = w.clients other :=
  Function.update_of_ne different _ _

@[simp] theorem setHeld_pc (held : List Nat) (other : Nat) :
    ((w.setHeld thread held).clients other).pc = (w.clients other).pc := by
  by_cases same : other = thread
  · simp [World.setHeld,same]
  · simp [World.setHeld,same]

@[simp] theorem setHeld_held (held : List Nat) (other : Nat) :
    ((w.setHeld thread held).clients other).held =
      if other = thread then held else (w.clients other).held := by
  by_cases same : other = thread
  · simp [World.setHeld,same]
  · simp [World.setHeld,same]

end Updates

/-- What a step of a thread does, given where the thread is before it. -/
inductive Stepped (w : World) : Action → World → List Event → Prop
  | call (thread : Nat) (op : Op) (idle : (w.clients thread).pc = .idle)
      (held : ∀ buffer, op.handed = some buffer → buffer ∈ (w.clients thread).held) :
      Stepped w (.call thread op) (w.call thread op) [.called thread op]
  | goto (thread : Nat) (pc : Pc) (inside : pc.critical = (w.clients thread).pc.critical)
      (before : (w.clients thread).pc.underway = []) (underway : pc.underway = [])
      (answered : pc.Answered w.pipe.mOutPipe) :
      Stepped w (.run thread) (w.goto thread pc) []
  | lock (thread : Nat) (pc : Pc) (unowned : w.pipe.mMutex = none)
      (underway : pc.underway = (w.clients thread).pc.underway) (unreturned : pc.returns = none) :
      Stepped w (.run thread) ((w.setMutex (some thread)).goto thread pc) []
  | unlock (thread : Nat) (pc : Pc) (inside : (w.clients thread).pc.critical = true)
      (outside : pc.critical = false) (before : (w.clients thread).pc.underway = [])
      (underway : pc.underway = []) : Stepped w (.run thread) (w.unlock thread pc) []
  | ret (thread : Nat) (op : Op) (buffer : Nat) (seen : List Nat)
      (returns : (w.clients thread).pc.returns = some (op,buffer,seen)) :
      Stepped w (.run thread) (w.ret thread buffer) [.returned thread op buffer seen]
  | popIn (thread buffer : Nat) (rest : List Nat) (here : (w.clients thread).pc = .getLook)
      (found : w.pipe.mInPipe = buffer :: rest) :
      Stepped w (.run thread)
        ((w.setIn rest).goto thread (if buffer = 0 then .getLock else .getUnlock buffer)) []
  | pushIn (thread buffer : Nat) (here : (w.clients thread).pc = .putPush buffer) :
      Stepped w (.run thread)
        ((w.setIn (buffer :: w.pipe.mInPipe)).goto thread .putUnlock) []
  | popOut (thread buffer : Nat) (rest : List Nat) (pc : Pc)
      (inside : (w.clients thread).pc.critical = true) (before : (w.clients thread).pc.underway = [])
      (found : w.pipe.mOutPipe = buffer :: rest) (after : pc.critical = true)
      (loads : buffer ≠ 0 → ∃ op, op.loads = true ∧
        pc.returns = some (op,buffer,w.pipe.mOutPipe)) :
      Stepped w (.run thread) ((w.setOut rest).goto thread pc) [.loaded buffer]
  | pushOut (thread buffer : Nat) (here : (w.clients thread).pc = .storePush buffer) :
      Stepped w (.run thread)
        ((w.setOut (w.pipe.mOutPipe ++ [buffer])).goto thread .storeUnlock) [.stored buffer]

private theorem lock_stepped {w next : World} {thread : Nat} {pc : Pc} {events : List Event}
    (underway : pc.underway = (w.clients thread).pc.underway) (unreturned : pc.returns = none)
    (locked : w.lock thread pc = some (next,events)) : Stepped w (.run thread) next events := by
  unfold World.lock at locked
  split at locked
  · next unowned =>
    cases locked
    exact .lock thread pc unowned underway unreturned
  · contradiction

private theorem next_stepped {w next : World} {thread : Nat} {events : List Event}
    (stepped : w.next thread = some (next,events)) : Stepped w (.run thread) next events := by
  unfold World.next at stepped
  split at stepped
  · contradiction
  · next here => exact lock_stepped (by rw [here]; rfl) rfl stepped
  · next here =>
    split at stepped
    · next buffer rest found =>
      cases stepped
      exact .popIn thread buffer rest here found
    · cases stepped
      exact .unlock thread _ (by rw [here]; rfl) rfl (by rw [here]; rfl) rfl
  · next here =>
    cases stepped
    exact .goto thread _ (by rw [here]; rfl) (by rw [here]; rfl) rfl (answered_none rfl)
  · next here =>
    cases stepped
    exact .ret thread _ _ _ (by rw [here]; rfl)
  · next here => exact lock_stepped (by rw [here]; rfl) rfl stepped
  · next here =>
    cases stepped
    exact .pushIn thread _ here
  · next here =>
    cases stepped
    exact .unlock thread _ (by rw [here]; rfl) rfl (by rw [here]; rfl) rfl
  · next here => exact lock_stepped (by rw [here]; rfl) rfl stepped
  · next timed timeout here =>
    split at stepped
    · next buffer rest found =>
      cases stepped
      refine .popOut thread buffer rest _ (by rw [here]; rfl) (by rw [here]; rfl) found ?_ ?_
      · split <;> rfl
      · intro some_buffer
        exact ⟨.load timed,rfl,by rw [if_neg some_buffer]; rfl⟩
    · next empty =>
      split at stepped
      · cases stepped
        exact .unlock thread _ (by rw [here]; rfl) rfl (by rw [here]; rfl) rfl
      split at stepped
      · cases stepped
        exact .unlock thread _ (by rw [here]; rfl) rfl (by rw [here]; rfl) rfl
      · next is_timed last_look =>
        cases stepped
        refine .goto thread _ (by rw [here]; rfl) (by rw [here]; rfl) rfl ?_
        intro op buffer seen returns
        cases returns
        exact ⟨rfl,fun _ => ⟨by simpa using is_timed,empty⟩⟩
  · next here => exact lock_stepped (by rw [here]; rfl) rfl stepped
  · next here =>
    cases stepped
    exact .ret thread _ _ _ (by rw [here]; rfl)
  · next here => exact lock_stepped (by rw [here]; rfl) rfl stepped
  · next here =>
    split at stepped
    · next buffer rest found =>
      cases stepped
      exact .popOut thread buffer rest _ (by rw [here]; rfl) (by rw [here]; rfl) found rfl
        fun _ => ⟨.loadNoWait,rfl,rfl⟩
    · next empty =>
      cases stepped
      refine .goto thread _ (by rw [here]; rfl) (by rw [here]; rfl) rfl ?_
      intro op buffer seen returns
      cases returns
      exact ⟨rfl,fun _ => empty⟩
  · next here =>
    cases stepped
    exact .ret thread _ _ _ (by rw [here]; rfl)
  · next here => exact lock_stepped (by rw [here]; rfl) rfl stepped
  · next here =>
    cases stepped
    exact .pushOut thread _ here
  · next here =>
    cases stepped
    exact .unlock thread _ (by rw [here]; rfl) rfl (by rw [here]; rfl) rfl
  · next here =>
    cases stepped
    exact .goto thread _ (by rw [here]; rfl) (by rw [here]; rfl) rfl (answered_none rfl)

theorem step_stepped {w next : World} {action : Action} {events : List Event}
    (stepped : dualPipe.step w action = some (next,events)) : Stepped w action next events := by
  cases action with
  | call thread op =>
    simp only [dualPipe] at stepped
    split at stepped
    · next allowed =>
      cases stepped
      exact .call thread op allowed.1 allowed.2
    · contradiction
  | run thread => exact next_stepped stepped

end VideoAnalytics.DualPipe
