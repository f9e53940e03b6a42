import VideoAnalytics.Library.Machine
import Mathlib.Logic.Function.Basic

/-! VaDualPipe, statement by statement: its two lists, its mutex and the threads
that call it. A buffer is its address, and zero is NULL. A waiter may wake at
any time, so that a signal changes nothing. -/
namespace VideoAnalytics.DualPipe

structure VaDualPipe where
  mInPipe : List Nat
  mOutPipe : List Nat
  mMutex : Option Nat
  deriving DecidableEq, Repr

def VaDualPipe.new : VaDualPipe := ⟨[],[],none⟩

/-- Initialize with what memalign answers, once for each frame. -/
def VaDualPipe.initialize : List Nat → VaDualPipe → Int × VaDualPipe
  | [], pipe => (0,pipe)
  | data :: answers, pipe =>
    if data = 0 then (-1,pipe)
    else VaDualPipe.initialize answers {pipe with mInPipe := data :: pipe.mInPipe}

inductive Op
  | get
  | put (buffer : Nat)
  | load (timed : Bool)
  | loadNoWait
  | store (buffer : Nat)
  deriving DecidableEq, Repr

/-- Where a thread is in an operation. At loadUnlock, seen is the filled list as
it was at the last look. -/
inductive Pc
  | idle
  | getLock
  | getLook
  | getSleep
  | getUnlock (buffer : Nat)
  | putLock (buffer : Nat)
  | putPush (buffer : Nat)
  | putUnlock
  | loadLock (timed : Bool)
  | loadLook (timed timeout : Bool)
  | loadWait (timed : Bool)
  | loadUnlock (timed : Bool) (buffer : Nat) (seen : List Nat)
  | loadNoWaitLock
  | loadNoWaitLook
  | loadNoWaitUnlock (buffer : Nat) (seen : List Nat)
  | storeLock (buffer : Nat)
  | storePush (buffer : Nat)
  | storeUnlock
  | storeSignal
  deriving DecidableEq, Repr

/-- A thread, with the buffers that calls have returned to it and that it has
not handed over since. -/
structure Client where
  pc : Pc
  held : List Nat
  deriving DecidableEq, Repr

inductive Event
  | called (thread : Nat) (op : Op)
  | stored (buffer : Nat)
  | loaded (buffer : Nat)
  | returned (thread : Nat) (op : Op) (buffer : Nat) (seen : List Nat)
  deriving DecidableEq, Repr

structure World where
  pipe : VaDualPipe
  clients : Nat → Client

/-- No buffer for NULL. -/
def nonNull (buffer : Nat) : List Nat := if buffer = 0 then [] else [buffer]

def Op.start : Op → Pc
  | .get => .getLock
  | .put buffer => .putLock buffer
  | .load timed => .loadLock timed
  | .loadNoWait => .loadNoWaitLock
  | .store buffer => .storeLock buffer

def Op.handed : Op → Option Nat
  | .put buffer => some buffer
  | .store buffer => some buffer
  | .get => none
  | .load _ => none
  | .loadNoWait => none

def Op.left (op : Op) (held : List Nat) : List Nat :=
  match op.handed with
  | some buffer => held.erase buffer
  | none => held

def World.goto (w : World) (thread : Nat) (pc : Pc) : World :=
  {w with clients := Function.update w.clients thread {w.clients thread with pc := pc}}

def World.setHeld (w : World) (thread : Nat) (held : List Nat) : World :=
  {w with clients := Function.update w.clients thread {w.clients thread with held := held}}

def World.setMutex (w : World) (owner : Option Nat) : World :=
  {w with pipe := {w.pipe with mMutex := owner}}

def World.setIn (w : World) (buffers : List Nat) : World :=
  {w with pipe := {w.pipe with mInPipe := buffers}}

def World.setOut (w : World) (buffers : List Nat) : World :=
  {w with pipe := {w.pipe with mOutPipe := buffers}}

def World.lock (w : World) (thread : Nat) (pc : Pc) : Option (World × List Event) :=
  if w.pipe.mMutex = none then some ((w.setMutex (some thread)).goto thread pc,[]) else none

def World.unlock (w : World) (thread : Nat) (pc : Pc) : World :=
  (w.setMutex none).goto thread pc

/-- The last unlock of an operation that returns a buffer, and its return. -/
def World.ret (w : World) (thread buffer : Nat) : World :=
  (w.unlock thread .idle).setHeld thread (nonNull buffer ++ (w.clients thread).held)

def World.call (w : World) (thread : Nat) (op : Op) : World :=
  (w.goto thread op.start).setHeld thread (op.left (w.clients thread).held)

/-- The next statement of a thread, if it is in an operation and not blocked. -/
def World.next (w : World) (thread : Nat) : Option (World × List Event) :=
  match (w.clients thread).pc with
  | .idle => none
  | .getLock => w.lock thread .getLook
  | .getLook =>
    match w.pipe.mInPipe with
    | buffer :: rest =>
      some ((w.setIn rest).goto thread (if buffer = 0 then .getLock else .getUnlock buffer),[])
    | [] => some (w.unlock thread .getSleep,[])
  | .getSleep => some (w.goto thread .getLock,[])
  | .getUnlock buffer => some (w.ret thread buffer,[.returned thread .get buffer []])
  | .putLock buffer => w.lock thread (.putPush buffer)
  | .putPush buffer =>
    some ((w.setIn (buffer :: w.pipe.mInPipe)).goto thread .putUnlock,[])
  | .putUnlock => some (w.unlock thread .idle,[])
  | .loadLock timed => w.lock thread (.loadLook timed false)
  | .loadLook timed timeout =>
    match w.pipe.mOutPipe with
    | buffer :: rest =>
      some ((w.setOut rest).goto thread
        (if buffer = 0 then .loadLook timed timeout
          else .loadUnlock timed buffer w.pipe.mOutPipe),[.loaded buffer])
    | [] =>
      -- Both waits release the mutex; after a timed one the next look is the last.
      if !timed then some (w.unlock thread (.loadWait timed),[])
      else if !timeout then some (w.unlock thread (.loadWait timed),[])
      else some (w.goto thread (.loadUnlock timed 0 w.pipe.mOutPipe),[])
  | .loadWait timed => w.lock thread (.loadLook timed timed)
  | .loadUnlock timed buffer seen =>
    some (w.ret thread buffer,[.returned thread (.load timed) buffer seen])
  | .loadNoWaitLock => w.lock thread .loadNoWaitLook
  | .loadNoWaitLook =>
    match w.pipe.mOutPipe with
    | buffer :: rest =>
      some ((w.setOut rest).goto thread (.loadNoWaitUnlock buffer w.pipe.mOutPipe),
        [.loaded buffer])
    | [] => some (w.goto thread (.loadNoWaitUnlock 0 w.pipe.mOutPipe),[])
  | .loadNoWaitUnlock buffer seen =>
    some (w.ret thread buffer,[.returned thread .loadNoWait buffer seen])
  | .storeLock buffer => w.lock thread (.storePush buffer)
  | .storePush buffer =>
    some ((w.setOut (w.pipe.mOutPipe ++ [buffer])).goto thread .storeUnlock,[.stored buffer])
  | .storeUnlock => some (w.unlock thread .storeSignal,[])
  | .storeSignal => some (w.goto thread .idle,[])

inductive Action
  | call (thread : Nat) (op : Op)
  | run (thread : Nat)
  deriving DecidableEq, Repr

/-- Threads call in any order, and each only hands over a buffer that it holds. -/
def dualPipe : Machine.System World Action Event where
  step w
    | .call thread op =>
      if (w.clients thread).pc = .idle ∧ ∀ buffer, op.handed = some buffer →
          buffer ∈ (w.clients thread).held then
        some (w.call thread op,[.called thread op])
      else none
    | .run thread => w.next thread

def start (pipe : VaDualPipe) : World := ⟨pipe,fun _ => ⟨.idle,[]⟩⟩

end VideoAnalytics.DualPipe
