import VideoAnalytics.FrameAllocator

/-! The allocator's Lock and Unlock of a surface, as the threads call them one
after the other, with the images and buffers that VA keeps for them. What VA
answers during one Lock is an argument of the call. -/
namespace VideoAnalytics.SurfaceLock
open FrameAllocator Machine

structure VAImage where
  imageId : Nat
  buf : Nat
  /-- None stands for a code that Lock does not know. -/
  fourcc : Option VaFourcc
  pitches : Nat → Nat
  offsets : Nat → Nat

structure VaapiMemId where
  surface : Option Nat
  fourcc : MfxFourcc
  image : VAImage

/-- The pointers R, G and B share their memory with Y, U and V. -/
structure MfxFrameData where
  pitch : Nat
  y : Nat
  u : Nat
  v : Nat
  a : Nat
  deriving DecidableEq, Repr

inductive LockStatus
  | va (status : MfxStatus)
  | errInvalidHandle
  | errLockMemory
  deriving DecidableEq, Repr

/-- The answers of VA during one Lock, with what m_image holds after vaDeriveImage. -/
structure LockEnv where
  deriveStatus : VAStatus
  image : VAImage
  mapStatus : VAStatus
  pBuffer : Nat

inductive VaCall
  | derived (image : Nat)
  | mapped (buffer : Nat)
  | unmapped (buffer : Nat)
  | destroyed (image : Nat)
  deriving DecidableEq, Repr

structure Held where
  images : List Nat
  buffers : List Nat
  deriving DecidableEq, Repr

def Held.after (held : Held) : VaCall → Held
  | .derived image => {held with images := image :: held.images}
  | .mapped buffer => {held with buffers := buffer :: held.buffers}
  | .unmapped buffer => {held with buffers := held.buffers.erase buffer}
  | .destroyed image => {held with images := held.images.erase image}

structure Locked where
  status : LockStatus
  vaapiMid : Option VaapiMemId
  ptr : MfxFrameData
  calls : List VaCall

/-- The switch over the format that the image reports. -/
def framePlanes (image : VAImage) (pBuffer : Nat) (ptr : MfxFrameData) :
    MfxFourcc → Option MfxFrameData := fun fourcc =>
  let plane i := pBuffer + image.offsets i
  let pitch := image.pitches 0 % 65536
  match image.fourcc, fourcc with
  | some .nv12, .nv12 => some {ptr with
      pitch := pitch, y := plane 0, u := plane 1, v := plane 1 + 1}
  | some .yv12, .yv12 => some {ptr with
      pitch := pitch, y := plane 0, v := plane 1, u := plane 2}
  | some .yuy2, .yuy2 => some {ptr with
      pitch := pitch, y := plane 0, u := plane 0 + 1, v := plane 0 + 3}
  | some .rgbp, .rgbp => some {ptr with
      pitch := pitch, v := plane 0, u := plane 1, y := plane 2}
  | some .argb, .rgb4 => some
      {pitch := pitch, v := plane 0, u := plane 0 + 1, y := plane 0 + 2, a := plane 0 + 3}
  | _, _ => none

/-- None when Lock reads through the coded buffer pointer that a failed vaMapBuffer
has left uninitialised. -/
def simpleLock (env : LockEnv) (vaapiMid : Option VaapiMemId) (ptr : MfxFrameData) :
    Option Locked :=
  match vaapiMid with
  | none => some ⟨.errInvalidHandle,none,ptr,[]⟩
  | some mid =>
    match mid.surface with
    | none => some ⟨.errInvalidHandle,vaapiMid,ptr,[]⟩
    | some surface =>
      if mid.fourcc = .p8 then
        let mfxRes := vaToMfxStatus env.mapStatus
        if mfxRes ≠ .errNone then none
        else some ⟨.va mfxRes,vaapiMid,{ptr with y := env.pBuffer},[.mapped surface]⟩
      else
        -- The status of vaSyncSurface is not looked at.
        let derivedMid := some {mid with image := env.image}
        let deriveRes := vaToMfxStatus env.deriveStatus
        if deriveRes ≠ .errNone then some ⟨.va deriveRes,derivedMid,ptr,[]⟩
        else
          let mapRes := vaToMfxStatus env.mapStatus
          if mapRes ≠ .errNone then
            some ⟨.va mapRes,derivedMid,ptr,[.derived env.image.imageId]⟩
          else
            let calls := [.derived env.image.imageId,.mapped env.image.buf]
            match framePlanes env.image env.pBuffer ptr mid.fourcc with
            | some planes => some ⟨.va mapRes,derivedMid,planes,calls⟩
            | none => some ⟨.errLockMemory,derivedMid,ptr,calls⟩

structure Unlocked where
  status : LockStatus
  ptr : Option MfxFrameData
  calls : List VaCall

def simpleUnlock (vaapiMid : Option VaapiMemId) (ptr : Option MfxFrameData) : Unlocked :=
  match vaapiMid with
  | none => ⟨.errInvalidHandle,ptr,[]⟩
  | some mid =>
    match mid.surface with
    | none => ⟨.errInvalidHandle,ptr,[]⟩
    | some surface =>
      if mid.fourcc = .p8 then ⟨.va .errNone,ptr,[.unmapped surface]⟩
      else ⟨.va .errNone,ptr.map fun _ => ⟨0,0,0,0,0⟩,
        [.unmapped mid.image.buf,.destroyed mid.image.imageId]⟩

/-- A Lock and the Unlock after it, whatever the Lock has returned. -/
structure Pair where
  memId : Nat
  data : MfxFrameData
  env : LockEnv

structure Allocator where
  vaapiMids : Nat → Option VaapiMemId
  held : Held
  running : Bool

structure Event where
  memId : Nat
  calls : List VaCall
  finished : Bool
  held : Held

def lockUnlock (pair : Pair) (a : Allocator) : Allocator × Event :=
  match simpleLock pair.env (a.vaapiMids pair.memId) pair.data with
  | none => ({a with running := false},⟨pair.memId,[],false,a.held⟩)
  | some locked =>
    let unlocked := simpleUnlock locked.vaapiMid (some locked.ptr)
    let calls := locked.calls ++ unlocked.calls
    let held := calls.foldl Held.after a.held
    ({a with
      vaapiMids := Function.update a.vaapiMids pair.memId locked.vaapiMid
      held := held},⟨pair.memId,calls,true,held⟩)

def locking : System Allocator Pair Event where
  step a pair :=
    if a.running then
      let (next,event) := lockUnlock pair a
      some (next,[event])
    else none

def start (vaapiMids : Nat → Option VaapiMemId) : Allocator := ⟨vaapiMids,⟨[],[]⟩,true⟩

/-- What a Lock and its Unlock owe each other. -/
structure Event.Balanced (event : Event) : Prop where
  finished : event.finished = true
  destroyed : ∀ image, .derived image ∈ event.calls → event.calls.count (.destroyed image) = 1
  unmapped : ∀ buffer, .mapped buffer ∈ event.calls → event.calls.count (.unmapped buffer) = 1
  own : ∀ image, .destroyed image ∈ event.calls → .derived image ∈ event.calls
  remaining : event.held = ⟨[],[]⟩

/-- The VA calls of a Lock and its Unlock when the first of them is successful. -/
inductive Paired : List VaCall → Prop
  | invalid : Paired []
  | coded (buffer : Nat) : Paired [.mapped buffer,.unmapped buffer]
  | derived (image buffer : Nat) :
      Paired [.derived image,.unmapped buffer,.destroyed image]
  | mapped (image buffer : Nat) :
      Paired [.derived image,.mapped buffer,.unmapped buffer,.destroyed image]

/-- The first VA call that Lock needs for the memory id is successful. -/
def Pair.Begins (vaapiMids : Nat → Option VaapiMemId) (pair : Pair) : Prop :=
  ∀ mid surface, vaapiMids pair.memId = some mid → mid.surface = some surface →
    if mid.fourcc = .p8 then pair.env.mapStatus = .success
    else pair.env.deriveStatus = .success

def Event.of (pair : Pair) (a : Allocator) (calls : List VaCall) : Event :=
  ⟨pair.memId,calls,true,calls.foldl Held.after a.held⟩

def Event.stopped (pair : Pair) (a : Allocator) : Event := ⟨pair.memId,[],false,a.held⟩

section Steps

variable {pair : Pair} {a : Allocator} {mid : VaapiMemId} {surface : Nat}

private theorem lockUnlock_invalid (invalid : ∀ mid, a.vaapiMids pair.memId = some mid →
    mid.surface = none) : lockUnlock pair a = (a,.of pair a []) := by
  unfold lockUnlock simpleLock
  cases found : a.vaapiMids pair.memId with
  | none =>
    have same : Function.update a.vaapiMids pair.memId none = a.vaapiMids := by
      rw [← found,Function.update_eq_self]
    simp [simpleUnlock,Event.of,same]
  | some mid =>
    have absent := invalid mid found
    have same : Function.update a.vaapiMids pair.memId (some mid) = a.vaapiMids := by
      rw [← found,Function.update_eq_self]
    simp [simpleUnlock,Event.of,absent,same]

private theorem lockUnlock_coded (found : a.vaapiMids pair.memId = some mid)
    (there : mid.surface = some surface) (coded : mid.fourcc = .p8)
    (maps : pair.env.mapStatus = .success) :
    (lockUnlock pair a).2 = .of pair a [.mapped surface,.unmapped surface] := by
  simp [lockUnlock,simpleLock,simpleUnlock,Event.of,found,there,coded,maps,vaToMfxStatus_errNone]

private theorem lockUnlock_coded_failed (found : a.vaapiMids pair.memId = some mid)
    (there : mid.surface = some surface) (coded : mid.fourcc = .p8)
    (fails : pair.env.mapStatus ≠ .success) : (lockUnlock pair a).2 = .stopped pair a := by
  simp [lockUnlock,simpleLock,Event.stopped,found,there,coded,fails,vaToMfxStatus_errNone]

private theorem lockUnlock_underived (found : a.vaapiMids pair.memId = some mid)
    (there : mid.surface = some surface) (uncoded : mid.fourcc ≠ .p8)
    (fails : pair.env.deriveStatus ≠ .success) :
    (lockUnlock pair a).2 =
      .of pair a [.unmapped pair.env.image.buf,.destroyed pair.env.image.imageId] := by
  simp [lockUnlock,simpleLock,simpleUnlock,Event.of,found,there,uncoded,fails,
    vaToMfxStatus_errNone]

private theorem lockUnlock_derived (found : a.vaapiMids pair.memId = some mid)
    (there : mid.surface = some surface) (uncoded : mid.fourcc ≠ .p8)
    (derives : pair.env.deriveStatus = .success) :
    ∃ calls, Paired calls ∧ (lockUnlock pair a).2 = .of pair a calls := by
  by_cases maps : pair.env.mapStatus = .success
  · refine ⟨_,.mapped pair.env.image.imageId pair.env.image.buf,?_⟩
    cases planes : framePlanes pair.env.image pair.env.pBuffer pair.data mid.fourcc with
    | none =>
      simp [lockUnlock,simpleLock,simpleUnlock,Event.of,found,there,uncoded,derives,maps,planes,
        vaToMfxStatus_errNone]
    | some ptr =>
      simp [lockUnlock,simpleLock,simpleUnlock,Event.of,found,there,uncoded,derives,maps,planes,
        vaToMfxStatus_errNone]
  · refine ⟨_,.derived pair.env.image.imageId pair.env.image.buf,?_⟩
    simp [lockUnlock,simpleLock,simpleUnlock,Event.of,found,there,uncoded,derives,maps,
      vaToMfxStatus_errNone]

private theorem Paired.balanced {calls : List VaCall} (paired : Paired calls)
    (idle : a.held = ⟨[],[]⟩) : (Event.of pair a calls).Balanced := by
  cases paired with
  | invalid => exact ⟨rfl,by simp [Event.of],by simp [Event.of],by simp [Event.of],idle⟩
  | coded buffer =>
    constructor <;> simp [Event.of,idle,Held.after]
  | derived image buffer =>
    constructor <;> simp [Event.of,idle,Held.after]
  | mapped image buffer =>
    constructor <;> simp [Event.of,idle,Held.after]

end Steps

variable (pair : Pair) (a : Allocator)

/-- Lock makes its calls and Unlock takes them back, or Lock derives no image and
Unlock destroys one all the same, or Lock does not return. -/
theorem lockUnlock_cases :
    (pair.Begins a.vaapiMids ∧ ∃ calls, Paired calls ∧ (lockUnlock pair a).2 = .of pair a calls) ∨
    (¬pair.Begins a.vaapiMids ∧ ((lockUnlock pair a).2 = .stopped pair a ∨
      (lockUnlock pair a).2 =
        .of pair a [.unmapped pair.env.image.buf,.destroyed pair.env.image.imageId])) := by
  by_cases invalid : ∀ mid, a.vaapiMids pair.memId = some mid → mid.surface = none
  · refine .inl ⟨?_,[],.invalid,by rw [lockUnlock_invalid invalid]⟩
    intro mid surface found there
    rw [invalid mid found] at there
    contradiction
  · push Not at invalid
    obtain ⟨mid,found,there⟩ := invalid
    obtain ⟨surface,there⟩ := Option.ne_none_iff_exists'.mp there
    have begins : pair.Begins a.vaapiMids ↔ if mid.fourcc = .p8 then
        pair.env.mapStatus = .success else pair.env.deriveStatus = .success := by
      simp only [Pair.Begins,found,Option.some.injEq]
      constructor
      · intro holds
        exact holds mid surface rfl there
      · rintro holds _ _ rfl _
        exact holds
    rw [begins]
    by_cases coded : mid.fourcc = .p8
    · rw [if_pos coded]
      by_cases maps : pair.env.mapStatus = .success
      · exact .inl ⟨maps,_,.coded surface,lockUnlock_coded found there coded maps⟩
      · exact .inr ⟨maps,.inl (lockUnlock_coded_failed found there coded maps)⟩
    · rw [if_neg coded]
      by_cases derives : pair.env.deriveStatus = .success
      · exact .inl ⟨derives,lockUnlock_derived found there coded derives⟩
      · exact .inr ⟨derives,.inr (lockUnlock_underived found there coded derives)⟩

private theorem balanced_iff (idle : a.held = ⟨[],[]⟩) :
    (lockUnlock pair a).2.Balanced ↔ pair.Begins a.vaapiMids := by
  rcases lockUnlock_cases pair a with ⟨begins,calls,paired,event⟩ | ⟨fails,event⟩
  · rw [event]
    exact iff_of_true (paired.balanced idle) begins
  · refine iff_of_false ?_ fails
    intro balanced
    rcases event with stopped | event
    · rw [stopped] at balanced
      exact Bool.false_ne_true balanced.finished
    · have derived := balanced.own pair.env.image.imageId
      rw [event] at derived
      simp [Event.of] at derived

private theorem lockUnlock_same_held : (lockUnlock pair a).1.held = (lockUnlock pair a).2.held := by
  unfold lockUnlock
  cases simpleLock pair.env (a.vaapiMids pair.memId) pair.data with
  | none => rfl
  | some locked => rfl

/-- Nothing is left behind where nothing was, also when Lock fails. -/
theorem lockUnlock_held (idle : a.held = ⟨[],[]⟩) : (lockUnlock pair a).1.held = ⟨[],[]⟩ := by
  rw [lockUnlock_same_held]
  rcases lockUnlock_cases pair a with ⟨begins,calls,paired,event⟩ | ⟨fails,stopped | event⟩
  · rw [event]
    exact (paired.balanced idle).remaining
  · rw [stopped]
    exact idle
  · rw [event]
    simp [Event.of,idle,Held.after]

def VaapiMemId.kind (mid : VaapiMemId) : Option Nat × MfxFourcc := (mid.surface,mid.fourcc)

private theorem simpleLock_kind {env : LockEnv} {vaapiMid : Option VaapiMemId} {ptr : MfxFrameData}
    {locked : Locked} (done : simpleLock env vaapiMid ptr = some locked) :
    locked.vaapiMid.map VaapiMemId.kind = vaapiMid.map VaapiMemId.kind := by
  unfold simpleLock at done
  split at done
  · cases done
    rfl
  · split at done
    · cases done
      rfl
    · dsimp only at done
      split_ifs at done
      · cases done
        rfl
      · cases done
        rfl
      · cases done
        rfl
      · split at done <;> cases done <;> rfl

private theorem lockUnlock_kind (memId : Nat) :
    ((lockUnlock pair a).1.vaapiMids memId).map VaapiMemId.kind =
      (a.vaapiMids memId).map VaapiMemId.kind := by
  unfold lockUnlock
  cases done : simpleLock pair.env (a.vaapiMids pair.memId) pair.data with
  | none => rfl
  | some locked =>
    dsimp only
    by_cases same : memId = pair.memId
    · rw [same,Function.update_self]
      exact simpleLock_kind done
    · rw [Function.update_of_ne same]

variable {pair a}

private theorem begins_iff (vaapiMids : Nat → Option VaapiMemId) :
    pair.Begins vaapiMids ↔ ∀ surface fourcc,
      (vaapiMids pair.memId).map VaapiMemId.kind = some (some surface,fourcc) →
        if fourcc = .p8 then pair.env.mapStatus = .success
        else pair.env.deriveStatus = .success := by
  cases found : vaapiMids pair.memId with
  | none => simp [Pair.Begins,found]
  | some mid =>
    simp only [Pair.Begins,found,VaapiMemId.kind,Option.map_some,Option.some.injEq,Prod.mk.injEq]
    constructor
    · rintro begins surface fourcc ⟨there,rfl⟩
      exact begins mid surface rfl there
    · rintro begins _ surface rfl there
      exact begins surface mid.fourcc ⟨there,rfl⟩

/-- What holds between two pairs of calls. -/
structure Between (vaapiMids : Nat → Option VaapiMemId) (a : Allocator) : Prop where
  held : a.held = ⟨[],[]⟩
  kinds : ∀ memId, (a.vaapiMids memId).map VaapiMemId.kind =
    (vaapiMids memId).map VaapiMemId.kind

private theorem Between.begins {vaapiMids : Nat → Option VaapiMemId}
    (between : Between vaapiMids a) : pair.Begins a.vaapiMids ↔ pair.Begins vaapiMids := by
  rw [begins_iff,begins_iff,between.kinds]

private theorem locking_step {next : Allocator} {emitted : List Event}
    (stepped : locking.step a pair = some (next,emitted)) :
    next = (lockUnlock pair a).1 ∧ emitted = [(lockUnlock pair a).2] := by
  simp only [locking,Option.ite_none_right_eq_some,Option.some.injEq,Prod.mk.injEq] at stepped
  exact ⟨stepped.2.1.symm,stepped.2.2.symm⟩

private theorem Between.step {vaapiMids : Nat → Option VaapiMemId} {next : Allocator}
    {emitted : List Event} (between : Between vaapiMids a)
    (stepped : locking.step a pair = some (next,emitted)) : Between vaapiMids next := by
  obtain ⟨rfl,-⟩ := locking_step stepped
  refine ⟨lockUnlock_held pair a between.held,?_⟩
  intro memId
  rw [lockUnlock_kind,between.kinds]

/-- In every run every Lock and its Unlock are balanced, if and only if every first
call of a Lock to VA is successful. -/
theorem lock_balanced_iff (vaapiMids : Nat → Option VaapiMemId) (pairs : List Pair)
    (final : Allocator) (trace : List Event)
    (ran : locking.run (start vaapiMids) pairs = some (final,trace)) :
    (∀ event ∈ trace, event.Balanced) ↔ ∀ pair ∈ pairs, pair.Begins vaapiMids := by
  rw [← along_iff_trace (Between vaapiMids) (fun _ _ _ _ between => between.step) ?_
    ⟨rfl,fun _ => rfl⟩ ran]
  · exact along_actions ran
  · intro a pair next emitted between stepped
    obtain ⟨-,rfl⟩ := locking_step stepped
    simp [balanced_iff pair a between.held,between.begins]

def nv12Image : VAImage := ⟨7,9,some .nv12,fun _ => 640,fun plane => plane * 307200⟩

def surfaces : Nat → Option VaapiMemId := fun _ => some ⟨some 3,.nv12,nv12Image⟩

def answered (deriveStatus mapStatus : VAStatus) : Pair :=
  ⟨0,⟨0,0,0,0,0⟩,deriveStatus,nv12Image,mapStatus,4096⟩

theorem lock_balanced_unmapped : ∃ final trace,
    locking.run (start surfaces) [answered .success .success,
      answered .success .errorInvalidBuffer] = some (final,trace) ∧
      ∀ event ∈ trace, event.Balanced :=
  ⟨_,_,rfl,(lock_balanced_iff surfaces [answered .success .success,
    answered .success .errorInvalidBuffer] _ _ rfl).mpr
      (by simp [begins_iff,VaapiMemId.kind,surfaces,answered])⟩

/-- The second Lock derives no image, and its Unlock destroys the first one's again. -/
theorem lock_unbalanced : ∃ final trace,
    locking.run (start surfaces) [answered .success .success,
      answered .errorAllocationFailed .success] = some (final,trace) ∧
      trace.map (fun event => event.calls) =
        [[.derived 7,.mapped 9,.unmapped 9,.destroyed 7],[.unmapped 9,.destroyed 7]] ∧
      ¬∀ event ∈ trace, event.Balanced := by
  refine ⟨_,_,rfl,by decide,?_⟩
  intro balanced
  have own := (balanced _ (List.mem_cons_of_mem _ (List.mem_singleton_self _))).own 7
  revert own
  decide

end VideoAnalytics.SurfaceLock
