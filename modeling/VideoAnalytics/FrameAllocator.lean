import VideoAnalytics.Library.Machine
import VideoAnalytics.Mfx
import Mathlib.Logic.Function.Basic

/-! The frame allocator that Media SDK sessions call back into, with the two
global maps, the heap blocks behind a response and the VA objects. Pointers are
numbers, zero is NULL, and a pointer to an array element is its block with an
index. What calloc and VA answer to one call is an argument of that call. -/
namespace VideoAnalytics.FrameAllocator

inductive MfxFourcc
  | nv12 | yuy2 | yv12 | rgb4 | rgbp | p8
  | other (code : Nat)
  deriving DecidableEq, Repr

inductive VaFourcc
  | nv12 | yuy2 | yv12 | argb | rgbp | p208
  deriving DecidableEq, Repr

def convertMfxFourccToVAFormat : MfxFourcc → Option VaFourcc
  | .nv12 => some .nv12
  | .yuy2 => some .yuy2
  | .yv12 => some .yv12
  | .rgb4 => some .argb
  | .rgbp => some .rgbp
  | .p8 => some .p208
  -- The assertion of the default case ends the process in the repository's builds. Going on
  -- with zero, as a build with NDEBUG does, only adds histories.
  | .other _ => none

structure FrameInfo where
  fourCC : MfxFourcc
  width : Nat
  height : Nat
  deriving DecidableEq, Repr

/-- The bits of request->Type the allocator tests. -/
structure MemType where
  decoderTarget : Bool
  processorTarget : Bool
  externalFrame : Bool
  fromDecode : Bool
  deriving DecidableEq, Repr

structure FrameAllocRequest where
  info : FrameInfo
  type : MemType
  numFrameSuggested : Nat
  reserved : Nat
  deriving DecidableEq, Repr

structure FrameAllocResponse where
  mids : Nat
  numFrameActual : Nat
  deriving DecidableEq, Repr

structure SharedResponse where
  mfxResponse : FrameAllocResponse
  refCount : Int
  deriving DecidableEq, Repr

structure VaapiMemId where
  surface : Nat × Nat
  fourcc : MfxFourcc
  sysBuffer : Nat
  deriving DecidableEq, Repr

inductive Block
  | surfaces (ids : List Nat)
  | vaapiMids (entries : List VaapiMemId)
  | mids (entries : List (Nat × Nat))
  deriving DecidableEq, Repr

inductive VaObject
  | surface (format : VaFourcc) (width height : Nat)
  | codedBuffer (context : Nat) (size : BitVec 32)
  deriving DecidableEq, Repr

inductive VaEvent
  | createdSurface (id : Nat)
  | destroyedSurface (id : Nat)
  | createdBuffer (id : Nat)
  | destroyedBuffer (id : Nat)
  deriving DecidableEq, Repr

structure Allocator where
  heap : Nat → Option Block
  va : Nat → Option VaObject
  allocResponses : Nat → Option Nat
  allocDecodeResponses : Nat → Option SharedResponse

/-- The answers of calloc and VA during one call of `_simple_alloc`. -/
structure AllocEnv where
  surfaces : Nat
  vaapiMids : Nat
  mids : Nat
  ids : List Nat
  surfaceStatus : VAStatus
  bufferStatus : Nat → VAStatus

/-- The product is one of int, which wraps around. -/
def codedbufSize (info : FrameInfo) : BitVec 32 :=
  (BitVec.ofNat 32 info.width * BitVec.ofNat 32 info.height * 400).sdiv (16 * 16)

/-- What `_simple_alloc` asks VA to create for a frame description. -/
def creation (context : Nat) (info : FrameInfo) : Option VaObject :=
  (convertMfxFourccToVAFormat info.fourCC).map fun format =>
    if format = .p208 then .codedBuffer context (codedbufSize info)
    else .surface format info.width info.height

def Allocator.vaCreate (a : Allocator) (object : VaObject) (ids : List Nat) : Allocator :=
  {a with va := fun id => if id ∈ ids then some object else a.va id}

def Allocator.vaDestroy (a : Allocator) (ids : List Nat) : Allocator :=
  {a with va := fun id => if id ∈ ids then none else a.va id}

def Allocator.free (a : Allocator) (pointer : Nat) : Allocator :=
  {a with heap := Function.update a.heap pointer none}

def Allocator.store (a : Allocator) (env : AllocEnv) (fourcc : MfxFourcc) (surfacesNum : Nat) :
    Allocator :=
  let surfaces := Block.surfaces env.ids
  let vaapiMids := Block.vaapiMids ((List.range surfacesNum).map fun i => ⟨(env.surfaces,i),fourcc,0⟩)
  let mids := Block.mids ((List.range surfacesNum).map fun i => (env.vaapiMids,i))
  {a with heap := Function.update (Function.update (Function.update a.heap
    env.surfaces (some surfaces)) env.vaapiMids (some vaapiMids)) env.mids (some mids)}

/-- The loop of vaCreateBuffer calls: its status and numAllocated. -/
def createBuffers (bufferStatus : Nat → VAStatus) (surfacesNum : Nat) : Nat → MfxStatus × Nat
  | 0 => (.errNone,surfacesNum)
  | remaining + 1 =>
    let numAllocated := surfacesNum - (remaining + 1)
    let mfxRes := vaToMfxStatus (bufferStatus numAllocated)
    if mfxRes ≠ .errNone then (mfxRes,numAllocated)
    else createBuffers bufferStatus surfacesNum remaining

def _simpleAlloc (env : AllocEnv) (request : FrameAllocRequest) (a : Allocator) :
    MfxStatus × FrameAllocResponse × Allocator × List VaEvent :=
  let fourcc := request.info.fourCC
  let surfacesNum := request.numFrameSuggested
  match convertMfxFourccToVAFormat fourcc with
  | none => (.errMemoryAlloc,⟨0,0⟩,a,[])
  | some vaFourcc =>
    if surfacesNum = 0 then (.errMemoryAlloc,⟨0,0⟩,a,[])
    -- A block that could be allocated is freed again when another could not.
    else if env.surfaces = 0 ∨ env.vaapiMids = 0 ∨ env.mids = 0 then
      (.errMemoryAlloc,⟨0,0⟩,a,[])
    else if vaFourcc ≠ .p208 then
      let mfxRes := vaToMfxStatus env.surfaceStatus
      if mfxRes = .errNone then
        let created := a.vaCreate (.surface vaFourcc request.info.width request.info.height) env.ids
        (mfxRes,⟨env.mids,surfacesNum⟩,created.store env fourcc surfacesNum,
          env.ids.map .createdSurface)
      -- Nothing is left to destroy here: bCreateSrfSucceeded says that mfx_res is no error.
      else (mfxRes,⟨0,0⟩,a,[])
    else
      let (mfxRes,numAllocated) := createBuffers env.bufferStatus surfacesNum surfacesNum
      let made := env.ids.take numAllocated
      let created := a.vaCreate (.codedBuffer request.reserved (codedbufSize request.info)) made
      if mfxRes = .errNone then
        (mfxRes,⟨env.mids,surfacesNum⟩,created.store env fourcc surfacesNum,
          made.map .createdBuffer)
      else
        (mfxRes,⟨0,0⟩,created.vaDestroy made,
          made.map .createdBuffer ++ made.map .destroyedBuffer)

/-- operator[] of the map: an absent session gets a zeroed entry. -/
def Allocator.shared (a : Allocator) (pthis : Nat) : SharedResponse :=
  (a.allocDecodeResponses pthis).getD ⟨⟨0,0⟩,0⟩

def Allocator.setShared (a : Allocator) (pthis : Nat) (entry : SharedResponse) : Allocator :=
  {a with allocDecodeResponses := Function.update a.allocDecodeResponses pthis (some entry)}

def Allocator.eraseShared (a : Allocator) (pthis : Nat) : Allocator :=
  {a with allocDecodeResponses := Function.update a.allocDecodeResponses pthis none}

def Allocator.setOwner (a : Allocator) (mids : Nat) (owner : Option Nat) : Allocator :=
  {a with allocResponses := Function.update a.allocResponses mids owner}

def MemType.decode (type : MemType) : Bool := type.externalFrame && type.fromDecode

/-- The test for a response that was saved during the manual allocation stage. -/
def reuses (request : FrameAllocRequest) (saved : FrameAllocResponse) : Bool :=
  request.numFrameSuggested ≤ saved.numFrameActual && request.type.decode &&
    saved.numFrameActual ≠ 0

def simpleAlloc (env : AllocEnv) (pthis : Nat) (request : Option FrameAllocRequest)
    (response : Option FrameAllocResponse) (a : Allocator) :
    MfxStatus × Option FrameAllocResponse × Allocator × List VaEvent :=
  match request, response with
  | some request, some _ =>
    if request.numFrameSuggested = 0 then (.errMemoryAlloc,response,a,[])
    else if !(request.type.decoderTarget || request.type.processorTarget) then
      (.errUnsupported,response,a,[])
    else
      let touched := a.setShared pthis (a.shared pthis)
      let saved := touched.shared pthis
      if reuses request saved.mfxResponse then
        (.errNone,some saved.mfxResponse,
          touched.setShared pthis {saved with refCount := saved.refCount + 1},[])
      else
        let (sts,made,b,events) := _simpleAlloc env request touched
        if sts = .errNone then
          if request.type.decode then
            (sts,some made,b.setShared pthis ⟨made,(b.shared pthis).refCount + 1⟩,events)
          else (sts,some made,b.setOwner made.mids (some pthis),events)
        else (sts,some made,b,events)
  | _, _ => (.errMemoryAlloc,response,a,[])

def Allocator.midsAt (a : Allocator) (pointer : Nat) : List (Nat × Nat) :=
  match a.heap pointer with
  | some (.mids entries) => entries
  | _ => []

def Allocator.vaapiMidsAt (a : Allocator) (pointer : Nat) : List VaapiMemId :=
  match a.heap pointer with
  | some (.vaapiMids entries) => entries
  | _ => []

def Allocator.surfacesAt (a : Allocator) (pointer : Nat) : List Nat :=
  match a.heap pointer with
  | some (.surfaces ids) => ids
  | _ => []

/-- The part of `_simple_free` under actualFreeMemory. -/
def actualFree (response : FrameAllocResponse) (a : Allocator) :
    FrameAllocResponse × Allocator × List VaEvent :=
  match a.midsAt response.mids with
  | (vaapiMids,_) :: _ =>
    match a.vaapiMidsAt vaapiMids with
    | first :: rest =>
      let surfaces := first.surface.1
      let ids := (a.surfacesAt surfaces).take response.numFrameActual
      let frames := ids.zip (first :: rest)
      let buffers := (frames.filter fun frame => frame.2.fourcc = .p8).map (·.1)
      let sysBuffers := (frames.filter fun frame => frame.2.fourcc ≠ .p8 && frame.2.sysBuffer ≠ 0).map
        (·.2.sysBuffer)
      let freed := ((sysBuffers.foldl Allocator.free (a.vaDestroy buffers)).free vaapiMids).free
        response.mids
      if first.fourcc = .p8 then
        (⟨0,0⟩,freed.free surfaces,buffers.map .destroyedBuffer)
      else (⟨0,0⟩,(freed.vaDestroy ids).free surfaces,
        buffers.map .destroyedBuffer ++ ids.map .destroyedSurface)
    | [] => (⟨0,0⟩,a,[])
  -- No block is found behind mids if it is NULL.
  | [] => (⟨0,0⟩,a,[])

def _simpleFree (pthis : Nat) (response : FrameAllocResponse) (a : Allocator) :
    FrameAllocResponse × Allocator × List VaEvent :=
  let touched := a.setShared pthis (a.shared pthis)
  let saved := touched.shared pthis
  if response = saved.mfxResponse then
    let counted := touched.setShared pthis {saved with refCount := saved.refCount - 1}
    if (counted.shared pthis).refCount = 0 then actualFree response counted
    else (response,counted,[])
  else (response,touched,[])

def simpleFree (pthis : Nat) (response : Option FrameAllocResponse) (a : Allocator) :
    MfxStatus × Option FrameAllocResponse × Allocator × List VaEvent :=
  match response with
  | none => (.errNullPtr,none,a,[])
  | some response =>
    if a.allocResponses response.mids = none then
      let saved := a.shared pthis
      let counted := a.setShared pthis {saved with refCount := saved.refCount - 1}
      if (counted.shared pthis).refCount = 0 then
        let (left,b,events) := _simpleFree pthis response counted
        (.errNone,some left,b.eraseShared pthis,events)
      else (.errNone,some response,counted,[])
    else
      let (left,b,events) := _simpleFree pthis response (a.setOwner response.mids none)
      (.errNone,some left,b,events)

/-- A returned response that has not been passed to simple_free yet. -/
structure LiveResponse where
  pthis : Nat
  response : FrameAllocResponse
  decode : Bool
  deriving DecidableEq, Repr

/-- The allocator with its users: the responses they hold and, for each
session, the description of the decode request that made the saved response. -/
structure Client where
  allocator : Allocator
  live : List LiveResponse
  savedInfo : Nat → Option FrameInfo

inductive Call
  | alloc (env : AllocEnv) (pthis : Nat) (request : Option FrameAllocRequest)
      (response : Option FrameAllocResponse)
  | free (pthis : Nat) (response : Option FrameAllocResponse)

/-- calloc returns NULL or a block not in use, and VA numbers its objects apart. -/
def AllocEnv.Fresh (env : AllocEnv) (a : Allocator) (surfacesNum : Nat) : Prop :=
  (env.surfaces ≠ 0 → (a.heap env.surfaces).isNone ∧ env.surfaces ≠ env.vaapiMids ∧
    env.surfaces ≠ env.mids) ∧
  (env.vaapiMids ≠ 0 → (a.heap env.vaapiMids).isNone ∧ env.vaapiMids ≠ env.mids) ∧
  (env.mids ≠ 0 → (a.heap env.mids).isNone) ∧
  env.ids.length = surfacesNum ∧ ∀ id ∈ env.ids, (a.va id).isNone

instance (env : AllocEnv) (a : Allocator) (surfacesNum : Nat) :
    Decidable (env.Fresh a surfacesNum) := by
  unfold AllocEnv.Fresh
  infer_instance

def Client.alloc (client : Client) (env : AllocEnv) (pthis : Nat) (request : FrameAllocRequest)
    (response : Option FrameAllocResponse) : Client × List VaEvent :=
  let reused := reuses request (client.allocator.shared pthis).mfxResponse
  let (sts,response,allocator,events) :=
    simpleAlloc env pthis (some request) response client.allocator
  let decode := request.type.decode
  match sts, response with
  | .errNone, some response =>
    ({allocator := allocator
      live := ⟨pthis,response,decode⟩ :: client.live
      savedInfo := if decode && !reused then
          Function.update client.savedInfo pthis (some request.info)
        else client.savedInfo},events)
  | _, _ => ({client with allocator := allocator},events)

def Client.free (client : Client) (pthis : Nat) (response : Option FrameAllocResponse) :
    Client × List VaEvent :=
  let (_,_,allocator,events) := simpleFree pthis response client.allocator
  ({allocator := allocator
    live := client.live.eraseP fun entry => entry.pthis = pthis && some entry.response = response
    savedInfo := if allocator.allocDecodeResponses pthis = none then
        Function.update client.savedInfo pthis none
      else client.savedInfo},events)

def clients : Machine.System Client Call VaEvent where
  step client
    | .alloc env pthis (some request) response =>
      if env.Fresh client.allocator request.numFrameSuggested then
        some (client.alloc env pthis request response)
      else none
    | .alloc _ _ none _ => some (client,[])
    | .free pthis response => some (client.free pthis response)

def start : Client where
  allocator := ⟨fun _ => none,fun _ => none,fun _ => none,fun _ => none⟩
  live := []
  savedInfo := fun _ => none

end VideoAnalytics.FrameAllocator
