import VideoAnalytics.DecodeLoop
import VideoAnalytics.DualPipeAtomic
import VideoAnalytics.Library.Partition

/-! The decoded surfaces in the TEST_KCF_TRACK_WITH_GPU build. DecodeThreadFunc
passes each to TrackerThreadFunc through dKCFpipe, and the counter Locked keeps
GetFreeSurfaceIndex from choosing it before the tracker is done with it. A step is
one access to what is shared; an update of Locked is one too in the system sharing, and
a load and a store in the system counting. The Media SDK is free in what it does with
its own references and with the surfaces that it was given to decode into. -/
namespace VideoAnalytics.SurfaceSharing

open DecodeLoop (Status Answers Decoder)
open Function (update)

/-- The counter Data.Locked, a mfxU16, and the picture that a read through VA sees. -/
structure Surface where
  locked : Nat
  picture : Nat
  deriving DecidableEq, Repr

structure VsourceFrame where
  bROIRrefresh : Bool
  pmfxSurface : Nat
  deriving DecidableEq, Repr

/-- Where DecodeThreadFunc is in an iteration of its loop. -/
inductive DecodePc
  | next
  | searchDec
  | searchVppIn
  | decodeFrameAsync
  | get
  | lock (buffer : Nat)
  | write (buffer surface : Nat)
  | store (buffer : Nat)
  | post
  | runFrameVPPAsync
  | crashed
  deriving DecidableEq, Repr

inductive TrackerPc
  | wait
  | load
  | track (buffer : Nat)
  | copy (buffer : Nat)
  | unlock (buffer : Nat)
  | put (buffer : Nat)
  deriving DecidableEq, Repr

structure World where
  surfaces : Nat → Surface
  pmfxDecSurfaces : List Nat
  pmfxVppInSurfaces : List (Option Nat)
  decoder : Decoder
  bNeedMore : Bool
  nIndexDec : Nat
  nIndexVppIn : Nat
  pc : DecodePc
  dKCFpipe : DualPipe.Lists
  buffers : Nat → VsourceFrame
  gNewTrackTaskAvaiable : Nat
  tracker : TrackerPc
  sdkReferences : Nat → Nat
  sdkDecodes : Nat → Bool

inductive Action
  | iterate (answers : Answers)
  | decodeThread
  | decodeFrameAsync (answers : Answers) (surfaceOut : Option Nat)
  | runFrameVPPAsync (answers : Answers)
  | trackerThread
  | sdkAcquire (surface : Nat)
  | sdkRelease (surface : Nat)
  | sdkWrite (surface picture : Nat)

inductive Event
  | output (picture : Nat)
  | tracked (picture : Nat) (bROIRrefresh : Bool)
  | shown (picture : Nat)
  deriving DecidableEq, Repr

inductive Search
  | nullRead
  | notFound
  | found (index : Nat)
  deriving DecidableEq, Repr

/-- GetFreeSurfaceIndex from index i on. -/
def getFreeSurfaceIndex (surfaces : Nat → Surface) (i : Nat) : List (Option Nat) → Search
  | [] => .notFound
  | none :: _ => .nullRead
  | some surface :: rest =>
    if (surfaces surface).locked = 0 then .found i else getFreeSurfaceIndex surfaces (i + 1) rest

def World.setLocked (w : World) (surface locked : Nat) : World :=
  {w with surfaces := update w.surfaces surface {w.surfaces surface with locked := locked % 65536}}

/-- Data.Locked += 1 -/
def World.lock (w : World) (surface : Nat) : World :=
  w.setLocked surface ((w.surfaces surface).locked + 1)

/-- Data.Locked -= 1 -/
def World.unlock (w : World) (surface : Nat) : World :=
  w.setLocked surface ((w.surfaces surface).locked + 65535)

def World.setBuffer (w : World) (buffer : Nat) (frame : VsourceFrame) : World :=
  {w with buffers := update w.buffers buffer frame}

/-- The surfaces are chosen anew only in these two states. -/
def World.chooses (w : World) : Bool :=
  w.decoder.sts = .errMoreSurface || w.decoder.sts = .errNone

/-- At its end the file is read again from the start. -/
def readMore (answers : Answers) : Status :=
  if answers.read ≠ .errNone then answers.readAgain else answers.read

/-- The condition of the while loop and the reading of more data. -/
def World.iterate (w : World) (answers : Answers) : Option World :=
  if w.pc ≠ .next ∨ !w.decoder.goesOn then none
  else if !answers.grunning then some {w with decoder := w.decoder.break}
  else if w.decoder.sts = .errMoreData then
    let decoder := {w.decoder with sts := readMore answers}
    if readMore answers ≠ .errNone then some {w with decoder := decoder.break}
    else some {w with decoder := decoder,pc := .searchDec}
  else some {w with pc := .searchDec}

def World.searchDec (w : World) : World :=
  if w.chooses then
    match getFreeSurfaceIndex w.surfaces 0 (w.pmfxDecSurfaces.map some) with
    | .found index => {w with nIndexDec := index,pc := .searchVppIn}
    | .notFound => w
    | .nullRead => {w with pc := .crashed}
  else {w with pc := .searchVppIn}

def World.searchVppIn (w : World) : World :=
  if !w.bNeedMore && w.chooses then
    match getFreeSurfaceIndex w.surfaces 0 w.pmfxVppInSurfaces with
    | .found index => {w with nIndexVppIn := index,pc := .decodeFrameAsync}
    | .notFound => w
    | .nullRead => {w with pc := .crashed}
  else {w with pc := .decodeFrameAsync}

/-- The work surface that DecodeFrameAsync is called with. -/
def World.surfaceWork (w : World) : Option Nat := w.pmfxDecSurfaces[w.nIndexDec]?

def World.surfaceIn (w : World) : Option Nat := w.pmfxVppInSurfaces[w.nIndexVppIn]?.join

/-- A status with an output: none, or a warning with a sync point. -/
def yields (answers : Answers) : Bool :=
  answers.decodeFrameAsync = .errNone ||
    (answers.decodeFrameAsync.isWarning && answers.syncpDec)

/-- The SDK may decode into the work surface from now on, and is done with the one
that it puts out. Without an output it leaves NULL behind. -/
def World.decodeFrameAsync (w : World) (answers : Answers) (surfaceOut : Option Nat) :
    Option (World × List Event) :=
  match w.pc,w.surfaceWork with
  | .decodeFrameAsync,some surfaceWork =>
    let given := {w with
      sdkDecodes := update w.sdkDecodes surfaceWork true
      pmfxVppInSurfaces := w.pmfxVppInSurfaces.set w.nIndexVppIn surfaceOut}
    match yields answers,surfaceOut with
    | true,some surface =>
      some ({given with
        sdkDecodes := update given.sdkDecodes surface false
        bNeedMore := !answers.decodeFrameAsync.isWarning && w.bNeedMore
        decoder := {w.decoder with sts := .errNone,decoded := w.decoder.decoded + 1}
        pc := .get},[.output (w.surfaces surface).picture])
    | false,none =>
      let more := answers.decodeFrameAsync = .errMoreData ||
        answers.decodeFrameAsync = .errMoreSurface
      some ({given with
        bNeedMore := more || w.bNeedMore
        decoder := {w.decoder with sts := answers.decodeFrameAsync}
        pc := .next},[])
    | _,_ => none
  | _,_ => none

def World.lockSurface (w : World) (buffer : Nat) : World :=
  match w.surfaceIn with
  | some surface =>
    let bROIRrefresh := decide (w.decoder.nFrame % 6 = 0)
    {(w.setBuffer buffer {w.buffers buffer with bROIRrefresh := bROIRrefresh}).lock surface with
      pc := .write buffer surface}
  | none => {w with pc := .crashed}

/-- After sem_post a key frame goes to VPP, and any other ends the iteration. -/
def World.post (w : World) : World :=
  let posted := {w with gNewTrackTaskAvaiable := w.gNewTrackTaskAvaiable + 1}
  if w.decoder.nFrame % 6 = 0 then {posted with pc := .runFrameVPPAsync}
  else {posted with decoder := {w.decoder with nFrame := w.decoder.nFrame + 1},pc := .next}

def World.decodeThread (w : World) : Option World :=
  match w.pc with
  | .searchDec => some w.searchDec
  | .searchVppIn => some w.searchVppIn
  | .get =>
    match w.dKCFpipe.get with
    | some (buffer,lists) => some {w with dKCFpipe := lists,pc := .lock buffer}
    | none => none
  | .lock buffer => some (w.lockSurface buffer)
  | .write buffer surface =>
    let frame := {w.buffers buffer with pmfxSurface := surface}
    some {w.setBuffer buffer frame with pc := .store buffer}
  | .store buffer => some {w with dKCFpipe := w.dKCFpipe.store buffer,pc := .post}
  | .post => some w.post
  | _ => none

/-- The calls of the VPP for a key frame, as the loop of statuses has them. -/
def World.runFrameVPPAsync (infer : Int) (w : World) (answers : Answers) : Option World :=
  if w.pc = .runFrameVPPAsync then
    (w.decoder.detect infer answers w.decoder.decoded).map fun (decoder,_) =>
      {w with decoder := decoder,pc := .next}
  else none

/-- The tracker waits once for its semaphore, and then only in Load. -/
def World.trackerThread (w : World) : Option (World × List Event) :=
  match w.tracker with
  | .wait =>
    if 0 < w.gNewTrackTaskAvaiable then
      some ({w with
        gNewTrackTaskAvaiable := w.gNewTrackTaskAvaiable - 1
        tracker := .load},[])
    else none
  | .load =>
    match w.dKCFpipe.load with
    | some (buffer,lists) => some ({w with dKCFpipe := lists,tracker := .track buffer},[])
    | none => none
  | .track buffer =>
    let srcframe := w.buffers buffer
    some ({w with tracker := .copy buffer},
      [.tracked (w.surfaces srcframe.pmfxSurface).picture srcframe.bROIRrefresh])
  | .copy buffer =>
    some ({w with tracker := .unlock buffer},
      [.shown (w.surfaces (w.buffers buffer).pmfxSurface).picture])
  | .unlock buffer =>
    some ({w.unlock (w.buffers buffer).pmfxSurface with tracker := .put buffer},[])
  | .put buffer => some ({w with dKCFpipe := w.dKCFpipe.put buffer,tracker := .load},[])

/-- The SDK counts in Locked what it refers to, never with more than half of the
counter's range, and takes back only its own references. -/
def World.sdkAcquire (w : World) (surface : Nat) : Option World :=
  if w.sdkReferences surface < 32768 then
    some {w.lock surface with
      sdkReferences := update w.sdkReferences surface (w.sdkReferences surface + 1)}
  else none

def World.sdkRelease (w : World) (surface : Nat) : Option World :=
  if 0 < w.sdkReferences surface then
    some {w.unlock surface with
      sdkReferences := update w.sdkReferences surface (w.sdkReferences surface - 1)}
  else none

def World.sdkWrite (w : World) (surface picture : Nat) : Option World :=
  if w.sdkDecodes surface then
    some {w with surfaces := update w.surfaces surface {w.surfaces surface with picture := picture}}
  else none

def sharing (infer : Int) : Machine.System World Action Event where
  step w
    | .iterate answers => (w.iterate answers).map fun next => (next,[])
    | .decodeThread => w.decodeThread.map fun next => (next,[])
    | .decodeFrameAsync answers surfaceOut => w.decodeFrameAsync answers surfaceOut
    | .runFrameVPPAsync answers => (w.runFrameVPPAsync infer answers).map fun next => (next,[])
    | .trackerThread => w.trackerThread
    | .sdkAcquire surface => (w.sdkAcquire surface).map fun next => (next,[])
    | .sdkRelease surface => (w.sdkRelease surface).map fun next => (next,[])
    | .sdkWrite surface picture => (w.sdkWrite surface picture).map fun next => (next,[])

/-- The number of buffers that main asks Initialize for. -/
def numOfBuffers : Nat := 20

/-- The surfaces of the two pools are distinct objects at first, none of them locked. -/
def start (nDecSurfNum nVppInSurfNum : Nat) : World where
  surfaces := fun _ => ⟨0,0⟩
  pmfxDecSurfaces := List.range nDecSurfNum
  pmfxVppInSurfaces := (List.range nVppInSurfNum).map fun i => some (nDecSurfNum + i)
  decoder := DecodeLoop.start
  bNeedMore := false
  nIndexDec := 0
  nIndexVppIn := 0
  pc := .next
  dKCFpipe := ⟨(List.range numOfBuffers).reverse,[]⟩
  buffers := fun _ => ⟨false,0⟩
  gNewTrackTaskAvaiable := 0
  tracker := .wait
  sdkReferences := fun _ => 0
  sdkDecodes := fun _ => false

end VideoAnalytics.SurfaceSharing
