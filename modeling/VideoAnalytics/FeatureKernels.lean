import VideoAnalytics.Library.EarlyReturn
import VideoAnalytics.Library.Handles
import VideoAnalytics.Library.Machine
import VideoAnalytics.Tracker

/-! What getFeatureMaps_gpu and refreshKernels keep on the GPU between calls: the sampler,
the output surfaces, a sampler surface for each VA surface, and the arguments of the three
kernels. Whether an operation succeeds is an argument of the call; exit ends the process. -/
namespace VideoAnalytics.FeatureKernels
open EarlyReturn Handles Tracker

inductive Output
  | verify
  | out
  | normal
  | newFeature
  deriving DecidableEq, Repr

inductive Kernel
  | feature
  | process
  | normalizePCA
  deriving DecidableEq, Repr

/-- What the device creates, with what it is created for. -/
inductive Object
  | sampler8x8 (width height : Int)
  | surface2D (output : Output) (width height : Int)
  | vaSurface (vaSurfaceID : Nat)
  | sampler8x8Surface (surface : Nat)
  | threadSpace (width height : Int)
  | event
  deriving DecidableEq, Repr

/-- The entries of the three maps for a VA surface. -/
structure Input where
  surfaceNV12 : Option Nat
  samplerIndex : Option Nat
  surfaceIndex : Option Nat
  deriving DecidableEq, Repr

structure Offsets where
  sx : Rat
  sy : Rat
  deltaU : Rat
  deltaV : Rat
  deriving DecidableEq, Repr

/-- The arguments of the kernels: those that all three share, the surfaces by kernel and
place, and those of featureKernel. The first three are passed as unsigned short. -/
structure Arguments where
  inputWidth : Int
  inputHeight : Int
  outputStride : Int
  threadCount : Int
  surfaces : Kernel → Nat → Option Nat
  offsets : Offsets
  surfaceIndex : Option Nat
  samplerIndex : Option Nat

/-- The members of a tracker; a task is known by the kernels that were added to it. -/
structure Members where
  device : Device Object
  kernels : Bool
  templateWidth : Int
  templateHeight : Int
  sampler8x8 : Option Nat
  outputs : Output → Option Nat
  inputs : List (Nat × Input)
  arguments : Arguments
  threadswidth : Int
  threadsheight : Int
  queue : Bool
  task : Option (List Kernel)
  exited : Bool

structure Call where
  vaSurfaceID : Nat
  extractedRoi : Rect
  origwidth : Int
  origheight : Int
  tempWidth : Int
  tempHeight : Int
  loads : Bool
  allocates : Bool
  setsUpSampler : Bool
  createsOutput : Output → Bool
  renews : Nat → Bool
  createsInput : Bool
  createsSurfaceIndex : Bool
  createsThreadSpace : Bool
  createsQueue : Bool
  createsTask : Bool
  adds : Kernel → Bool
  enqueues : Bool

/-- An Enqueue with what its kernels are bound to and what is live then, and the read of
the result. -/
inductive Event
  | enqueue (call : Call) (task : List Kernel) (arguments : Arguments)
      (threadswidth threadsheight : Int) (live : List (Nat × Object))
  | readSurface (call : Call) (newFeature : Option Nat) (live : List (Nat × Object))

/-- The output surface whose index is an argument of a kernel. -/
def outputArgument : Kernel → Nat → Option Output
  | .feature, 15 => some .out
  | .feature, 16 => some .verify
  | .process, 5 => some .verify
  | .process, 6 => some .out
  | .process, 7 => some .normal
  | .normalizePCA, 5 => some .out
  | .normalizePCA, 6 => some .normal
  | .normalizePCA, 7 => some .newFeature
  | _, _ => none

def sizeofFloat : Int := 4

/-- The surface that refreshKernels creates for the size of a template. -/
def Output.object (output : Output) (width height : Int) : Object :=
  match output with
  | .verify => .surface2D output (width.tdiv 4 * sizeofFloat * 32) (height.tdiv 4 * 9)
  | .out => .surface2D output (width.tdiv 4 * sizeofFloat * 27) (height.tdiv 4)
  | .normal => .surface2D output (width.tdiv 4 * sizeofFloat) (height.tdiv 4)
  | .newFeature => .surface2D output ((width.tdiv 4 - 2) * sizeofFloat * 31) (height.tdiv 4 - 2)

def Call.offsets (call : Call) : Offsets where
  sx := call.extractedRoi.x / call.origwidth
  sy := call.extractedRoi.y / call.origheight
  deltaU := call.extractedRoi.width / (call.tempWidth * call.origwidth)
  deltaV := call.extractedRoi.height / (call.tempHeight * call.origheight)

/-- SetKernelArg with the size of unsigned short takes the low word of an int. -/
def lowWord (value : Int) : Int := value % 65536

abbrev Step := Outcome Members Event

def exit (members : Members) : Step := stopped .returned {members with exited := true}

/-- Sets the entries of a VA surface, in the order of the keys. -/
def setInput (id : Nat) (input : Input) : List (Nat × Input) → List (Nat × Input)
  | [] => [(id,input)]
  | (key,old) :: rest =>
    if id < key then (id,input) :: (key,old) :: rest
    else if id = key then (id,input) :: rest
    else (key,old) :: setInput id input rest

section Call

variable (call : Call)

def load (members : Members) : Step :=
  if members.kernels then proceed members
  else if call.loads then proceed {members with kernels := true}
  else exit members

/-- One of the surfaces of refreshKernels. -/
def refreshOutput (output : Output) (members : Members) : Step :=
  let device := members.device.release (members.outputs output)
  if call.createsOutput output then
    proceed {members with
      device := device.create (output.object call.tempWidth call.tempHeight)
      outputs := Function.update members.outputs output (some device.next)}
  else exit {members with device := device, outputs := Function.update members.outputs output none}

def setArguments (members : Members) : Members :=
  {members with
    threadswidth := call.tempWidth.tdiv 4
    threadsheight := call.tempHeight.tdiv 4
    arguments := {members.arguments with
      inputWidth := lowWord call.tempWidth
      inputHeight := lowWord call.tempHeight
      outputStride := lowWord (call.tempWidth.tdiv 4 * 27)
      threadCount := call.tempWidth.tdiv 4 * call.tempHeight.tdiv 4
      offsets := call.offsets
      surfaces kernel place := (outputArgument kernel place).bind members.outputs}}

/-- getFeatureMaps_gpu does not look at what refreshKernels returns. -/
def refreshKernels (members : Members) : Step :=
  let device := members.device.release members.sampler8x8
  if call.setsUpSampler then
    let members := {members with
      device := device.create (.sampler8x8 call.tempWidth call.tempHeight)
      sampler8x8 := some device.next}
    (performAll (refreshOutput call) [.verify,.out,.normal,.newFeature] members).andThen fun members =>
      proceed (setArguments call members)
  else proceed {members with device := device, sampler8x8 := none}

/-- A pass of the loop over the pool. -/
def renew (id : Nat) (members : Members) : Step :=
  match members.inputs.lookup id with
  | none => proceed members
  | some input =>
    if input.samplerIndex = none then proceed members
    else
      match members.sampler8x8,input.surfaceNV12 with
      | some sampler, some surface =>
        let device := members.device.release input.surfaceIndex
        if call.renews id then
          proceed {members with
            device := device.create (.sampler8x8Surface surface)
            inputs := setInput id ⟨some surface,some sampler,some device.next⟩ members.inputs}
        else stopped .returned {members with device := device}
      | _, _ => stopped .undefined members

/-- The block under the guard on the size of the template. -/
def resize (members : Members) : Step :=
  if call.tempWidth ≠ members.templateWidth ∨ call.tempHeight ≠ members.templateHeight then
    let members := {members with templateWidth := call.tempWidth, templateHeight := call.tempHeight}
    if call.allocates then
      (refreshKernels call members).andThen fun members =>
        performAll (renew call) (members.inputs.map Prod.fst).reverse members
    else stopped .returned members
  else proceed members

/-- Update the input surface. -/
def addInput (members : Members) : Step :=
  let id := call.vaSurfaceID
  let input := (members.inputs.lookup id).getD ⟨none,none,none⟩
  if input.samplerIndex ≠ none then proceed members
  else if call.createsInput then
    let surface := members.device.next
    let device := members.device.create (.vaSurface id)
    let members := {members with
      device := device
      inputs := setInput id {input with surfaceNV12 := some surface} members.inputs}
    match members.sampler8x8 with
    | none => stopped .undefined members
    | some sampler =>
      if call.createsSurfaceIndex then
        proceed {members with
          device := device.create (.sampler8x8Surface surface)
          inputs := setInput id ⟨some surface,some sampler,some device.next⟩ members.inputs}
      else stopped .returned members
  else exit members

/-- Update the kernel. -/
def updateArguments (members : Members) : Members :=
  let input := (members.inputs.lookup call.vaSurfaceID).getD ⟨none,none,none⟩
  {members with arguments := {members.arguments with
    offsets := call.offsets
    surfaceIndex := input.surfaceIndex
    samplerIndex := input.samplerIndex}}

/-- A failed AddSync leaves the task as a failed AddKernel behind it does. -/
def addKernel (kernel : Kernel) (members : Members) : Step :=
  if call.adds kernel then proceed {members with task := members.task.map (· ++ [kernel])}
  else stopped .returned members

def createTask (members : Members) : Step :=
  if members.task = none then
    if call.createsTask then
      performAll (addKernel call) [.feature,.process,.normalizePCA] {members with task := some []}
    else exit members
  else proceed members

def createQueue (members : Members) : Step :=
  if members.queue then proceed members
  else if call.createsQueue then proceed {members with queue := true}
  else stopped .returned members

/-- Enqueue and ReadSurface, in a thread space that is destroyed behind them. -/
def enqueue (threadSpace : Nat) (members : Members) : Step :=
  let enqueued := Event.enqueue call (members.task.getD []) members.arguments members.threadswidth
    members.threadsheight members.device.live
  if call.enqueues then
    let event := members.device.next
    let device := members.device.create .event
    let read := Event.readSurface call (members.outputs .newFeature) device.live
    ⟨{members with device := (device.destroy threadSpace).destroy event},[enqueued,read],none⟩
  else ⟨{members with exited := true},[enqueued],some .returned⟩

def launch (members : Members) : Step :=
  if call.createsThreadSpace then
    let threadSpace := members.device.next
    let members := {members with
      device := members.device.create (.threadSpace members.threadswidth members.threadsheight)}
    (createQueue call members).andThen fun members =>
      (createTask call members).andThen (enqueue call threadSpace)
  else exit members

def getFeatureMapsGpu (members : Members) : Step :=
  (load call members).andThen fun members =>
    (resize call members).andThen fun members =>
      (addInput call members).andThen fun members => launch call (updateArguments call members)

end Call

structure State where
  members : Members
  crashed : Bool

/-- The calls of a tracker, until the process exits or crashes. -/
def calls : Machine.System State Call Event where
  step state call :=
    if state.crashed ∨ state.members.exited then none
    else
      let outcome := getFeatureMapsGpu call state.members
      some (⟨outcome.state,outcome.stop = some .undefined⟩,outcome.events)

def start : State where
  members :=
    {device := ⟨[],0,by simp,by simp⟩
     kernels := false
     templateWidth := -1
     templateHeight := -1
     sampler8x8 := none
     outputs := fun _ => none
     inputs := []
     arguments := ⟨0,0,0,0,fun _ _ => none,⟨0,0,0,0⟩,none,none⟩
     threadswidth := 0
     threadsheight := 0
     queue := false
     task := none
     exited := false}
  crashed := false

end VideoAnalytics.FeatureKernels
