import VideoAnalytics.Library.EarlyReturn
import VideoAnalytics.Library.Machine
import VideoAnalytics.Dft

/-! gpu_gaussianCorrelation as far as its cached resources go: which of them each
call creates again, with what size, and what the kernels are bound to when they
are enqueued. Whether an operation of the GPU or of the heap succeeds is an
argument of the call. Reading through NULL, through a destroyed buffer or past an
array has no defined effect and ends the process. -/
namespace VideoAnalytics.GaussianCorrelation
open Dft EarlyReturn

/-- The cached surfaces and buffers, but for those of the tables. -/
inductive Surface
  | pOutputSurf_H_F_0
  | pInputSurf0
  | pInputSurf1
  | pOutputSurf_V_F_0
  | pOutputSurf_H_F_1
  | pOutputSurf_V_F_1
  | pMulSpectrumSurf
  | pOutputSurf_H_V_1
  | pOutputSurf_V_V_1
  | pOutputInvSumSurf
  | srcImageSumBuffer
  | pSrcImageSumBufferUp
  | pInputSumSurf
  | pOutputFinalSurf
  deriving DecidableEq, Repr

inductive Axis
  | horizontal
  | vertical
  deriving DecidableEq, Repr

inductive Kernel
  | kernel_H_F_0
  | kernel_V_F_0
  | kernel_H_F_1
  | kernel_V_F_1
  | kernel_MulSpec
  | kernel_H_I
  | kernel_V_I
  | kernel_ImageSum
  | kernelSrcImageSum
  | kernelFinalExp
  deriving DecidableEq, Repr

/-- The three functions that enqueue kernels. -/
inductive Task
  | gaussianCorrelation
  | srcImageSum
  | finalExpImageSum
  deriving DecidableEq, Repr

/-- What a function does with its task apart from kernels and surfaces. -/
inductive Attempt
  | createQueue
  | createTask
  | addKernel
  | waitForTask
  deriving DecidableEq, Repr

structure Sizes where
  usWidth : Nat
  usHeight : Nat
  usPitchX : Nat
  usPitchY : Nat
  usPitchZ : Nat
  deriving DecidableEq, Repr

inductive Extent
  | buffer (bytes : Nat)
  | surface2D (width height : Nat)
  deriving DecidableEq, Repr

/-- The size that a surface is created with. -/
def Sizes.extent (sizes : Sizes) : Surface → Extent
  | .pInputSurf0 | .pInputSurf1 => .surface2D sizes.usWidth sizes.usHeight
  | .pMulSpectrumSurf => .surface2D (sizes.usWidth * 2) sizes.usHeight
  | .pOutputInvSumSurf | .pOutputFinalSurf => .buffer (sizes.usPitchX * sizes.usPitchY * 4)
  | .srcImageSumBuffer | .pSrcImageSumBufferUp => .buffer (sizes.usWidth * 4)
  | .pInputSumSurf => .buffer (8 * 4)
  | _ => .buffer (sizes.usWidth * sizes.usHeight * 4 * 2)

def Sizes.pitch (sizes : Sizes) : Axis → Nat
  | .horizontal => sizes.usPitchX
  | .vertical => sizes.usPitchY

/-- The recorded sizes that a guard compares with those of the call. -/
inductive Key
  | size
  | width
  | pitches
  | nothing
  deriving DecidableEq, Repr

def Key.changed (key : Key) (recorded sizes : Sizes) : Bool :=
  match key with
  | .size => sizes.usWidth ≠ recorded.usWidth || sizes.usHeight ≠ recorded.usHeight
  | .width => sizes.usWidth ≠ recorded.usWidth
  | .pitches => sizes.usPitchX ≠ recorded.usPitchX || sizes.usPitchY ≠ recorded.usPitchY
  | .nothing => false

/-- A block that creates surfaces again: when one of the guarded is NULL or the key
has changed, it destroys the created ones and creates them in order. It returns
when creating the checked one fails. -/
structure Block where
  guarded : List Surface
  created : List Surface
  checked : Surface
  key : Key
  deriving DecidableEq, Repr

def block : Surface → Block
  | .pInputSurf0 | .pInputSurf1 =>
    ⟨[.pInputSurf0,.pInputSurf1],[.pInputSurf0,.pInputSurf1],.pInputSurf1,.size⟩
  | .srcImageSumBuffer | .pSrcImageSumBufferUp =>
    ⟨[.srcImageSumBuffer],[.srcImageSumBuffer,.pSrcImageSumBufferUp],.srcImageSumBuffer,.width⟩
  | .pInputSumSurf => ⟨[.pInputSumSurf],[.pInputSumSurf],.pInputSumSurf,.nothing⟩
  | .pOutputFinalSurf => ⟨[.pOutputFinalSurf],[.pOutputFinalSurf],.pOutputFinalSurf,.pitches⟩
  | surface => ⟨[surface],[surface],surface,.size⟩

/-- The kernels in pKernelArray, which are added to it when they are created. -/
def Kernel.added : Kernel → Bool
  | .kernelSrcImageSum | .kernelFinalExp => false
  | _ => true

/-- Whether the result of CreateKernel is looked at. -/
def Kernel.checked : Kernel → Bool
  | .kernel_MulSpec => false
  | _ => true

/-- The parameters of the DFT in a buffer for the kernels. -/
structure Table (F : Type) where
  wave : List F
  itab : List Nat
  factor : List Nat

/-- The members that are kept between calls; no table means that its buffer is NULL
or not there for the GPU. -/
structure Cache (F : Type) where
  held : Surface → Option Extent
  table : Axis → Option (Table F)
  nf : Axis → Nat
  kernels : Kernel → Bool
  recorded : Sizes

structure Call where
  sizes : Sizes
  creates : Surface → Bool
  writes : Surface → Bool
  mallocs : Axis → Bool
  createsBufferUP : Axis → Bool
  createsKernel : Kernel → Bool
  addsKernel : Kernel → Bool
  createsThreadSpace : Kernel → Bool
  attempts : Task → Attempt → Bool
  enqueues : Task → Bool

inductive Binding (F : Type)
  | surface (name : Surface) (extent : Extent)
  | table (axis : Axis) (table : Table F) (nf : Nat)

/-- The tracker during a call, with the local itab and the arguments that the
kernels of the task have so far. -/
structure Frame (F : Type) where
  cache : Cache F
  itab : Int → Int
  bound : List (Binding F)

/-- What a call does to the cache, with its sizes, and the Enqueue that it reaches. -/
inductive Event (F : Type)
  | destroyed (surface : Surface)
  | created (surface : Surface) (sizes : Sizes)
  | cleared (axis : Axis)
  | filled (axis : Axis) (sizes : Sizes)
  | enqueued (sizes : Sizes) (task : Task) (bound : List (Binding F))
  | recorded (sizes : Sizes)

inductive Stage
  | refresh (surface : Surface)
  | write (surface : Surface)
  | table (axis : Axis)
  | kernel (name : Kernel)
  | bind (kernel : Kernel) (surfaces : List Surface) (axis : Option Axis)
  | attempt (task : Task) (attempt : Attempt)
  | enqueue (task : Task)
  deriving DecidableEq, Repr

section Perform

variable {D F : Type} [FloatType D] (math : Math D F) (call : Call)

def Frame.hold (frame : Frame F) (surface : Surface) (extent : Option Extent) : Frame F :=
  {frame with cache := {frame.cache with
    held := Function.update frame.cache.held surface extent}}

def create (checked : Surface) : List Surface → Frame F → Outcome (Frame F) (Event F)
  | [], frame => proceed frame
  | surface :: rest, frame =>
    if call.creates surface then
      (emit [.created surface call.sizes]
        (frame.hold surface (some (call.sizes.extent surface)))).andThen (create checked rest)
    else if surface = checked then stopped .returned frame
    else create checked rest frame

def guard (cache : Cache F) (sizes : Sizes) (block : Block) : Bool :=
  (block.guarded.any fun surface => (cache.held surface).isNone) ||
    block.key.changed cache.recorded sizes

def refresh (surface : Surface) (frame : Frame F) : Outcome (Frame F) (Event F) :=
  let block := block surface
  if guard frame.cache call.sizes block then
    (emit (block.created.map Event.destroyed)
      (block.created.foldl (fun frame surface => frame.hold surface none) frame)).andThen
      (create call block.checked block.created)
  else proceed frame

/-- The accesses of DFTFactorize, of DFTInit and of the copy to the buffer are
within factor[8], itab[32] and wave[64]. -/
def WithinArrays (pitch : Nat) : Prop :=
  (dftFactorize pitch).length ≤ 8 ∧ pitch ≤ 32 ∧
    (∀ write ∈ itabWrites pitch (dftFactorize pitch), 0 ≤ write.1 ∧ write.1 < 32) ∧
    ∀ write ∈ waveWrites math pitch (dftFactorize pitch), 0 ≤ write.1 ∧ write.1 < 64

instance (pitch : Nat) : Decidable (WithinArrays math pitch) :=
  inferInstanceAs (Decidable (_ ∧ _ ∧ _ ∧ _))

/-- The buffer that is filled from factor, wave and itab. -/
def tableOf (pitch : Nat) (itab : Int → Int) : Table F where
  wave := (List.range 64).map fun (i : Nat) =>
    store (fun _ => math.toFloat (numeral 0)) (waveWrites math pitch (dftFactorize pitch)) i
  itab := (List.range pitch).map fun (i : Nat) => (itab i % 256).toNat
  factor := (List.range 8).map fun i => (dftFactorize pitch).getD i 0

/-- itab before DFTInit: new on the horizontal axis; on the vertical one the call to
memset counts its entries as bytes. -/
def clearItab (axis : Axis) (itab : Int → Int) : Int → Int :=
  match axis with
  | .horizontal => itab
  | .vertical => fun i => if 0 ≤ i ∧ i < 32 / 4 then 0 else itab i

def refreshTable (axis : Axis) (frame : Frame F) : Outcome (Frame F) (Event F) :=
  let pitch := call.sizes.pitch axis
  let cache := frame.cache
  if cache.recorded.pitch axis ≠ pitch then
    if WithinArrays math pitch then
      let factors := dftFactorize pitch
      let itab := store (clearItab axis frame.itab) (itabWrites pitch factors)
      let cleared :=
        {cache with nf := Function.update cache.nf axis factors.length
                    table := Function.update cache.table axis none}
      (emit [.cleared axis] {frame with cache := cleared, itab := itab}).andThen fun frame =>
        if call.mallocs axis then
          if call.createsBufferUP axis then
            emit [.filled axis call.sizes] {frame with cache := {frame.cache with
              table := Function.update frame.cache.table axis (some (tableOf math pitch itab))}}
          else proceed frame
        else stopped .returned frame
    else stopped .undefined frame
  else proceed frame

def refreshKernel (name : Kernel) (frame : Frame F) : Outcome (Frame F) (Event F) :=
  if frame.cache.kernels name then proceed frame
  else if name.checked ∧ ¬call.createsKernel name then stopped .returned frame
  else
    let created := {frame with cache := {frame.cache with
      kernels := Function.update frame.cache.kernels name (call.createsKernel name)}}
    if name.added ∧ ¬call.addsKernel name then stopped .returned created else proceed created

/-- The arguments that a Call_ function sets; the pointers are read for that. -/
def bind (kernel : Kernel) (surfaces : List Surface) (axis : Option Axis) (frame : Frame F) :
    Outcome (Frame F) (Event F) :=
  let cache := frame.cache
  let arguments : Option (List (Binding F)) := do
    let buffers ← surfaces.mapM fun name => (cache.held name).map (Binding.surface name)
    let tables ← axis.toList.mapM fun axis =>
      (cache.table axis).map fun table => Binding.table axis table (cache.nf axis)
    some (buffers ++ tables)
  if ¬cache.kernels kernel ∨ ¬call.createsThreadSpace kernel then stopped .undefined frame
  else
    match arguments with
    | none => stopped .undefined frame
    | some arguments => proceed {frame with bound := frame.bound ++ arguments}

def perform : Stage → Frame F → Outcome (Frame F) (Event F)
  | .refresh surface, frame => refresh call surface frame
  | .write surface, frame =>
    if (frame.cache.held surface).isNone then stopped .undefined frame
    else if call.writes surface then proceed frame
    else stopped .returned frame
  | .table axis, frame => refreshTable math call axis frame
  | .kernel name, frame => refreshKernel call name frame
  | .bind kernel surfaces axis, frame => bind call kernel surfaces axis frame
  | .attempt task attempt, frame =>
    if call.attempts task attempt then proceed frame else stopped .returned frame
  | .enqueue task, frame =>
    (emit [.enqueued call.sizes task frame.bound] frame).andThen fun frame =>
      if call.enqueues task then proceed frame else stopped .returned frame

end Perform

/-- gpu_gaussianCorrelation up to the call of Call_SrcImageSum. -/
def correlationStages : List Stage :=
  [.refresh .pOutputSurf_H_F_0,
   .refresh .pInputSurf0,
   .write .pInputSurf0,
   .write .pInputSurf1,
   .table .horizontal,
   .kernel .kernel_H_F_0,
   .bind .kernel_H_F_0 [.pInputSurf0,.pOutputSurf_H_F_0] (some .horizontal),
   .table .vertical,
   .refresh .pOutputSurf_V_F_0,
   .kernel .kernel_V_F_0,
   .bind .kernel_V_F_0 [.pOutputSurf_H_F_0,.pOutputSurf_V_F_0] (some .vertical),
   .refresh .pOutputSurf_H_F_1,
   .kernel .kernel_H_F_1,
   .bind .kernel_H_F_1 [.pInputSurf1,.pOutputSurf_H_F_1] (some .horizontal),
   .refresh .pOutputSurf_V_F_1,
   .kernel .kernel_V_F_1,
   .bind .kernel_V_F_1 [.pOutputSurf_H_F_1,.pOutputSurf_V_F_1] (some .vertical),
   .refresh .pMulSpectrumSurf,
   .kernel .kernel_MulSpec,
   .bind .kernel_MulSpec [.pOutputSurf_V_F_0,.pOutputSurf_V_F_1,.pMulSpectrumSurf] none,
   .refresh .pOutputSurf_H_V_1,
   .kernel .kernel_H_I,
   .bind .kernel_H_I [.pMulSpectrumSurf,.pOutputSurf_H_V_1] (some .horizontal),
   .refresh .pOutputSurf_V_V_1,
   .kernel .kernel_V_I,
   .bind .kernel_V_I [.pOutputSurf_H_V_1,.pOutputSurf_V_V_1] (some .vertical),
   .refresh .pOutputInvSumSurf,
   .kernel .kernel_ImageSum,
   .bind .kernel_ImageSum [.pOutputSurf_V_V_1,.pOutputInvSumSurf] none,
   .enqueue .gaussianCorrelation,
   .refresh .srcImageSumBuffer]

def srcImageSumStages : List Stage :=
  [.kernel .kernelSrcImageSum,
   .bind .kernelSrcImageSum [.pInputSurf0,.pInputSurf1,.pSrcImageSumBufferUp] none,
   .attempt .srcImageSum .createQueue,
   .attempt .srcImageSum .createTask,
   .attempt .srcImageSum .addKernel,
   .enqueue .srcImageSum,
   .attempt .srcImageSum .waitForTask]

def finalExpStages : List Stage :=
  [.kernel .kernelFinalExp,
   .refresh .pInputSumSurf,
   .write .pInputSumSurf,
   .refresh .pOutputFinalSurf,
   .bind .kernelFinalExp [.pOutputInvSumSurf,.pInputSumSurf,.pOutputFinalSurf] none,
   .attempt .finalExpImageSum .createQueue,
   .attempt .finalExpImageSum .createTask,
   .attempt .finalExpImageSum .addKernel,
   .enqueue .finalExpImageSum,
   .attempt .finalExpImageSum .waitForTask]

def Task.stages : Task → List Stage
  | .gaussianCorrelation => correlationStages
  | .srcImageSum => srcImageSumStages
  | .finalExpImageSum => finalExpStages

section System

variable {D F : Type} [FloatType D] (math : Math D F)

def runTask (call : Call) (task : Task) (frame : Frame F) : Outcome (Frame F) (Event F) :=
  performAll (perform math call) task.stages {frame with bound := []}

/-- What the Call_ functions return is not looked at. -/
def gpuGaussianCorrelation (call : Call) (cache : Cache F) : Outcome (Frame F) (Event F) :=
  (runTask math call .gaussianCorrelation ⟨cache,fun _ => 0,[]⟩).andThen fun frame =>
    (runTask math call .srcImageSum frame).resume.andThen fun frame =>
      (runTask math call .finalExpImageSum frame).resume.andThen fun frame =>
        emit [.recorded call.sizes] {frame with cache := {frame.cache with recorded := call.sizes}}

structure Tracker (F : Type) where
  cache : Cache F
  crashed : Bool

def correlations : Machine.System (Tracker F) Call (Event F) where
  step tracker call :=
    if tracker.crashed then none
    else
      let outcome := gpuGaussianCorrelation math call tracker.cache
      some (⟨outcome.state.cache,outcome.stop = some .undefined⟩,outcome.events)

def start : Tracker F where
  cache :=
    {held := fun _ => none
     table := fun _ => none
     nf := fun _ => 0
     kernels := fun _ => false
     recorded := ⟨0,0,0,0,0⟩}
  crashed := false

end System

end VideoAnalytics.GaussianCorrelation
