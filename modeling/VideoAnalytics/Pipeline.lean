import VideoAnalytics.Detector
import VideoAnalytics.DualPipeAtomic
import Mathlib.Logic.Function.Basic

/-! The threads of main between the decoders and the results: DecodeThreadFunc of
each channel, ScheduleThreadFunc in both of its builds, InferThreadFunc and the
wait of TrackerThreadFunc for a detection. A step is one access to what threads
share, and the threads' memory is sequentially consistent. -/
namespace VideoAnalytics.Pipeline

open Function (update)

/-- Pixels, with the channel and the number written into the buffer with them. -/
structure Picture (Mat : Type) where
  pixels : Mat
  channel : Int
  frameno : Int
  deriving DecidableEq, Repr

instance (Mat : Type) [CvMat Mat] : CvMat (Picture Mat) where
  cols picture := CvMat.cols picture.pixels
  rows picture := CvMat.rows picture.pixels
  depth picture := CvMat.depth picture.pixels
  channels picture := CvMat.channels picture.pixels
  empty := ⟨CvMat.empty,0,0⟩

structure VsourceFrame (Mat : Type) where
  channel : Int
  frameno : Int
  imgbuf : Picture Mat
  deriving DecidableEq, Repr

abbrev Result (Mat : Type) := DetctorResult (Picture Mat)

/-- What the macros, main's call of Initialize and the flag c fix. -/
structure Config where
  testKcf : Bool
  workloadBalance : Bool
  numOfGpuInfer : Nat
  nframe : Nat
  c : Nat
  deriving DecidableEq, Repr

def Config.inputNum (cfg : Config) : Nat := if cfg.testKcf then 1 else 6

def numOfChannels : Nat := 48

def accepts (showing : Bool) (c : Nat) : Bool := !(showing && decide (5 < c))

/-- Where DecodeThreadFunc is, once a frame is ready for inference. -/
inductive DecodePc (Mat : Type)
  | decoding
  | get (pixels : Mat)
  | writeChannel (buffer : Nat) (pixels : Mat)
  | writeFrameno (buffer : Nat) (pixels : Mat)
  | writeImgbuf (buffer : Nat) (pixels : Mat) (frameno : Int)
  | store (buffer : Nat)
  | post
  deriving DecidableEq, Repr

/-- A channel's pipe with the contents of its buffers, and its decoder. A buffer
is its number among the buffers of the pipe. -/
structure Channel (Mat : Type) where
  dpipe : DualPipe.Lists
  buffers : Nat → VsourceFrame Mat
  nFrameProcessed : Int
  decoder : DecodePc Mat

structure InferTask where
  dpipe : Nat
  dbuffer : Nat
  deriving DecidableEq, Repr

inductive Consumer
  | scheduler
  | infer (nChannel : Nat)
  deriving DecidableEq, Repr

/-- Where ScheduleThreadFunc or InferThreadFunc is. The two read the members of
srcframe as arguments of a call, and so in either order. -/
inductive ConsumerPc (Mat : Type)
  | wait
  | scan (dpipe : Nat)
  | route (dpipe buffer : Nat)
  | postInfer (dpipe nInferThreadInstance : Nat)
  | drain
  | createMat (dpipe buffer : Nat)
  | put (dpipe buffer : Nat) (frame : Picture Mat)
  | insert (dpipe buffer : Nat) (frame : Picture Mat) (channel frameno : Option Int)
  | deliver (dpipe : Nat) (objects : List (Result Mat))
  | postResult (dpipe : Nat) (object : Result Mat) (objects : List (Result Mat))
  deriving DecidableEq, Repr

structure World (Mat : Type) where
  channels : Nat → Channel Mat
  consumers : Consumer → ConsumerPc Mat
  objects : List (Result Mat)
  gNewtaskAvaiable : Nat
  gtaskque : Nat → List InferTask
  gsemtInfer : Nat → Nat
  gDetector : Nat → Detector (Picture Mat)
  eachFrame : List Nat
  gDetectResultque : Int → List (Result Mat)
  gDetectResultAvaiable : Int → Nat

inductive Action (Mat : Type)
  | decode (nChannel : Nat) (pixels : Option Mat)
  | decoder (nChannel : Nat)
  | thrFps (nChannel : Nat)
  | consumer (who : Consumer)
  | readChannel (who : Consumer)
  | readFrameno (who : Consumer)
  | insertImage (who : Consumer) (waited : StatusCode)
  | tracker (nChannel : Nat)
  deriving DecidableEq, Repr

inductive Event (Mat : Type)
  | stored (nChannel : Nat) (frame : Picture Mat)
  | inserted (who : Consumer) (frame : Picture Mat) (channel frameno : Int)
  | delivered (objects : List (Result Mat))
  | counted (inputid : Int)
  | pushed (channelid : Int) (object : Result Mat)
  | posted (channelid : Int)
  deriving DecidableEq, Repr

section Steps

variable {Mat : Type}

def Channel.write (channel : Channel Mat) (buffer : Nat)
    (change : VsourceFrame Mat → VsourceFrame Mat) (pc : DecodePc Mat) : Channel Mat :=
  {channel with
    buffers := update channel.buffers buffer (change (channel.buffers buffer))
    decoder := pc}

def World.setChannel (w : World Mat) (nChannel : Nat) (channel : Channel Mat) : World Mat :=
  {w with channels := update w.channels nChannel channel}

/-- sem_post on gNewtaskAvaiable, this many times. -/
def World.post (w : World Mat) (posted : Nat) : World Mat :=
  {w with gNewtaskAvaiable := w.gNewtaskAvaiable + posted}

def World.goto (w : World Mat) (who : Consumer) (pc : ConsumerPc Mat) : World Mat :=
  {w with consumers := update w.consumers who pc}

/-- A frame that DecodeFrameAsync yields, with its pixels if it is for inference. -/
def World.decode (w : World Mat) (nChannel : Nat) (pixels : Option Mat) :
    Option (World Mat × List (Event Mat)) :=
  let channel := w.channels nChannel
  match channel.decoder with
  | .decoding =>
    some (w.setChannel nChannel {channel with
      nFrameProcessed := channel.nFrameProcessed + 1
      decoder := pixels.elim .decoding .get},[])
  | _ => none

def World.decoder (w : World Mat) (nChannel : Nat) : Option (World Mat × List (Event Mat)) :=
  let channel := w.channels nChannel
  match channel.decoder with
  | .decoding => none
  | .get pixels =>
    match channel.dpipe.get with
    | some (buffer,dpipe) =>
      some (w.setChannel nChannel {channel with
        dpipe := dpipe
        decoder := .writeChannel buffer pixels},[])
    | none => none
  | .writeChannel buffer pixels =>
    some (w.setChannel nChannel (channel.write buffer
      (fun srcframe => {srcframe with channel := nChannel}) (.writeFrameno buffer pixels)),[])
  | .writeFrameno buffer pixels =>
    let frameno := channel.nFrameProcessed
    some (w.setChannel nChannel (channel.write buffer
      (fun srcframe => {srcframe with frameno := frameno}) (.writeImgbuf buffer pixels frameno)),[])
  | .writeImgbuf buffer pixels frameno =>
    some (w.setChannel nChannel (channel.write buffer
      (fun srcframe => {srcframe with imgbuf := ⟨pixels,nChannel,frameno⟩}) (.store buffer)),[])
  | .store buffer =>
    some (w.setChannel nChannel {channel with
      dpipe := channel.dpipe.store buffer
      decoder := .post},[.stored nChannel (channel.buffers buffer).imgbuf])
  | .post =>
    some ((w.setChannel nChannel {channel with decoder := .decoding}).post 1,[])

def Consumer.instance : Consumer → Nat
  | .scheduler => 0
  | .infer nChannel => nChannel

def Consumer.resume (dpipe : Nat) : Consumer → ConsumerPc Mat
  | .scheduler => .scan (dpipe + 1)
  | .infer _ => .drain

def World.awake (w : World Mat) (who : Consumer) : Option (World Mat) :=
  match who with
  | .scheduler =>
    if 0 < w.gNewtaskAvaiable then
      some ({w with gNewtaskAvaiable := w.gNewtaskAvaiable - 1}.goto who (.scan 0))
    else none
  | .infer nChannel =>
    if 0 < w.gsemtInfer nChannel then
      let tokens := w.gsemtInfer nChannel - 1
      some ({w with gsemtInfer := update w.gsemtInfer nChannel tokens}.goto who .drain)
    else none

def World.scan (cfg : Config) (w : World Mat) (who : Consumer) (dpipe : Nat) :
    Option (World Mat) :=
  if dpipe < cfg.c then
    let channel := w.channels dpipe
    match channel.dpipe.load with
    | some (buffer,lists) =>
      some ((w.setChannel dpipe {channel with dpipe := lists}).goto who
        (if cfg.workloadBalance then .route dpipe buffer else .createMat dpipe buffer))
    | none => if cfg.workloadBalance then some (w.goto who (.scan (dpipe + 1))) else none
  else some (w.goto who .wait)

/-- The frames of channel 0 go to instance 1, all others to instance 0. -/
def World.route (w : World Mat) (who : Consumer) (dpipe buffer : Nat) : World Mat :=
  let nChannel := ((w.channels dpipe).buffers buffer).channel
  let nInferThreadInstance := if nChannel = 0 then 1 else 0
  let tasks := w.gtaskque nInferThreadInstance ++ [⟨dpipe,buffer⟩]
  {w with gtaskque := update w.gtaskque nInferThreadInstance tasks}.goto who
    (.postInfer dpipe nInferThreadInstance)

def World.postInfer (w : World Mat) (who : Consumer) (dpipe nInferThreadInstance : Nat) :
    World Mat :=
  let tokens := w.gsemtInfer nInferThreadInstance + 1
  {w with gsemtInfer := update w.gsemtInfer nInferThreadInstance tokens}.goto who
    (.scan (dpipe + 1))

def World.drain (w : World Mat) (who : Consumer) : World Mat :=
  match w.gtaskque who.instance with
  | [] => w.goto who .wait
  | task :: rest =>
    {w with gtaskque := update w.gtaskque who.instance rest}.goto who
      (.createMat task.dpipe task.dbuffer)

def World.put (w : World Mat) (who : Consumer) (dpipe buffer : Nat) (frame : Picture Mat) :
    World Mat :=
  let channel := w.channels dpipe
  (w.setChannel dpipe {channel with dpipe := channel.dpipe.put buffer}).goto who
    (.insert dpipe buffer frame none none)

/-- each_frame[inputid] += 1, where the index is one of the array. -/
def addFrame (eachFrame : List Nat) (inputid : Int) : List Nat :=
  if 0 ≤ inputid then eachFrame.modify inputid.toNat (· + 1) else eachFrame

def World.push (w : World Mat) (who : Consumer) (dpipe : Nat) (object : Result Mat)
    (objects : List (Result Mat)) : World Mat :=
  let results := w.gDetectResultque object.channelid ++ [object]
  {w with gDetectResultque := update w.gDetectResultque object.channelid results}.goto who
    (.postResult dpipe object objects)

def World.count (w : World Mat) (who : Consumer) (dpipe : Nat) (object : Result Mat)
    (objects : List (Result Mat)) : World Mat :=
  {w with eachFrame := addFrame w.eachFrame object.inputid}.goto who (.deliver dpipe objects)

def World.deliver (cfg : Config) (w : World Mat) (who : Consumer) (dpipe : Nat) :
    List (Result Mat) → World Mat × List (Event Mat)
  | [] => (w.goto who (who.resume dpipe),[])
  | object :: objects =>
    if who = .scheduler ∧ cfg.testKcf then
      (w.push who dpipe object objects,[.pushed object.channelid object])
    else (w.count who dpipe object objects,[.counted object.inputid])

def World.postResult (w : World Mat) (who : Consumer) (dpipe : Nat) (object : Result Mat)
    (objects : List (Result Mat)) : World Mat :=
  let tokens := w.gDetectResultAvaiable object.channelid + 1
  {w with gDetectResultAvaiable := update w.gDetectResultAvaiable object.channelid tokens}.goto who
    (.deliver dpipe objects)

def World.consumer (cfg : Config) (w : World Mat) (who : Consumer) :
    Option (World Mat × List (Event Mat)) :=
  match w.consumers who with
  | .wait => (w.awake who).map fun next => (next,[])
  | .scan dpipe => (w.scan cfg who dpipe).map fun next => (next,[])
  | .route dpipe buffer => some (w.route who dpipe buffer,[])
  | .postInfer dpipe nInferThreadInstance => some (w.postInfer who dpipe nInferThreadInstance,[])
  | .drain => some (w.drain who,[])
  | .createMat dpipe buffer =>
    some (w.goto who (.put dpipe buffer ((w.channels dpipe).buffers buffer).imgbuf),[])
  | .put dpipe buffer frame => some (w.put who dpipe buffer frame,[])
  | .insert _ _ _ _ _ => none
  | .deliver dpipe objects => some (w.deliver cfg who dpipe objects)
  | .postResult dpipe object objects =>
    some (w.postResult who dpipe object objects,[.posted object.channelid])

def World.readChannel (w : World Mat) (who : Consumer) : Option (World Mat) :=
  match w.consumers who with
  | .insert dpipe buffer frame none frameno =>
    let srcframe := (w.channels dpipe).buffers buffer
    some (w.goto who (.insert dpipe buffer frame (some srcframe.channel) frameno))
  | _ => none

def World.readFrameno (w : World Mat) (who : Consumer) : Option (World Mat) :=
  match w.consumers who with
  | .insert dpipe buffer frame channel none =>
    let srcframe := (w.channels dpipe).buffers buffer
    some (w.goto who (.insert dpipe buffer frame channel (some srcframe.frameno)))
  | _ => none

/-- The vector that a thread passes to InsertImage: the scheduler keeps one. -/
def World.passed (w : World Mat) : Consumer → List (Result Mat)
  | .scheduler => w.objects
  | .infer _ => []

def handled (faceret : InsertImgStatus) (objects : List (Result Mat)) : List (Result Mat) :=
  if faceret = .get ∨ faceret = .processed then objects else []

def World.inserted (w : World Mat) (who : Consumer) (dpipe : Nat)
    (detector : Detector (Picture Mat)) (objects : List (Result Mat))
    (faceret : InsertImgStatus) : World Mat :=
  {w with
    gDetector := update w.gDetector who.instance detector
    objects := if who = Consumer.scheduler then objects else w.objects}.goto who
      (.deliver dpipe (handled faceret objects))

variable [CvMat Mat]

/-- The call of InsertImage, whose channelid is left at its default. -/
def World.insertImage (ie : Nat → InferenceEngine (Picture Mat)) (w : World Mat)
    (who : Consumer) (waited : StatusCode) : Option (World Mat × List (Event Mat)) :=
  match w.consumers who with
  | .insert dpipe _ frame (some channel) (some frameno) =>
    match (w.gDetector who.instance).insertImage (ie who.instance) waited frame (w.passed who)
      channel frameno 0 with
    | .ok (detector,objects,faceret) =>
      some (w.inserted who dpipe detector objects faceret,
        [.inserted who frame channel frameno,.delivered (handled faceret objects)])
    | .error _ => none
  | _ => none

/-- The tracker of a channel takes a result that is announced to it. -/
def World.tracker (w : World Mat) (nChannel : Nat) : World Mat :=
  {w with
    gDetectResultAvaiable := update w.gDetectResultAvaiable nChannel
      (w.gDetectResultAvaiable nChannel - 1)
    gDetectResultque := update w.gDetectResultque nChannel (w.gDetectResultque nChannel).tail}

def Config.runs (cfg : Config) : Consumer → Prop
  | .scheduler => True
  | .infer nChannel => nChannel < cfg.numOfGpuInfer

instance (cfg : Config) (who : Consumer) : Decidable (cfg.runs who) := by
  unfold Config.runs
  cases who with
  | scheduler => exact instDecidableTrue
  | infer nChannel => exact inferInstanceAs (Decidable (nChannel < cfg.numOfGpuInfer))

def pipeline (cfg : Config) (ie : Nat → InferenceEngine (Picture Mat)) :
    Machine.System (World Mat) (Action Mat) (Event Mat) where
  step w
    | .decode nChannel pixels => if nChannel < cfg.c then w.decode nChannel pixels else none
    | .decoder nChannel => if nChannel < cfg.c then w.decoder nChannel else none
    | .thrFps nChannel =>
      if nChannel < cfg.c then
        some (w.setChannel nChannel {w.channels nChannel with nFrameProcessed := 0},[])
      else none
    | .consumer who => if cfg.runs who then w.consumer cfg who else none
    | .readChannel who => (w.readChannel who).map fun next => (next,[])
    | .readFrameno who => (w.readFrameno who).map fun next => (next,[])
    | .insertImage who waited => w.insertImage ie who waited
    | .tracker nChannel =>
      if 0 < w.gDetectResultAvaiable nChannel then some (w.tracker nChannel,[]) else none

def Channel.initial (nframe : Nat) (blank : Mat) : Channel Mat where
  dpipe := ⟨(List.range nframe).reverse,[]⟩
  buffers := fun _ => ⟨0,0,⟨blank,0,0⟩⟩
  nFrameProcessed := 0
  decoder := .decoding

/-- The detectors as main sets them up: loaded, and synchronous for the tracker. -/
def Configured (cfg : Config) (d : Detector (Picture Mat)) : Prop :=
  ∃ env batch loaded, Detector.new.load env batch = .ok (0,loaded) ∧
    d = if cfg.testKcf then loaded.setMode false else loaded

def start (cfg : Config) (detectors : Nat → Detector (Picture Mat)) (blank : Mat) :
    World Mat where
  channels := fun nChannel => Channel.initial (if nChannel < cfg.c then cfg.nframe else 0) blank
  consumers := fun _ => .wait
  objects := []
  gNewtaskAvaiable := 0
  gtaskque := fun _ => []
  gsemtInfer := fun _ => 0
  gDetector := detectors
  eachFrame := List.replicate cfg.inputNum 0
  gDetectResultque := fun _ => []
  gDetectResultAvaiable := fun _ => 0

end Steps

end VideoAnalytics.Pipeline
