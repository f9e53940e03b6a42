import VideoAnalytics.Library.Machine
import VideoAnalytics.Library.BinaryFormat

/-! The Detector: images are split into the slots of an input blob, their
metadata waits in a queue, and a full blob is inferred by one of two requests.
Inference Engine is a parameter, and what Wait answers is an argument of the
call. A float is the rational number it stands for, and its operators round. -/
namespace VideoAnalytics

/-- What InsertImage and cv::split look at in a cv::Mat. -/
class CvMat (Mat : Type) where
  cols : Mat → Int
  rows : Mat → Int
  depth : Mat → Nat
  channels : Mat → Nat
  empty : Mat

structure Size where
  width : Int
  height : Int
  deriving DecidableEq, Repr

def CV_8U : Nat := 0

/-- The planes of the image are of the size and type of the slot's, so that
cv::split writes them there. -/
def InFormat {Mat : Type} [CvMat Mat] (geometry : Size) (channels : Nat) (orgimg : Mat) : Prop :=
  CvMat.cols orgimg = geometry.width ∧ CvMat.rows orgimg = geometry.height ∧
    CvMat.depth orgimg = CV_8U ∧ CvMat.channels orgimg = channels

instance {Mat : Type} [CvMat Mat] (geometry : Size) (channels : Nat) (orgimg : Mat) :
    Decidable (InFormat geometry channels orgimg) :=
  inferInstanceAs (Decidable (_ ∧ _))

structure ImageInfo (Mat : Type) where
  isize : Size
  inputid : Int
  frameno : Int
  channelid : Int
  orgimg : Mat
  deriving DecidableEq, Repr

structure Resultbox where
  classid : Int
  confidence : Rat
  left : Int
  right : Int
  top : Int
  bottom : Int
  deriving DecidableEq, Repr

structure DetctorResult (Mat : Type) where
  boxs : List Resultbox
  orgimg : Mat
  imgsize : Size
  inputid : Int
  frameno : Int
  channelid : Int
  deriving DecidableEq, Repr

inductive InsertImgStatus
  | null | inserted | processed | get
  deriving DecidableEq, Repr

inductive StatusCode
  | ok
  | error (code : Int)
  deriving DecidableEq, Repr

inductive Fault
  | logicError (message : String)
  | objectIndex (imgid : Int)
  deriving DecidableEq, Repr

/-- The slots of an input blob with the image last split into each, and none where
it is not known what a slot has. -/
abbrev Blob (Mat : Type) := List (Option Mat)

/-- The outputs of a network and the answer of Wait on a request never started. -/
structure InferenceEngine (Mat : Type) where
  infer : Blob Mat → Nat → Rat
  notStarted : StatusCode

structure InferRequest (Mat : Type) where
  input : Blob Mat
  started : Option (Blob Mat)
  deriving DecidableEq, Repr

inductive RequestId
  | first | second
  deriving DecidableEq, Repr

structure Detector (Mat : Type) where
  inputChannels : Option RequestId
  inputGeometry : Size
  imginfoque : List (ImageInfo Mat)
  nbatchIndex : Nat
  numChannels : Nat
  numBatch : Nat
  maxProposalCount : Nat
  objectSize : Nat
  bisASync : Bool
  bLoad : Bool
  requests : RequestId → InferRequest Mat
  inferRequestCurr : RequestId
  inferRequestNext : RequestId

section Model

variable {Mat : Type}

def Detector.new : Detector Mat where
  inputChannels := none
  inputGeometry := ⟨0,0⟩
  imginfoque := []
  nbatchIndex := 0
  numChannels := 0
  numBatch := 0
  maxProposalCount := 0
  objectSize := 0
  bisASync := false
  bLoad := false
  requests := fun _ => ⟨[],none⟩
  inferRequestCurr := .first
  inferRequestNext := .second

/-- What the plugin, the model files and the device answer to Load. -/
structure LoadEnv where
  pluginFound : Bool
  networkRead : Bool
  outputDims : List Nat
  networkLoaded : Bool
  inputDims : List Nat

def Detector.load (env : LoadEnv) (bn : Nat) (d : Detector Mat) : Except Fault (Int × Detector Mat) :=
  if d.bLoad then .ok (0,d)
  else if !env.pluginFound || !env.networkRead then .ok (-1,d)
  else
    let sized := {d with
      numBatch := bn
      maxProposalCount := env.outputDims.getD 2 0
      objectSize := env.outputDims.getD 3 0}
    if sized.objectSize ≠ 7 then .error (.logicError "  Output should have 7 as a last dimension")
    else if env.outputDims.length ≠ 4 then
      .error (.logicError "  Incorrect output dimensions for SSD")
    else if !env.networkLoaded then .ok (-1,sized)
    else
      let numChannels := env.inputDims.getD 2 0
      if !(numChannels == 3 || numChannels == 1) then
        .error (.logicError "Input layer should have 1 or 3 channels")
      else .ok (0,{sized with
        numChannels := numChannels
        inputGeometry := ⟨env.inputDims.getD 0 0,env.inputDims.getD 1 0⟩
        requests := fun _ => ⟨List.replicate bn none,none⟩
        inferRequestCurr := .first
        inferRequestNext := .second
        nbatchIndex := 0
        bisASync := true
        bLoad := true})

/-- bisASync ? infer_request_next_ : infer_request_curr_ -/
def Detector.target (d : Detector Mat) : RequestId :=
  if d.bisASync then d.inferRequestNext else d.inferRequestCurr

def Detector.setRequest (d : Detector Mat) (id : RequestId) (request : InferRequest Mat) :
    Detector Mat :=
  {d with requests := fun other => if other = id then request else d.requests other}

def Detector.wrapInputLayer (d : Detector Mat) (id : RequestId) : Detector Mat :=
  {d with inputChannels := some id}

def Detector.push (d : Detector Mat) (is : ImageInfo Mat) : Detector Mat :=
  {d with imginfoque := d.imginfoque ++ [is]}

def Detector.startAsync (d : Detector Mat) (id : RequestId) : Detector Mat :=
  d.setRequest id {d.requests id with started := some (d.requests id).input}

def InferRequest.wait (ie : InferenceEngine Mat) (answer : StatusCode) (request : InferRequest Mat) :
    StatusCode :=
  if request.started.isSome then answer else ie.notStarted

/-- The output memory of a request holds what its last start computes. -/
def InferRequest.output (ie : InferenceEngine Mat) (request : InferRequest Mat) : Nat → Rat :=
  ie.infer (request.started.getD [])

/-- The loop that pops the metadata of one batch into the results. -/
def popInfos : List (DetctorResult Mat) → List (ImageInfo Mat) →
    Except Fault (List (DetctorResult Mat) × List (ImageInfo Mat))
  | [], queue => .ok ([],queue)
  | object :: objects, front :: queue => do
    let (filled,left) ← popInfos objects queue
    .ok ({object with
      imgsize := front.isize
      inputid := front.inputid
      orgimg := front.orgimg
      frameno := front.frameno
      channelid := front.channelid
      boxs := []} :: filled,left)
  | _ :: _, [] => .error (.logicError "InsertImage queue fail")

def toFloat (value : Rat) : Rat := BinaryFormat.binary32.round value

/-- A float times an int, which is converted first. -/
def floatTimes (value : Rat) (factor : Int) : Rat := toFloat (value * toFloat factor)

def InIntRange (value : Int) : Prop := -2147483648 ≤ value ∧ value ≤ 2147483647

instance (value : Int) : Decidable (InIntRange value) :=
  inferInstanceAs (Decidable (_ ∧ _))

def truncate (value : Rat) : Int := value.num.tdiv value.den

theorem truncate_intCast (value : Int) : truncate (value : Rat) = value := by
  simp [truncate]

/-- The conversion of a float to int. C++ defines no value where an int cannot
have the truncated one. -/
structure IntConversion where
  toInt : Rat → Int
  truncates : ∀ value, InIntRange (truncate value) → toInt value = truncate value

/-- The conversion of the processors that the code is built for, which answers the
least int beyond the range. -/
def cvttss2si : IntConversion where
  toInt value := if InIntRange (truncate value) then truncate value else -2147483648
  truncates _ within := if_pos within

def floatToInt (value : Rat) : Int := cvttss2si.toInt value

def convertedBox (conversion : IntConversion) (output : Nat → Rat) (result : Nat)
    (imgsize : Size) : Resultbox :=
  let w := imgsize.width
  let h := imgsize.height
  let left := conversion.toInt (floatTimes (output (result + 3)) w)
  let top := conversion.toInt (floatTimes (output (result + 4)) h)
  let right := conversion.toInt (floatTimes (output (result + 5)) w)
  let bottom := conversion.toInt (floatTimes (output (result + 6)) h)
  {classid := conversion.toInt (output (result + 1))
   confidence := output (result + 2)
   left := if left < 0 then 0 else left
   top := if top < 0 then 0 else top
   right := if right ≥ w then w - 1 else right
   bottom := if bottom ≥ h then h - 1 else bottom}

/-- The box that the record loop makes of a record. -/
def resultboxOf (output : Nat → Rat) (result : Nat) (imgsize : Size) : Resultbox :=
  convertedBox cvttss2si output result imgsize

/-- The loop over the records of the output. -/
def recordLoop (output : Nat → Rat) (objectSize numBatch : Nat) :
    Nat → Nat → List (DetctorResult Mat) → InsertImgStatus →
      Except Fault (List (DetctorResult Mat) × InsertImgStatus)
  | 0, _, objects, retvalue => .ok (objects,retvalue)
  | remaining + 1, result, objects, retvalue =>
    let imgid := floatToInt (output result)
    if imgid < 0 ∨ output (result + 2) = 0 ∨ imgid > numBatch then .ok (objects,retvalue)
    else
      match objects[imgid.toNat]? with
      | some object =>
        let box := resultboxOf output result object.imgsize
        recordLoop output objectSize numBatch remaining (result + objectSize)
          (objects.set imgid.toNat {object with boxs := object.boxs ++ [box]}) .get
      | none => .error (.objectIndex imgid)

variable [CvMat Mat]

/-- Of another image the planes go elsewhere, or into other slots as well. -/
def Detector.split (d : Detector Mat) (orgimg : Mat) : Detector Mat :=
  match d.inputChannels with
  | some id =>
    let input := (d.requests id).input
    d.setRequest id {d.requests id with
      input := if InFormat d.inputGeometry d.numChannels orgimg then
          input.set d.nbatchIndex (some orgimg)
        else input.map fun _ => none}
  | none => d

def Detector.fill (d : Detector Mat) (is : ImageInfo Mat) : Detector Mat :=
  let wrapped := if d.nbatchIndex = 0 then d.wrapInputLayer d.target else d
  (wrapped.push is).split is.orgimg

def DetctorResult.fresh : DetctorResult Mat := ⟨[],CvMat.empty,⟨0,0⟩,0,0,0⟩

def resize (objects : List (DetctorResult Mat)) (numBatch : Nat) : List (DetctorResult Mat) :=
  objects.take numBatch ++ List.replicate (numBatch - objects.length) DetctorResult.fresh

/-- The part of InsertImage after Wait on the current request. -/
def Detector.collect (ie : InferenceEngine Mat) (waited : StatusCode)
    (objects : List (DetctorResult Mat)) (d : Detector Mat) :
    Except Fault (Detector Mat × List (DetctorResult Mat) × InsertImgStatus) :=
  let request := d.requests d.inferRequestCurr
  if request.wait ie waited = .ok then do
    let (filled,queue) ← popInfos (resize objects d.numBatch) d.imginfoque
    let (objects,retvalue) ←
      recordLoop (request.output ie) d.objectSize d.numBatch d.maxProposalCount 0 filled .processed
    .ok ({d with imginfoque := queue},objects,retvalue)
  else .ok (d,objects,.inserted)

def Detector.swap (d : Detector Mat) : Detector Mat :=
  if d.bisASync then
    {d with inferRequestCurr := d.inferRequestNext, inferRequestNext := d.inferRequestCurr}
  else d

/-- A full blob: the batch index starts anew and the target request is started. -/
def Detector.startFull (d : Detector Mat) : Detector Mat :=
  {d with nbatchIndex := 0}.startAsync d.target

def Detector.insertImage (ie : InferenceEngine Mat) (waited : StatusCode) (orgimg : Mat)
    (objects : List (DetctorResult Mat)) (inputid frameno channelid : Int) (d : Detector Mat) :
    Except Fault (Detector Mat × List (DetctorResult Mat) × InsertImgStatus) :=
  if CvMat.cols orgimg = 0 ∨ CvMat.rows orgimg = 0 ∨ !d.bLoad then .ok (d,objects,.null)
  else
    let isize : Size := ⟨CvMat.cols orgimg,CvMat.rows orgimg⟩
    let filled := d.fill ⟨isize,inputid,frameno,channelid,orgimg⟩
    if filled.nbatchIndex + 1 ≥ filled.numBatch then do
      let (collected,objects,retvalue) ← filled.startFull.collect ie waited objects
      .ok (collected.swap,objects,retvalue)
    else .ok ({filled with nbatchIndex := filled.nbatchIndex + 1},objects,.inserted)

/-- SetMode: both requests are waited for, and the answers are not looked at. -/
def Detector.setMode (isSync : Bool) (d : Detector Mat) : Detector Mat :=
  {d with imginfoque := [], nbatchIndex := 0, bisASync := isSync}

end Model

end VideoAnalytics
