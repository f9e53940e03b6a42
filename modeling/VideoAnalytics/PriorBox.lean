import VideoAnalytics.ExtLayer

/-! The PriorBox layer of the CPU extension: the constructor's aspect ratios and number
of priors, and execute with its coordinates, the clipping and the variances. The
addresses that its loops write are recorded. -/
namespace VideoAnalytics.PriorBox
open Loop Memory

variable {F : Type}

structure Params (F : Type) where
  offset : F
  step : F
  minSize : List F
  maxSize : List F
  flip : Bool
  clip : Bool
  aspectRatio : List F
  variance : List F

structure Impl (F : Type) where
  offset : F
  step : F
  minSizes : List F
  maxSizes : List F
  clip : Bool
  aspectRatios : List F
  variance : List F
  numPriors : Nat
  deriving DecidableEq

/-- The square root, two constants and the comparisons of fabs with 1e-6, in doubles. -/
structure Math (F : Type) [FloatType F] where
  sqrt : F → F
  million : F
  tenth : F
  tiny : F → Bool
  beyond : F → Bool
  self_tiny : tiny (((1 : Int) : F) - ((1 : Int) : F)) = true

structure Result (F : Type) where
  dst : Memory F
  coordinates : List Nat
  clipped : List Nat
  variances : List Nat

section Constructor

variable [FloatType F] (math : Math F)

def flipped (aspectRatio : F) : F :=
  if math.beyond aspectRatio then ((1 : Int) : F) / aspectRatio else math.million

def addRatio (flip : Bool) (aspectRatios : List F) (aspectRatio : F) : List F :=
  if aspectRatios.any fun other => math.tiny (aspectRatio - other) then aspectRatios
  else if flip then aspectRatios ++ [aspectRatio] ++ [flipped math aspectRatio]
  else aspectRatios ++ [aspectRatio]

def aspectRatiosOf (flip : Bool) (aspectRatio : List F) : List F :=
  aspectRatio.foldl (addRatio math flip) [((1 : Int) : F)]

def varianceOf (variance : List F) : Except String (List F) :=
  if variance.length = 1 ∨ variance.length = 4 then
    if variance.any fun i => i < ((0 : Int) : F) then .error "Variance must be > 0."
    else .ok variance
  else if variance.isEmpty then .ok [math.tenth]
  else .error "Wrong number of variance values. Not less than 1 and more than 4 variance values."

def PriorBoxImpl (insData outData : Nat) (params : Params F) : Except String (Impl F) := do
  if insData ≠ 2 ∨ outData = 0 then .error "Incorrect number of input/output edges!"
  else
    let aspectRatios := aspectRatiosOf math params.flip params.aspectRatio
    let numPriors := forLoop params.maxSize.length (fun _ numPriors => numPriors + 1)
      (aspectRatios.length * params.minSize.length)
    let variance ← varianceOf math params.variance
    .ok ⟨params.offset,params.step,params.minSize,params.maxSize,params.clip,aspectRatios,variance,
      numPriors⟩

end Constructor

/-- The sizes of the feature map and of the image, and the step between the centers. -/
structure Grid (F : Type) where
  w : Nat
  h : Nat
  iw : F
  ih : F
  stepX : F
  stepY : F

section Execute

variable [FloatType F] (math : Math F) (impl : Impl F)

def pushBox (grid : Grid F) (centerX centerY boxWidth boxHeight : F) (table : Cursor F) : Cursor F :=
  let two : F := ((2 : Int) : F)
  (((table.push ((centerX - boxWidth / two) / grid.iw)).push
    ((centerY - boxHeight / two) / grid.ih)).push
    ((centerX + boxWidth / two) / grid.iw)).push
    ((centerY + boxHeight / two) / grid.ih)

def center (grid : Grid F) (h w : Nat) : F × F :=
  let half : F := ((1 : Int) : F) / ((2 : Int) : F)
  if impl.step == ((0 : Int) : F) then
    ((((w : Int) : F) + half) * grid.stepX,(((h : Int) : F) + half) * grid.stepY)
  else ((impl.offset + ((w : Int) : F)) * impl.step,(impl.offset + ((h : Int) : F)) * impl.step)

/-- The body of the loop over min_sizes. -/
def pushSize (grid : Grid F) (h w msIdx : Nat) (table : Cursor F) : Cursor F :=
  let center := center impl grid h w
  let minSize := impl.minSizes.getD msIdx ((0 : Int) : F)
  let table := pushBox grid center.1 center.2 minSize minSize table
  let table :=
    if impl.maxSizes.length > msIdx then
      let size := math.sqrt (minSize * impl.maxSizes.getD msIdx ((0 : Int) : F))
      pushBox grid center.1 center.2 size size table
    else table
  impl.aspectRatios.foldl (fun table ar =>
    if math.tiny (ar - ((1 : Int) : F)) then table
    else pushBox grid center.1 center.2 (minSize * math.sqrt ar) (minSize / math.sqrt ar) table) table

def pushCoordinates (grid : Grid F) (dst : Memory F) : Cursor F :=
  forLoop grid.h (fun h => forLoop grid.w fun w => forLoop impl.minSizes.length
    (pushSize math impl grid h w)) ⟨dst,0,[]⟩

def clipCoordinates (dim : Nat) (dst : Memory F) : Memory F × List Nat :=
  forLoop dim (fun d clipped =>
    (clipped.1.write d (stdMin (stdMax (clipped.1 d) ((0 : Int) : F)) ((1 : Int) : F)),
      clipped.2 ++ [d])) (dst,[])

/-- The variances from the second row of the output on. -/
def writeVariances (grid : Grid F) (channelSize : Nat) (dst : Memory F) : Memory F × List Nat :=
  let zero : F := ((0 : Int) : F)
  if impl.variance.length = 1 then
    forLoop channelSize (fun i state =>
      (state.1.write (channelSize + i) (impl.variance.getD 0 zero),state.2 ++ [channelSize + i]))
      (dst,[])
  else
    let variances := forLoop grid.h (fun _ => forLoop grid.w fun _ => forLoop impl.numPriors fun _ =>
      forLoop 4 fun j (state : (Memory F × List Nat) × Nat) =>
        ((state.1.1.write (channelSize + state.2) (impl.variance.getD j zero),
          state.1.2 ++ [channelSize + state.2]),state.2 + 1)) ((dst,[]),0)
    variances.1

def gridOf (data image : ExtBlob F) : Grid F :=
  let w := data.dim 3
  let h := data.dim 2
  let iw : F := ((image.dim 3 : Nat) : Int)
  let ih : F := ((image.dim 2 : Nat) : Int)
  let zero : F := ((0 : Int) : F)
  {w,h,iw,ih
   stepX := if impl.step == zero then iw / ((w : Int) : F) else impl.step
   stepY := if impl.step == zero then ih / ((h : Int) : F) else impl.step}

def writeTable (grid : Grid F) (channelSize : Nat) (dst : Memory F) : Result F :=
  let table := pushCoordinates math impl grid dst
  let dim := grid.h * grid.w * impl.numPriors * 4
  let clipped := if impl.clip then clipCoordinates dim table.memory else (table.memory,[])
  let variances := writeVariances impl grid channelSize clipped.1
  ⟨variances.1,table.written,clipped.2,variances.2⟩

def execute (inputs outputs : List (ExtBlob F)) : Except ExtFailure (Result F) :=
  match inputs, outputs with
  | [data,image], dst :: _ =>
    let oh := dst.dim 2
    let ow := if dst.dims.length = 3 then 1 else dst.dim 3
    .ok (writeTable math impl (gridOf impl data image) (oh * ow) dst.data)
  | _, _ => .error incorrectEdges

end Execute

end VideoAnalytics.PriorBox
