import VideoAnalytics.ExtLayer
import VideoAnalytics.Library.Rounding

/-! The Resample layer of the CPU extension, as it is built without SSE and AVX2. Each
read of the input is recorded with the plane through whose pointer it is made. -/
namespace VideoAnalytics.Resample
open Loop Memory Rounding

variable {F : Type}

/-- abs, and round and ceil with the conversion of their result to int. -/
class FloatMath (F : Type) where
  abs : F → F
  round : F → Int
  ceil : F → Int

instance (priority := low) exactMath {F : Type} [Field F] [LinearOrder F] [FloorRing F] :
    FloatMath F where
  abs x := |x|
  round := roundAway
  ceil := Int.ceil

structure Impl where
  type : String
  antialias : Bool

def nearestType : String := "caffe.ResampleParameter.NEAREST"

def linearType : String := "caffe.ResampleParameter.LINEAR"

structure Canvas (F : Type) where
  dst : Memory F
  reads : List (Nat × Nat)

structure Sums (F : Type) where
  sum : F
  wsum : F
  reads : List Nat

/-- The loops over the pixels of the output, in which a kernel computes each pixel from
the plane of its channel. -/
def forPixels (iw ih ow oh channels batch : Nat) (pixel : Nat → Nat → Nat → F × List Nat)
    (canvas : Canvas F) : Canvas F :=
  forLoop batch (fun b => forLoop channels fun c =>
    let inPtr := iw * ih * channels * b + iw * ih * c
    let outPtr := ow * oh * channels * b + ow * oh * c
    forLoop oh fun oy => forLoop ow fun ox canvas =>
      let value := pixel inPtr oy ox
      ⟨canvas.dst.write (outPtr + (oy * ow + ox)) value.1,
        canvas.reads ++ value.2.map fun address => (inPtr,address)⟩) canvas

section Kernels

variable [FloatType F] [FloatMath F]

/-- ix for the column ox, and iy for a row with both factors exchanged. -/
def samplePosition (fx fy : F) (ox : Nat) : F :=
  ((ox : Int) : F) * fx + fy / ((2 : Int) : F) - ((1 : Int) : F) / ((2 : Int) : F)

def nearestPixel (src : Memory F) (iw : Nat) (fx fy : F) (inPtr oy ox : Nat) : F × List Nat :=
  -- positions are above -1/2, so that their rounding fits into size_t
  let ixR := (FloatMath.round (samplePosition fx fy ox)).toNat
  let iyR := (FloatMath.round (samplePosition fy fx oy)).toNat
  let address := inPtr + (iyR * iw + ixR)
  (src address,[address])

def NearestNeighborKernel (src : Memory F) (iw ih : Nat) (fx fy : F) (ow oh channels batch : Nat)
    (canvas : Canvas F) : Canvas F :=
  forPixels iw ih ow oh channels batch (nearestPixel src iw fx fy) canvas

def triangleCoeff (x : F) : F := stdMax ((0 : Int) : F) (((1 : Int) : F) - FloatMath.abs x)

def addPixel (src : Memory F) (iw ih inPtr : Nat) (ix iy ax ay : F) (y x : Int) (sums : Sums F) :
    Sums F :=
  if y < 0 ∨ x < 0 ∨ y ≥ (ih : Int) ∨ x ≥ (iw : Int) then sums
  else
    let dx := ix - (x : F)
    let dy := iy - (y : F)
    let w := ax * triangleCoeff (ax * dx) * ay * triangleCoeff (ay * dy)
    let address := inPtr + (y.toNat * iw + x.toNat)
    ⟨sums.sum + w * src address,sums.wsum + w,sums.reads ++ [address]⟩

/-- ax and ay -/
def kernelScale (f : F) (antialias : Bool) : F :=
  ((1 : Int) : F) / (if antialias then f else ((1 : Int) : F))

/-- rx and ry -/
def kernelRadius (f a : F) (kernelWidth : Nat) : Int :=
  if f < ((1 : Int) : F) then 2 else FloatMath.ceil (((kernelWidth : Int) : F) / a)

def interpolatedPixel (src : Memory F) (iw ih : Nat) (fx fy : F) (kernelWidth : Nat)
    (antialias : Bool) (inPtr oy ox : Nat) : F × List Nat :=
  let zero : F := ((0 : Int) : F)
  let ix := samplePosition fx fy ox
  let iy := samplePosition fy fx oy
  let ixR := FloatMath.round ix
  let iyR := FloatMath.round iy
  let ax := kernelScale fx antialias
  let ay := kernelScale fy antialias
  let rx := kernelRadius fx ax kernelWidth
  let ry := kernelRadius fy ay kernelWidth
  let sums := forLoop (2 * ry + 1).toNat (fun y => forLoop (2 * rx + 1).toNat fun x =>
    addPixel src iw ih inPtr ix iy ax ay (iyR - ry + y) (ixR - rx + x)) ⟨zero,zero,[]⟩
  (if sums.wsum == zero then zero else sums.sum / sums.wsum,sums.reads)

def InterpolationKernel (src : Memory F) (iw ih : Nat) (fx fy : F) (ow oh channels batch : Nat)
    (kernelWidth : Nat) (antialias : Bool) (canvas : Canvas F) : Canvas F :=
  forPixels iw ih ow oh channels batch
    (interpolatedPixel src iw ih fx fy kernelWidth antialias) canvas

end Kernels

def upsamplePixel (src : Memory F) (iw ow inPtr outPtr iy ix : Nat) (canvas : Canvas F) : Canvas F :=
  let oy := 2 * iy
  let ox := 2 * ix
  let address := inPtr + (iy * iw + ix)
  let value := src address
  ⟨(((canvas.dst.write (outPtr + ((oy + 0) * ow + ox + 0)) value).write
      (outPtr + ((oy + 0) * ow + ox + 1)) value).write
      (outPtr + ((oy + 1) * ow + ox + 0)) value).write
      (outPtr + ((oy + 1) * ow + ox + 1)) value,
    canvas.reads ++ [(inPtr,address)]⟩

def Upsample2x_Nearest (src : Memory F) (iw ih ow oh channels batch : Nat) (canvas : Canvas F) :
    Canvas F :=
  forLoop batch (fun b => forLoop channels fun c =>
    let inPtr := iw * ih * channels * b + iw * ih * c
    let outPtr := ow * oh * channels * b + ow * oh * c
    forLoop ih fun iy => forLoop iw fun ix => upsamplePixel src iw ow inPtr outPtr iy ix) canvas

/-- memcpy of a whole blob with planes of a size. -/
def copyBlob (src : Memory F) (count plane : Nat) (canvas : Canvas F) : Canvas F :=
  forLoop count (fun i canvas =>
    ⟨canvas.dst.write i (src i),canvas.reads ++ [(i / plane * plane,i)]⟩) canvas

section Execute

variable [FloatType F] [FloatMath F]

def execute (impl : Impl) (src dst : ExtBlob F) : Canvas F :=
  let batch := src.dim 0
  let channels := src.dim 1
  let ih := src.dim 2
  let iw := src.dim 3
  let oh := dst.dim 2
  let ow := dst.dim 3
  let canvas : Canvas F := ⟨dst.data,[]⟩
  if iw = ow ∧ ih = oh ∧ impl.type = linearType then
    copyBlob src.data (batch * channels * ih * iw) (ih * iw) canvas
  else
    let fx : F := ((iw : Int) : F) / ((ow : Int) : F)
    let fy : F := ((ih : Int) : F) / ((oh : Int) : F)
    let one : F := ((1 : Int) : F)
    let half : F := one / ((2 : Int) : F)
    let isDownsample := decide (fx > one) || decide (fy > one)
    if impl.type = nearestType then
      if !isDownsample && fx == half && fy == half then
        Upsample2x_Nearest src.data iw ih ow oh channels batch canvas
      else NearestNeighborKernel src.data iw ih fx fy ow oh channels batch canvas
    else if impl.type = linearType then
      InterpolationKernel src.data iw ih fx fy ow oh channels batch 2
        (isDownsample && impl.antialias) canvas
    else canvas

end Execute

end VideoAnalytics.Resample
