import VideoAnalytics.ResampleUpsample
import VideoAnalytics.Library.Lanes
import Mathlib.Tactic.FinCases
import Mathlib.Tactic.NormNum

/-! Upsample4x_TriangleInterpolation of the Resample layer in the builds with SSE and AVX2, in
exact arithmetic, by the stores that it makes in order. What it reads outside of the plane of
a channel is a parameter. -/
namespace VideoAnalytics.Resample
open Loop Memory Rounding

inductive Simd
  | sse
  | avx2
  deriving DecidableEq, Repr

/-- The pieces of code for the first four rows, for those between and for the last four. -/
inductive Rows
  | first
  | middle
  | last
  deriving DecidableEq, Repr

/-- A register of 256 bits by its halves. -/
abbrev M256 (F : Type) := Fin 2 → Lanes 4 F

structure Coefficients (R : Type) where
  vc0 : R
  vc1 : R
  vc2 : R
  vc3 : R

section Registers

variable {F : Type}

def insertf128 (a : M256 F) (half : Lanes 4 F) (imm : Fin 2) : M256 F := Function.update a imm half

def extractf128 (a : M256 F) (imm : Fin 2) : Lanes 4 F := a imm

/-- _mm256_castps128_ps256 with a second half inserted. -/
def castps128 (low high : Lanes 4 F) : M256 F := insertf128 (fun _ => low) high 1

def shufflePs (a b : Lanes 4 F) (imm : Nat) : Lanes 4 F :=
  fun lane => if lane.val < 2 then a (Fin.ofNat 4 (imm / 4 ^ lane.val))
    else b (Fin.ofNat 4 (imm / 4 ^ lane.val))

def shufflePs256 (a b : M256 F) (imm : Nat) : M256 F := fun half => shufflePs (a half) (b half) imm

def loadSs [Zero F] (value : F) : Lanes 4 F := fun lane => if lane = 0 then value else 0

end Registers

section Tables

variable {F : Type} [Field F]

def tableAvx2 : Fin 4 → List F
  | 0 => [0.140625,0.046875,0.046875,0.140625,0.140625,0.046875,0.046875,0.140625,
    0.234375,0.328125,0.328125,0.234375,0.234375,0.328125,0.328125,0.234375,
    0.234375,0.078125,0.078125,0.234375,0.234375,0.078125,0.078125,0.234375,
    0.390625,0.546875,0.546875,0.390625,0.390625,0.546875,0.546875,0.390625]
  | 1 => [0.046875,0.015625,0.015625,0.046875,0.046875,0.015625,0.015625,0.046875,
    0.078125,0.109375,0.109375,0.078125,0.078125,0.109375,0.109375,0.078125,
    0.328125,0.109375,0.109375,0.328125,0.328125,0.109375,0.109375,0.328125,
    0.546875,0.765625,0.765625,0.546875,0.546875,0.765625,0.765625,0.546875]
  | 2 => [0.328125,0.109375,0.109375,0.328125,0.328125,0.109375,0.109375,0.328125,
    0.546875,0.765625,0.765625,0.546875,0.546875,0.765625,0.765625,0.546875,
    0.046875,0.015625,0.015625,0.046875,0.046875,0.015625,0.015625,0.046875,
    0.078125,0.109375,0.109375,0.078125,0.078125,0.109375,0.109375,0.078125]
  | 3 => [0.234375,0.078125,0.078125,0.234375,0.234375,0.078125,0.078125,0.234375,
    0.390625,0.546875,0.546875,0.390625,0.390625,0.546875,0.546875,0.390625,
    0.140625,0.046875,0.046875,0.140625,0.140625,0.046875,0.046875,0.140625,
    0.234375,0.328125,0.328125,0.234375,0.234375,0.328125,0.328125,0.234375]

def tableSse : Fin 4 → List F
  | 0 => [0.140625,0.046875,0.046875,0.140625,
    0.234375,0.328125,0.328125,0.234375,
    0.234375,0.078125,0.078125,0.234375,
    0.390625,0.546875,0.546875,0.390625]
  | 1 => [0.046875,0.015625,0.015625,0.046875,
    0.078125,0.109375,0.109375,0.078125,
    0.328125,0.109375,0.109375,0.328125,
    0.546875,0.765625,0.765625,0.546875]
  | 2 => [0.328125,0.109375,0.109375,0.328125,
    0.546875,0.765625,0.765625,0.546875,
    0.046875,0.015625,0.015625,0.046875,
    0.078125,0.109375,0.109375,0.078125]
  | 3 => [0.234375,0.078125,0.078125,0.234375,
    0.390625,0.546875,0.546875,0.390625,
    0.140625,0.046875,0.046875,0.140625,
    0.234375,0.328125,0.328125,0.234375]

/-- A row of four floats of a table of the SSE build. -/
def loadSse (i row : Fin 4) : Lanes 4 F := fun lane => (tableSse i).getD (4 * row + lane) 0

def loadAvx2 (i row : Fin 4) : M256 F :=
  fun half lane => (tableAvx2 i).getD (8 * row + (4 * half + lane)) 0

end Tables

section Blocks

variable {F R : Type}

/-- vc0 to vc3 of a row, where a block at the border shuffles zeros into some of them. -/
def coefficients [Zero R] (rows : Rows) (i : Fin 4) (table : Fin 4 → R) (border : R → R) :
    Coefficients R :=
  let vc0 := if rows = .first ∧ i < 2 then 0 else table 0
  let vc1 := if rows = .first ∧ i < 2 then 0 else table 1
  let vc2 := if rows = .last ∧ ¬i < 2 then 0 else table 2
  let vc3 := if rows = .last ∧ ¬i < 2 then 0 else table 3
  ⟨if rows = .first ∧ ¬i > 1 then vc0 else border vc0,vc1,
    if rows = .last ∧ ¬i < 2 then vc2 else border vc2,vc3⟩

/-- vx00 to vx22, of which the rows outside are zero. -/
def sources [Zero R] (rows : Rows) (load : Int → Int → R) (y x : Fin 3) : R :=
  if rows = .first ∧ y = 0 ∨ rows = .last ∧ y = 2 then 0 else load (y - 1) (x - 1)

section Sse

variable [Field F]

def borderSse (ow ox : Nat) (vc : Lanes 4 F) : Lanes 4 F :=
  if ox = 0 then shufflePs 0 vc 0xD0
  else if (ox : Int) = ow - 4 then shufflePs vc 0 0x07
  else vc

/-- res for a row of a block, from the elements by row and column. -/
def resultSse (rows : Rows) (ow ox : Nat) (element : Int → Int → F) (i : Fin 4) : Lanes 4 F :=
  let vx := sources rows fun y x => loadSs (element y x)
  let vc := coefficients rows i (loadSse i) (borderSse ow ox)
  let vsrc0 := if i < 2 then shufflePs (vx 0 0) (vx 0 2) 0 else shufflePs (vx 1 0) (vx 1 2) 0
  let vsrc1 := if i < 2 then shufflePs (vx 0 1) (vx 0 1) 0 else shufflePs (vx 1 1) (vx 1 1) 0
  let vsrc2 := if i < 2 then shufflePs (vx 1 0) (vx 1 2) 0 else shufflePs (vx 2 0) (vx 2 2) 0
  let vsrc3 := if i < 2 then shufflePs (vx 1 1) (vx 1 1) 0 else shufflePs (vx 2 1) (vx 2 1) 0
  let res := vsrc0 * vc.vc0 + vsrc1 * vc.vc1 + (vsrc2 * vc.vc2 + vsrc3 * vc.vc3)
  let wei := vc.vc0 + vc.vc1 + (vc.vc2 + vc.vc3)
  if rows ≠ .middle ∨ ox = 0 ∨ (ox : Int) = ow - 4 then res / wei else res

end Sse

section Avx2

variable [Field F]

def borderAvx2 (ow ox : Nat) (vc : M256 F) : M256 F :=
  if ox = 0 then insertf128 vc (shufflePs 0 (extractf128 vc 0) 0xD0) 0
  else if (ox : Int) = ow - 8 then insertf128 vc (shufflePs (extractf128 vc 1) 0 0x07) 1
  else vc

def resultAvx2 (rows : Rows) (ow ox : Nat) (element : Int → Int → F) (i : Fin 4) : M256 F :=
  let vx := sources rows fun y x => castps128 (loadSs (element y x)) (loadSs (element y (x + 1)))
  let vc := coefficients rows i (loadAvx2 i) (borderAvx2 ow ox)
  let vsrc0 := if i < 2 then shufflePs256 (vx 0 0) (vx 0 2) 0 else shufflePs256 (vx 1 0) (vx 1 2) 0
  let vsrc1 := if i < 2 then shufflePs256 (vx 0 1) (vx 0 1) 0 else shufflePs256 (vx 1 1) (vx 1 1) 0
  let vsrc2 := if i < 2 then shufflePs256 (vx 1 0) (vx 1 2) 0 else shufflePs256 (vx 2 0) (vx 2 2) 0
  let vsrc3 := if i < 2 then shufflePs256 (vx 1 1) (vx 1 1) 0 else shufflePs256 (vx 2 1) (vx 2 1) 0
  let res : M256 F := 0
  let res := vsrc0 * vc.vc0 + res
  let res := vsrc1 * vc.vc1 + res
  let res := vsrc2 * vc.vc2 + res
  let res := vsrc3 * vc.vc3 + res
  let wei := vc.vc0 + vc.vc1 + (vc.vc2 + vc.vc3)
  if rows ≠ .middle ∨ ox = 0 ∨ (ox : Int) = ow - 8 then res / wei else res

end Avx2

end Blocks

section Triangle

variable {F : Type}

/-- An element of the plane at a pointer, or what lies outside of it. -/
def fetch (src : Memory F) (outside : Nat → Int → F) (iw ih inPtr : Nat) (offset : Int) : F :=
  if 0 ≤ offset ∧ offset < (ih * iw : Nat) then src (inPtr + offset.toNat) else outside inPtr offset

variable [Field F] [LinearOrder F] [FloorRing F]

def sseBlock (rows : Rows) (element : Int → F) (iw ow : Nat) (fx fy : F) (iyR outPtr oy ox : Nat) :
    List (Nat × F) :=
  let ixR := (FloatMath.round (samplePosition fx fy ox)).toNat
  let at_ (y x : Int) := element ((iyR + y) * iw + ixR + x)
  (List.finRange 4).flatMap fun (i : Fin 4) => (List.finRange 4).map fun (lane : Fin 4) =>
    (outPtr + ((oy + i) * ow + (ox + lane)),resultSse rows ow ox at_ i lane)

def avx2Block (rows : Rows) (element : Int → F) (iw ow : Nat) (fx fy : F) (iyR outPtr oy ox : Nat) :
    List (Nat × F) :=
  let ixR := (FloatMath.round (samplePosition fx fy ox)).toNat
  let at_ (y x : Int) := element ((iyR + y) * iw + ixR + x)
  (List.finRange 4).flatMap fun (i : Fin 4) => (List.finRange 2).flatMap fun (half : Fin 2) =>
    (List.finRange 4).map fun (lane : Fin 4) =>
      (outPtr + ((oy + i) * ow + (ox + (4 * half + lane))),resultAvx2 rows ow ox at_ i half lane)

/-- Four rows in blocks of eight columns, in the build with AVX2, and then of four. -/
def triangleRows (simd : Simd) (fuel : Nat) (rows : Rows) (element : Int → F) (iw ow : Nat)
    (fx fy : F) (outPtr oy : Nat) (stores : List (Nat × F)) :
    Except Unfinished (List (Nat × F)) := do
  let iyR := (FloatMath.round (samplePosition fy fx oy)).toNat
  let wide ← match simd with
    | .sse => .ok (0,stores)
    | .avx2 => stepLoop .outOfFuel (upTo ow 8) 8 (fun ox stores =>
        .ok (stores ++ avx2Block rows element iw ow fx fy iyR outPtr oy ox)) fuel 0 stores
  let all ← stepLoop .outOfFuel (upTo ow 4) 4 (fun ox stores =>
    .ok (stores ++ sseBlock rows element iw ow fx fy iyR outPtr oy ox)) fuel wide.1 wide.2
  return all.2

def triangleChannel (simd : Simd) (fuel : Nat) (element : Int → F) (iw : Nat) (fx fy : F)
    (ow oh outPtr : Nat) (stores : List (Nat × F)) : Except Unfinished (List (Nat × F)) := do
  let stores ← triangleRows simd fuel .first element iw ow fx fy outPtr 0 stores
  let middle ← stepLoop .outOfFuel (upTo oh 8) 4
    (triangleRows simd fuel .middle element iw ow fx fy outPtr) fuel 4 stores
  triangleRows simd fuel .last element iw ow fx fy outPtr (oh - 4) middle.2

def Upsample4x_TriangleInterpolation (simd : Simd) (fuel : Nat) (src : Memory F)
    (outside : Nat → Int → F) (iw ih : Nat) (fx fy : F) (ow oh channels batch : Nat) :
    Except Unfinished (List (Nat × F)) :=
  tryLoop batch (fun b => tryLoop channels fun c =>
    let inPtr := b * channels * iw * ih + c * iw * ih
    let outPtr := b * channels * ow * oh + c * ow * oh
    triangleChannel simd fuel (fetch src outside iw ih inPtr) iw fx fy ow oh outPtr) []

end Triangle

end VideoAnalytics.Resample
