import VideoAnalytics.Library.Fourier
import VideoAnalytics.Library.Loop
import Mathlib.Algebra.Order.Field.Basic
import Mathlib.Algebra.QuadraticAlgebra.Basic
import Mathlib.Data.Int.Cast.Lemmas
import Mathlib.Data.ZMod.Basic

/-! The matrices of a tracker and what ffttools.hpp does with them, in exact arithmetic.
cv::dft is the transform over the positions of a matrix, for whatever waves. -/
namespace VideoAnalytics.Tracker
open Fourier Loop

/-- A pixel of two channels of floats. -/
abbrev Vec2f (F : Type) [CommRing F] := QuadraticAlgebra F (-1) 0

/-- The positions of a matrix, by row and column. -/
abbrev Position (rows cols : Nat) := ZMod rows × ZMod cols

abbrev CvMat (rows cols : Nat) (α : Type) := Position rows cols → α

/-- The rows of a matrix of features, each reshaped to a patch. -/
abbrev Features (rows cols : Nat) (F : Type) := Nat → CvMat rows cols F

variable {rows cols : Nat} {α F : Type}

def middle (rows cols : Nat) : Position rows cols :=
  (((rows / 2 : Nat) : ZMod rows),((cols / 2 : Nat) : ZMod cols))

/-- Swap quadrants: top-left with bottom-right, top-right with bottom-left. -/
def rearrange (img : CvMat rows cols α) : CvMat rows cols α := fun p =>
  let cx := cols / 2
  let cy := rows / 2
  let y := p.1.val
  let x := p.2.val
  if y < 2 * cy ∧ x < 2 * cx then
    img (((if y < cy then y + cy else y - cy : Nat) : ZMod rows),
      ((if x < cx then x + cx else x - cx : Nat) : ZMod cols))
  else img p

section Channels

variable [Field F]

def merge (img : CvMat rows cols F) : CvMat rows cols (Vec2f F) := fun p => ⟨img p,0⟩

def real (img : CvMat rows cols (Vec2f F)) : CvMat rows cols F := fun p => (img p).re

def complexMultiplication (a b : CvMat rows cols (Vec2f F)) : CvMat rows cols (Vec2f F) := fun p =>
  ⟨(a p).re * (b p).re - (a p).im * (b p).im,(a p).re * (b p).im + (a p).im * (b p).re⟩

def complexDivision (a b : CvMat rows cols (Vec2f F)) : CvMat rows cols (Vec2f F) := fun p =>
  let divisor := 1 / ((b p).re * (b p).re + (b p).im * (b p).im)
  ⟨((a p).re * (b p).re + (a p).im * (b p).im) * divisor,
    ((a p).im * (b p).re + (a p).re * (b p).im) * divisor⟩

/-- cv::mulSpectrums with conjB. -/
def mulSpectrums (a b : CvMat rows cols (Vec2f F)) : CvMat rows cols (Vec2f F) := fun p =>
  a p * star (b p)

end Channels

section Transforms

variable [NeZero rows] [NeZero cols] [Field F] (waves : Waves (Position rows cols) (Vec2f F))

/-- fftd of a matrix of two channels. -/
def fftdMerged (img : CvMat rows cols (Vec2f F)) (backwards : Bool) : CvMat rows cols (Vec2f F) :=
  if backwards then waves.backward img else waves.forward img

/-- fftd of a matrix of one channel. -/
def fftd (img : CvMat rows cols F) : CvMat rows cols (Vec2f F) := fftdMerged waves (merge img) false

end Transforms

section Correlation

/-- The matrix that gaussianCorrelation returns, and the one that it computes last. -/
structure Correlation (rows cols : Nat) (F : Type) where
  c : CvMat rows cols F
  k : CvMat rows cols F

variable [NeZero rows] [NeZero cols] [Field F]

/-- cv::sum(x.mul(x)) -/
def sumSquares (channels : Nat) (x : Features rows cols F) : F :=
  ∑ i ∈ Finset.range channels, ∑ p, x i p * x i p

variable [Max F] (waves : Waves (Position rows cols) (Vec2f F)) (exp : F → F) (sigma : F)

def gaussianCorrelation (channels : Nat) (x1 x2 : Features rows cols F) : Correlation rows cols F :=
  let c := forLoop channels (fun i c =>
    let caux := mulSpectrums (fftd waves (x1 i)) (fftd waves (x2 i))
    let caux := rearrange (fftdMerged waves caux true)
    fun p => c p + real caux p) (fun _ => 0)
  let d : CvMat rows cols F := fun p =>
    max (((sumSquares channels x1 + sumSquares channels x2) - (2 : Nat) * c p) /
      (rows * cols * channels : Nat)) 0
  {c := c, k := fun p => exp (-d p / (sigma * sigma))}

end Correlation

section Kernels

/-- The features move on together, around the borders of the patch. -/
def Features.moved (s : Position rows cols) (x : Features rows cols F) : Features rows cols F :=
  fun i => shift s (x i)

/-- A kernel that compares features, the same for features that move on together. -/
structure ShiftKernel (rows cols : Nat) (F : Type) where
  compare : Features rows cols F → Features rows cols F → F
  exchange : ∀ x z, compare x z = compare z x
  together : ∀ s x z, compare (x.moved s) (z.moved s) = compare x z

/-- The kernel for all relative shifts, with none in the middle. -/
def ShiftKernel.all (kernel : ShiftKernel rows cols F) (x z : Features rows cols F) :
    CvMat rows cols F :=
  fun p => kernel.compare (x.moved (middle rows cols - p)) z

private theorem moved_moved (s t : Position rows cols) (x : Features rows cols F) :
    (x.moved s).moved t = x.moved (s + t) := by
  ext i p
  simp only [Features.moved,shift]
  congr 1
  abel

private theorem moved_zero (x : Features rows cols F) : x.moved 0 = x := by
  ext i p
  simp only [Features.moved,shift,sub_zero]

/-- Features that have moved on move the kernel on. -/
theorem ShiftKernel.all_moved (kernel : ShiftKernel rows cols F) (s : Position rows cols)
    (x z : Features rows cols F) : kernel.all (x.moved s) z = shift s (kernel.all x z) := by
  ext p
  unfold ShiftKernel.all shift
  rw [moved_moved]
  congr 2
  abel

/-- The kernel of features with themselves is the same about the middle. -/
theorem ShiftKernel.all_self (kernel : ShiftKernel rows cols F) (x : Features rows cols F) :
    EvenAbout (middle rows cols) (kernel.all x x) := by
  intro p
  calc kernel.compare (x.moved (middle rows cols - (middle rows cols - p))) x
      = kernel.compare (x.moved p) x := by rw [sub_sub_cancel]
    _ = kernel.compare x (x.moved p) := kernel.exchange _ _
    _ = kernel.compare ((x.moved (-p)).moved p) (x.moved p) := by
      rw [moved_moved,neg_add_cancel,moved_zero]
    _ = kernel.compare (x.moved (-p)) x := kernel.together _ _ _
    _ = kernel.compare (x.moved (middle rows cols - (middle rows cols + p))) x := by
      rw [sub_add_cancel_left]

end Kernels

section Middle

variable [NeZero rows] [NeZero cols]

private theorem half_add_half {n : Nat} [NeZero n] (even : n % 2 = 0) :
    ((n / 2 : Nat) : ZMod n) + ((n / 2 : Nat) : ZMod n) = 0 := by
  rw [← Nat.cast_add,show n / 2 + n / 2 = n by omega,ZMod.natCast_self]

theorem middle_add_middle (evenRows : rows % 2 = 0) (evenCols : cols % 2 = 0) :
    middle rows cols + middle rows cols = 0 :=
  Prod.ext (half_add_half evenRows) (half_add_half evenCols)

private theorem swap_half {n : Nat} [NeZero n] (even : n % 2 = 0) (x : ZMod n) :
    ((if x.val < n / 2 then x.val + n / 2 else x.val - n / 2 : Nat) : ZMod n) =
      x - ((n / 2 : Nat) : ZMod n) := by
  have back : ((x.val : Nat) : ZMod n) = x := ZMod.natCast_zmod_val x
  split
  · rw [Nat.cast_add,back,eq_sub_iff_add_eq,add_assoc,half_add_half even,add_zero]
  · rw [Nat.cast_sub (by omega),back]

/-- On sides that are even, the quadrants are swapped by a move of half of each. -/
theorem rearrange_shift (evenRows : rows % 2 = 0) (evenCols : cols % 2 = 0)
    (img : CvMat rows cols α) : rearrange img = shift (middle rows cols) img := by
  ext p
  have row := ZMod.val_lt p.1
  have col := ZMod.val_lt p.2
  unfold rearrange shift
  dsimp only
  rw [if_pos (by omega),swap_half evenRows,swap_half evenCols]
  rfl

end Middle

section Sums

variable [Field F]

private theorem re_sum {ι : Type} (members : Finset ι) (values : ι → Vec2f F) :
    (∑ i ∈ members, values i).re = ∑ i ∈ members, (values i).re :=
  map_sum (QuadraticAlgebra.reₗ (-1) 0) values members

private theorem forLoop_added (count : Nat) (pieces : Nat → CvMat rows cols F)
    (p : Position rows cols) : forLoop count (fun i c p => c p + pieces i p) (fun _ => 0) p =
      ∑ i ∈ Finset.range count, pieces i p := by
  induction count with
  | zero => rfl
  | succ count ih =>
    unfold forLoop
    dsimp only
    rw [ih,Finset.sum_range_succ]

theorem star_merge (img : CvMat rows cols F) (p : Position rows cols) :
    star (merge img p) = merge img p := by
  simp [merge,QuadraticAlgebra.star_mk]

end Sums

section Direct

variable [NeZero rows] [NeZero cols] [Field F]

/-- The correlation of features at a relative shift. -/
def directCorrelation (channels : Nat) (x1 x2 : Features rows cols F) (s : Position rows cols) : F :=
  ∑ i ∈ Finset.range channels, ∑ q, x1 i (q + s) * x2 i q

private theorem directCorrelation_exchange (channels : Nat) (x z : Features rows cols F) :
    directCorrelation channels x z 0 = directCorrelation channels z x 0 := by
  unfold directCorrelation
  simp only [add_zero,mul_comm]

private theorem directCorrelation_moved (channels : Nat) (s t : Position rows cols)
    (x z : Features rows cols F) :
    directCorrelation channels (x.moved s) z t = directCorrelation channels x z (t - s) := by
  unfold directCorrelation Features.moved shift
  simp only [add_sub_assoc]

private theorem directCorrelation_together (channels : Nat) (s t : Position rows cols)
    (x z : Features rows cols F) :
    directCorrelation channels (x.moved s) (z.moved s) t = directCorrelation channels x z t := by
  unfold directCorrelation Features.moved shift
  apply Finset.sum_congr rfl
  intro i _
  apply Fintype.sum_equiv (Equiv.subRight s)
  intro q
  rw [Equiv.subRight_apply,sub_add_eq_add_sub]

private theorem sumSquares_eq (channels : Nat) (x : Features rows cols F) :
    sumSquares channels x = directCorrelation channels x x 0 := by
  unfold sumSquares directCorrelation
  simp only [add_zero]

private theorem sumSquares_moved (channels : Nat) (s : Position rows cols)
    (x : Features rows cols F) : sumSquares channels (x.moved s) = sumSquares channels x := by
  rw [sumSquares_eq,sumSquares_eq,directCorrelation_together]

/-- Through the spectra, one channel gives the correlation at each shift from the middle. -/
theorem real_caux (waves : Waves (Position rows cols) (Vec2f F)) (evenRows : rows % 2 = 0)
    (evenCols : cols % 2 = 0) (first second : CvMat rows cols F) (p : Position rows cols) :
    real (rearrange (fftdMerged waves (mulSpectrums (fftd waves first) (fftd waves second)) true)) p =
      ∑ q, first (q + (p - middle rows cols)) * second q := by
  have correlation := waves.backward_correlation (merge first) (merge second) (p - middle rows cols)
  rw [rearrange_shift evenRows evenCols]
  unfold real shift
  refine (congrArg QuadraticAlgebra.re correlation).trans ?_
  rw [re_sum]
  apply Finset.sum_congr rfl
  intro q _
  rw [star_merge]
  simp [merge]

end Direct

section Gaussian

variable [NeZero rows] [NeZero cols] [Field F] [Max F]

/-- The Gaussian kernel with bandwidth sigma. -/
def gaussianKernel (exp : F → F) (sigma : F) (channels : Nat) : ShiftKernel rows cols F where
  compare x z := exp (-max (((sumSquares channels x + sumSquares channels z) -
    (2 : Nat) * directCorrelation channels x z 0) / (rows * cols * channels : Nat)) 0 / (sigma * sigma))
  exchange x z := by
    rw [directCorrelation_exchange,add_comm (sumSquares channels x)]
  together s x z := by
    rw [sumSquares_moved,sumSquares_moved,directCorrelation_together]

/-- The matrix that gaussianCorrelation returns is the correlation at every relative shift,
and the last one that it computes, divided by a positive size, is the Gaussian kernel there. -/
theorem gaussianCorrelation_kernel (evenRows : rows % 2 = 0) (evenCols : cols % 2 = 0)
    (waves : Waves (Position rows cols) (Vec2f F)) (exp : F → F) (sigma : F) (channels : Nat)
    (some : 1 ≤ channels) (x1 x2 : Features rows cols F) :
    (∀ p, (gaussianCorrelation waves exp sigma channels x1 x2).c p =
      directCorrelation channels x1 x2 (p - middle rows cols)) ∧
    0 < rows * cols * channels ∧
    (gaussianCorrelation waves exp sigma channels x1 x2).k =
      (gaussianKernel exp sigma channels).all x1 x2 := by
  have correlated : ∀ p, (gaussianCorrelation waves exp sigma channels x1 x2).c p =
      directCorrelation channels x1 x2 (p - middle rows cols) := by
    intro p
    unfold gaussianCorrelation
    dsimp only
    rw [forLoop_added]
    unfold directCorrelation
    apply Finset.sum_congr rfl
    intro i _
    exact real_caux waves evenRows evenCols (x1 i) (x2 i) p
  refine ⟨correlated,Nat.mul_pos (Nat.mul_pos (NeZero.pos rows) (NeZero.pos cols)) some,?_⟩
  ext p
  have middled : directCorrelation channels (x1.moved (middle rows cols - p)) x2 0 =
      (gaussianCorrelation waves exp sigma channels x1 x2).c p := by
    rw [directCorrelation_moved,correlated,zero_sub,neg_sub]
  unfold ShiftKernel.all gaussianKernel
  dsimp only
  rw [sumSquares_moved,middled]
  rfl

end Gaussian

def quarterTurn (k : Nat) : Vec2f Rat :=
  if k = 0 then 1 else if k = 1 then ⟨0,1⟩ else if k = 2 then -1 else ⟨0,-1⟩

theorem waves_four : Nonempty (Waves (ZMod 4) (Vec2f Rat)) :=
  ⟨{wave := fun u =>
      {toFun := fun p => quarterTurn (u.val * p.val % 4)
       map_zero_eq_one' := by revert u; decide +kernel
       map_add_eq_mul' := by revert u; decide +kernel}
    exchange := by decide +kernel
    conjugate := by decide +kernel
    orthogonal := by decide +kernel
    scale := ⟨1 / 4,0⟩
    inverse := by decide +kernel}⟩

theorem gaussianCorrelation_kernel_four_by_four : ∃ waves : Waves (Position 4 4) (Vec2f Rat),
    (∀ p, (gaussianCorrelation waves (1 + ·) (3 / 5) 2 (fun i p => p.2.val + i)
        (fun i p => p.1.val - i)).c p =
      directCorrelation 2 (fun i p => (p.2.val + i : Rat)) (fun i p => p.1.val - i)
        (p - middle 4 4)) ∧
    (gaussianCorrelation waves (1 + ·) (3 / 5) 2 (fun i p => p.2.val + i)
        (fun i p => p.1.val - i)).k =
      (gaussianKernel (1 + ·) (3 / 5 : Rat) 2).all (fun i p => p.2.val + i)
        (fun i p => p.1.val - i) := by
  obtain ⟨waves⟩ := waves_four
  obtain ⟨correlated,-,kernel⟩ := gaussianCorrelation_kernel (by decide) (by decide)
    (waves.prod waves) (1 + ·) (3 / 5) 2 (by decide) (fun i p => (p.2.val + i : Rat))
    (fun i p => p.1.val - i)
  exact ⟨waves.prod waves,correlated,kernel⟩

end VideoAnalytics.Tracker
