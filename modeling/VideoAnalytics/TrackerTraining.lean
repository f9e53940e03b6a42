import VideoAnalytics.Library.Average
import VideoAnalytics.TrackerDetect

/-! The filter of a tracker over its frames, in exact arithmetic: KCFTracker::init, train,
and what update does besides the region. The features that getFeatures reads are arguments. -/
namespace VideoAnalytics.Tracker
open Fourier

variable {rows cols : Nat} {F : Type} [Field F]

/-- regularization -/
def lambda : F := 1 / (10000 : Nat)

/-- linear interpolation factor for adaptation -/
def interpFactor : F := (12 : Nat) / (1000 : Nat)

structure Filter (rows cols : Nat) (F : Type) [Field F] where
  tmpl : Features rows cols F
  alphaf : CvMat rows cols (Vec2f F)
  prob : CvMat rows cols (Vec2f F)

/-- The features at the region that detect starts from, and at the one that it has found. -/
structure Frame (rows cols : Nat) (F : Type) where
  before : Features rows cols F
  after : Features rows cols F

section Train

variable [NeZero rows] [NeZero cols] (waves : Waves (Position rows cols) (Vec2f F))

/-- The functions of the standard library that createGaussianPeak calls. -/
structure PeakMath (F : Type) where
  exp : F → F
  sqrt : F → F

def gaussianPeak (math : PeakMath F) : CvMat rows cols F :=
  let syh := rows / 2
  let sxh := cols / 2
  let output_sigma := math.sqrt ((cols : F) * rows) / ((5 : Nat) / (2 : Nat)) * (1 / (8 : Nat))
  let mult := -(1 / (2 : Nat)) / (output_sigma * output_sigma)
  fun p =>
    let ih : Int := p.1.val - syh
    let jh : Int := p.2.val - sxh
    math.exp (mult * ((ih * ih + jh * jh : Int) : F))

def createGaussianPeak (math : PeakMath F) : CvMat rows cols (Vec2f F) :=
  fftd waves (gaussianPeak math)

variable (kernel : ShiftKernel rows cols F)

/-- The divisor of train. -/
def regularized (x : Features rows cols F) : CvMat rows cols (Vec2f F) := fun u =>
  fftd waves (kernel.all x x) u + ⟨lambda,0⟩

def Filter.train (filter : Filter rows cols F) (x : Features rows cols F) (train_interp_factor : F) :
    Filter rows cols F :=
  let alphaf := complexDivision filter.prob (regularized waves kernel x)
  {filter with
    tmpl := (1 - train_interp_factor) • filter.tmpl + train_interp_factor • x
    alphaf := (1 - train_interp_factor) • filter.alphaf + train_interp_factor • alphaf}

def Filter.init (math : PeakMath F) (x : Features rows cols F) : Filter rows cols F :=
  Filter.train waves kernel {tmpl := x, alphaf := 0, prob := createGaussianPeak waves math} x 1

end Train

private theorem val_neg_centred {n : Nat} [NeZero n] (even : n % 2 = 0) (x : ZMod n) :
    (((-x).val : Int) - (n / 2 : Nat)) * (((-x).val : Int) - (n / 2 : Nat)) =
      ((x.val : Int) - (n / 2 : Nat)) * ((x.val : Int) - (n / 2 : Nat)) := by
  by_cases zero : x = 0
  · rw [zero,neg_zero]
  · have low := ZMod.val_lt x
    have value : ((-x).val : Int) - (n / 2 : Nat) = -((x.val : Int) - (n / 2 : Nat)) := by
      rw [ZMod.neg_val,if_neg zero]
      omega
    rw [value,neg_mul_neg]

private theorem gaussianPeak_even [NeZero rows] [NeZero cols] (evenRows : rows % 2 = 0)
    (evenCols : cols % 2 = 0) (math : PeakMath F) (p : Position rows cols) :
    gaussianPeak math (-p) = gaussianPeak math p := by
  unfold gaussianPeak
  dsimp only
  rw [Prod.fst_neg,Prod.snd_neg,val_neg_centred evenRows,val_neg_centred evenCols]

section Division

variable [LinearOrder F] [IsStrictOrderedRing F]

/-- complexDivision is a division exactly for a dividend without a first channel, or a
divisor without a second one. -/
theorem complexDivision_mul_iff {a b : CvMat rows cols (Vec2f F)} {p : Position rows cols}
    (nonzero : (b p).re * (b p).re + (b p).im * (b p).im ≠ 0) :
    complexDivision a b p * b p = a p ↔ (a p).re = 0 ∨ (b p).im = 0 := by
  have squares : (b p).re ^ 2 + (b p).im ^ 2 ≠ 0 := by
    rwa [sq,sq]
  have first : (complexDivision a b p * b p).re = (a p).re -
      2 * (a p).re * ((b p).im * (b p).im) / ((b p).re * (b p).re + (b p).im * (b p).im) := by
    unfold complexDivision
    rw [QuadraticAlgebra.re_mul]
    dsimp only
    field_simp
    ring
  have second : (complexDivision a b p * b p).im = (a p).im +
      2 * (a p).re * ((b p).re * (b p).im) / ((b p).re * (b p).re + (b p).im * (b p).im) := by
    unfold complexDivision
    rw [QuadraticAlgebra.im_mul]
    dsimp only
    field_simp
    ring
  rw [QuadraticAlgebra.ext_iff,first,second]
  constructor
  · rintro ⟨same,_⟩
    rw [sub_eq_self,div_eq_zero_iff] at same
    have product := same.resolve_right nonzero
    simpa using product
  · rintro (none | none)
    · simp [none]
    · simp [none]

private theorem im_zero_of_star {z : Vec2f F} (real : star z = z) : z.im = 0 := by
  have negated := congrArg QuadraticAlgebra.im real
  rw [QuadraticAlgebra.im_star] at negated
  linarith

end Division

section Spectra

variable [LinearOrder F] [IsStrictOrderedRing F] [NeZero rows] [NeZero cols]
  (waves : Waves (Position rows cols) (Vec2f F)) (kernel : ShiftKernel rows cols F)

/-- The spectrum of a matrix that is even has no second channel. -/
theorem fftd_im {img : CvMat rows cols F} (even : ∀ p, img (-p) = img p) (u : Position rows cols) :
    (fftd waves img u).im = 0 := by
  apply im_zero_of_star
  apply waves.forward_real (star_merge img)
  intro p
  unfold merge
  rw [even]

variable (evenRows : rows % 2 = 0) (evenCols : cols % 2 = 0)

include evenRows evenCols

private theorem createGaussianPeak_im (math : PeakMath F) (u : Position rows cols) :
    (createGaussianPeak waves math u).im = 0 :=
  fftd_im waves (gaussianPeak_even evenRows evenCols math) u

private theorem regularized_im (x : Features rows cols F) (u : Position rows cols) :
    (regularized waves kernel x u).im = 0 := by
  have spectrum := fftd_im waves ((kernel.all_self x).even (middle_add_middle evenRows evenCols)) u
  simp [regularized,spectrum]

end Spectra

section Adapts

variable [NeZero rows] [NeZero cols] (waves : Waves (Position rows cols) (Vec2f F))
  (kernel : ShiftKernel rows cols F) (math : PeakMath F)

/-- The filter that train computes from one sample. -/
def solution (x : Features rows cols F) : CvMat rows cols (Vec2f F) :=
  complexDivision (createGaussianPeak waves math) (regularized waves kernel x)

/-- The template and the filter as averages of the samples up to one. -/
def averaged (samples : Nat → Features rows cols F) (last : Nat) : Filter rows cols F where
  tmpl := Average.upTo (interpFactor : F) samples last
  alphaf := Average.upTo (interpFactor : F) (fun i => solution waves kernel math (samples i)) last
  prob := createGaussianPeak waves math

private theorem init_averaged (samples : Nat → Features rows cols F) :
    Filter.init waves kernel math (samples 0) = averaged waves kernel math samples 0 := by
  unfold Filter.init Filter.train averaged
  simp only [Average.upTo_zero,sub_self,zero_smul,one_smul,zero_add]
  rfl

private theorem train_averaged (samples : Nat → Features rows cols F) (last : Nat) :
    (averaged waves kernel math samples last).train waves kernel (samples (last + 1)) interpFactor =
      averaged waves kernel math samples (last + 1) := by
  unfold Filter.train averaged
  simp only [Average.upTo_succ]
  rfl

variable [LinearOrder F] (minMaxLoc : MinMaxLoc rows cols F)

/-- Updates: detect with the filter so far, then train with the features at the new region. -/
def adapts : Machine.System (Filter rows cols F) (Frame rows cols F) (Detected F) where
  step filter frame :=
    some (filter.train waves kernel frame.after interpFactor,
      [detect waves kernel filter.alphaf minMaxLoc filter.tmpl frame.before])

/-- The detection of an update with the averages up to a sample. -/
def detectAveraged (samples : Nat → Features rows cols F) (last : Nat) (frame : Frame rows cols F) :
    Detected F :=
  detect waves kernel (averaged waves kernel math samples last).alphaf minMaxLoc
    (averaged waves kernel math samples last).tmpl frame.before

private theorem run_averaged (samples : Nat → Features rows cols F)
    (frames : List (Frame rows cols F))
    (last : Nat) (reads : ∀ i frame, frames[i]? = some frame → samples (last + 1 + i) = frame.after) :
    ∃ found, (adapts waves kernel minMaxLoc).run (averaged waves kernel math samples last) frames =
        some (averaged waves kernel math samples (last + frames.length),found) ∧
      ∀ i, found[i]? =
        frames[i]?.map (detectAveraged waves kernel math minMaxLoc samples (last + i)) := by
  induction frames generalizing last with
  | nil => exact ⟨[],rfl,fun i => rfl⟩
  | cons frame rest ih =>
    have now : samples (last + 1) = frame.after := reads 0 frame rfl
    obtain ⟨found,ran,detections⟩ := ih (last + 1) fun i frame read => by
      rw [Nat.add_right_comm]
      exact reads (i + 1) frame read
    have stepped : (adapts waves kernel minMaxLoc).step (averaged waves kernel math samples last)
        frame = some (averaged waves kernel math samples (last + 1),
          [detectAveraged waves kernel math minMaxLoc samples last frame]) := by
      rw [← train_averaged,now]
      rfl
    refine ⟨_,Machine.run_cons.mpr ⟨_,_,found,stepped,ran.trans ?_,rfl⟩,?_⟩
    · rw [List.length_cons,Nat.add_right_comm,Nat.add_assoc]
    · intro i
      cases i with
      | zero => rfl
      | succ i =>
        rw [List.singleton_append,List.getElem?_cons_succ,List.getElem?_cons_succ,detections,
          Nat.add_right_comm]
        rfl

variable [IsStrictOrderedRing F]

/-- What train solves for a sample: the filter is real, and with it the regularized spectrum
of the kernel gives back the peak. -/
structure Solves (x : Features rows cols F) (u : Position rows cols) : Prop where
  real : (solution waves kernel math x u).im = 0
  divides : (regularized waves kernel x u).re ≠ 0 →
    solution waves kernel math x u * regularized waves kernel x u = createGaussianPeak waves math u

private theorem solution_solves (evenRows : rows % 2 = 0) (evenCols : cols % 2 = 0)
    (x : Features rows cols F) (u : Position rows cols) : Solves waves kernel math x u where
  real := by
    simp [solution,complexDivision,createGaussianPeak_im waves evenRows evenCols,
      regularized_im waves kernel evenRows evenCols]
  divides nonzero := by
    have divisor := regularized_im waves kernel evenRows evenCols x u
    refine (complexDivision_mul_iff ?_).mpr (.inr divisor)
    rw [divisor,mul_zero,add_zero]
    exact mul_ne_zero nonzero nonzero

/-- In every run each update detects with the averages of the template and of the filters
over all samples so far, weighted with powers of the factor; and on even sides each of these
filters solves for its sample. -/
theorem filter_averages (evenRows : rows % 2 = 0) (evenCols : cols % 2 = 0)
    (samples : Nat → Features rows cols F) (frames : List (Frame rows cols F))
    (reads : ∀ i frame, frames[i]? = some frame → samples (i + 1) = frame.after) :
    (∃ found, (adapts waves kernel minMaxLoc).run (Filter.init waves kernel math (samples 0)) frames =
        some (averaged waves kernel math samples frames.length,found) ∧
      ∀ i, found[i]? = frames[i]?.map (detectAveraged waves kernel math minMaxLoc samples i)) ∧
    (∀ last, ∑ i ∈ Finset.range (last + 1), Average.weight (interpFactor : F) last i = 1 ∧
      ∀ i, 0 ≤ Average.weight (interpFactor : F) last i) ∧
    ∀ i u, Solves waves kernel math (samples i) u := by
  have factor : (0 : F) ≤ interpFactor ∧ (interpFactor : F) ≤ 1 := by
    unfold interpFactor
    constructor
    · positivity
    · norm_num
  refine ⟨?_,?_,?_⟩
  · rw [init_averaged]
    have ran := run_averaged waves kernel math minMaxLoc samples frames 0
    simp only [Nat.zero_add,Nat.add_comm 1] at ran
    exact ran reads
  · intro last
    exact ⟨Average.weight_sum _ last,Average.weight_nonneg factor.1 factor.2 last⟩
  · intro i u
    exact solution_solves waves kernel math evenRows evenCols (samples i) u

end Adapts

def roughMath : PeakMath Rat := ⟨fun t => 1 / (1 - t),fun t => (t + 1) / 3⟩

/-- A point that moves on by half of the patch in one frame. -/
def cornerSamples (i : Nat) : Features 4 4 Rat :=
  if i = 0 then corner 4 4 else (corner 4 4).moved (middle 4 4)

def cornerFrame : Frame 4 4 Rat := ⟨(corner 4 4).moved (middle 4 4),(corner 4 4).moved (middle 4 4)⟩

theorem filter_averages_frame : ∃ waves : Waves (Position 4 4) (Vec2f Rat),
    (∃ found, (adapts waves (roughKernel 4 4) (someMaxLoc 4 4)).run
        (Filter.init waves (roughKernel 4 4) roughMath (cornerSamples 0)) [cornerFrame] =
          some (averaged waves (roughKernel 4 4) roughMath cornerSamples 1,found) ∧
      ∀ i, found[i]? = [cornerFrame][i]?.map
        (detectAveraged waves (roughKernel 4 4) roughMath (someMaxLoc 4 4) cornerSamples i)) ∧
    (∀ last, ∑ i ∈ Finset.range (last + 1), Average.weight (interpFactor : Rat) last i = 1 ∧
      ∀ i, 0 ≤ Average.weight (interpFactor : Rat) last i) ∧
    ∀ i u, Solves waves (roughKernel 4 4) roughMath (cornerSamples i) u := by
  obtain ⟨waves⟩ := waves_four
  refine ⟨waves.prod waves,filter_averages (waves.prod waves) (roughKernel 4 4) roughMath
    (someMaxLoc 4 4) (by decide) (by decide) cornerSamples [cornerFrame] ?_⟩
  intro i frame read
  cases i with
  | zero =>
    obtain rfl : cornerFrame = frame := Option.some.inj read
    rfl
  | succ i => cases read

end VideoAnalytics.Tracker
