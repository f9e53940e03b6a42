import VideoAnalytics.ResamplePixels
import Mathlib.Algebra.BigOperators.Ring.Finset
import Mathlib.Algebra.Order.BigOperators.Group.Finset
import Mathlib.Tactic.FieldSimp
import Mathlib.Tactic.Positivity

/-! The window of InterpolationKernel in exact arithmetic: over a constant plane its mean
is that constant, unless all weights are zero. -/
namespace VideoAnalytics.Resample
open Loop Memory Rounding

variable {F : Type}

private theorem forLoop_total [AddCommMonoid F] (count : Nat) (summand : Nat → F) (initial : F) :
    forLoop count (fun i total => total + summand i) initial =
      initial + ∑ i ∈ Finset.range count, summand i := by
  induction count with
  | zero => simp [forLoop]
  | succ count ih =>
    unfold forLoop
    dsimp only
    rw [ih,Finset.sum_range_succ,add_assoc]

variable [Field F] [LinearOrder F] [FloorRing F]

theorem triangleCoeff_eq (x : F) : triangleCoeff x = max 0 (1 - |x|) := by
  unfold triangleCoeff
  rw [stdMax_eq,Int.cast_zero,Int.cast_one]
  rfl

section Window

variable (src : Memory F) (iw ih inPtr : Nat) (ix iy ax ay : F)

def windowWeight (y x : Int) : F :=
  if y < 0 ∨ x < 0 ∨ y ≥ (ih : Int) ∨ x ≥ (iw : Int) then 0
  else ax * triangleCoeff (ax * (ix - x)) * ay * triangleCoeff (ay * (iy - y))

private theorem addPixel_wsum (y x : Int) (sums : Sums F) :
    (addPixel src iw ih inPtr ix iy ax ay y x sums).wsum =
      sums.wsum + windowWeight iw ih ix iy ax ay y x := by
  unfold addPixel windowWeight
  split
  · rw [add_zero]
  · rfl

private theorem addPixel_sum {v : F} (constant : ∀ i, i < ih * iw → src (inPtr + i) = v) (y x : Int)
    (sums : Sums F) :
    (addPixel src iw ih inPtr ix iy ax ay y x sums).sum =
      sums.sum + windowWeight iw ih ix iy ax ay y x * v := by
  unfold addPixel windowWeight
  split
  · rw [zero_mul,add_zero]
  · next inside =>
    have cell : y.toNat * iw + x.toNat < ih * iw := cell_within (by omega) (by omega)
    dsimp only
    rw [constant _ cell]

private theorem addPixel_reads (y x : Int) (sums : Sums F)
    (before : ∀ address ∈ sums.reads, WithinPlane iw ih (inPtr,address)) :
    ∀ address ∈ (addPixel src iw ih inPtr ix iy ax ay y x sums).reads,
      WithinPlane iw ih (inPtr,address) := by
  unfold addPixel
  split
  · exact before
  · next inside =>
    have cell : y.toNat * iw + x.toNat < ih * iw := cell_within (by omega) (by omega)
    intro address fetched
    rcases List.mem_append.mp fetched with old | new
    · exact before address old
    · obtain rfl := List.mem_singleton.mp new
      exact ⟨Nat.le_add_right _ _,Nat.add_lt_add_left cell _⟩

/-- The positions of the window in the order of the loops, and what is left behind. -/
def windowSums (rows cols : Nat) (top left : Int) : Sums F :=
  forLoop rows (fun y => forLoop cols fun x =>
    addPixel src iw ih inPtr ix iy ax ay (top + y) (left + x)) ⟨((0 : Int) : F),((0 : Int) : F),[]⟩

def windowTotal (rows cols : Nat) (top left : Int) : F :=
  ∑ y ∈ Finset.range rows, ∑ x ∈ Finset.range cols,
    windowWeight iw ih ix iy ax ay (top + y) (left + x)

theorem windowSums_field (field : Sums F → F) (summand : Int → Int → F)
    (adds : ∀ y x sums, field (addPixel src iw ih inPtr ix iy ax ay y x sums) =
      field sums + summand y x)
    (starts : field ⟨((0 : Int) : F),((0 : Int) : F),[]⟩ = 0) (rows cols : Nat) (top left : Int) :
    field (windowSums src iw ih inPtr ix iy ax ay rows cols top left) =
      ∑ y ∈ Finset.range rows, ∑ x ∈ Finset.range cols, summand (top + y) (left + x) := by
  unfold windowSums
  rw [forLoop_map field rows _ fun y total =>
    total + ∑ x ∈ Finset.range cols, summand (top + y) (left + x)]
  · rw [forLoop_total,starts,zero_add]
  · intro y sums
    rw [forLoop_map field cols _ fun x total => total + summand (top + y) (left + x)]
    · rw [forLoop_total]
    · intro x sums
      exact adds (top + y) (left + x) sums

theorem windowSums_wsum (rows cols : Nat) (top left : Int) :
    (windowSums src iw ih inPtr ix iy ax ay rows cols top left).wsum =
      windowTotal iw ih ix iy ax ay rows cols top left :=
  windowSums_field src iw ih inPtr ix iy ax ay Sums.wsum (windowWeight iw ih ix iy ax ay)
    (addPixel_wsum src iw ih inPtr ix iy ax ay) Int.cast_zero rows cols top left

private theorem windowSums_sum {v : F} (constant : ∀ i, i < ih * iw → src (inPtr + i) = v)
    (rows cols : Nat) (top left : Int) :
    (windowSums src iw ih inPtr ix iy ax ay rows cols top left).sum =
      windowTotal iw ih ix iy ax ay rows cols top left * v := by
  unfold windowTotal
  simp only [Finset.sum_mul]
  exact windowSums_field src iw ih inPtr ix iy ax ay Sums.sum
    (fun y x => windowWeight iw ih ix iy ax ay y x * v)
    (addPixel_sum src iw ih inPtr ix iy ax ay constant) Int.cast_zero rows cols top left

private theorem windowSums_reads (rows cols : Nat) (top left : Int) :
    ∀ address ∈ (windowSums src iw ih inPtr ix iy ax ay rows cols top left).reads,
      WithinPlane iw ih (inPtr,address) := by
  apply forLoop_induct fun _ (sums : Sums F) => ∀ address ∈ sums.reads,
    WithinPlane iw ih (inPtr,address)
  · intro address fetched
    cases fetched
  · intro y sums _ before
    apply forLoop_induct fun _ (sums : Sums F) => ∀ address ∈ sums.reads,
      WithinPlane iw ih (inPtr,address)
    · exact before
    · intro x sums _ earlier
      exact addPixel_reads src iw ih inPtr ix iy ax ay (top + y) (left + x) sums earlier

end Window

section Support

variable [IsStrictOrderedRing F]

/-- How far a position of the input counts for a pixel. -/
def support (f : F) (antialias : Bool) : F := if antialias then f else 1

/-- Some column counts for a sampling position. -/
def Reaches (position support : F) (width : Nat) : Prop :=
  ∃ x : Nat, x < width ∧ |position - x| < support

omit [FloorRing F] in
private theorem support_pos {f : F} (positive : 0 < f) (antialias : Bool) :
    0 < support f antialias := by
  unfold support
  split
  · exact positive
  · exact one_pos

omit [FloorRing F] [IsStrictOrderedRing F] in
private theorem kernelScale_eq (f : F) (antialias : Bool) :
    kernelScale f antialias = 1 / support f antialias := by
  unfold kernelScale support
  rw [Int.cast_one]

def axisWeight (f : F) (antialias : Bool) (position : F) (x : Int) : F :=
  kernelScale f antialias * triangleCoeff (kernelScale f antialias * (position - x))

private theorem axisWeight_nonneg {f : F} {antialias : Bool} (positive : 0 < support f antialias)
    (position : F) (x : Int) : 0 ≤ axisWeight f antialias position x := by
  unfold axisWeight
  rw [kernelScale_eq,triangleCoeff_eq]
  positivity

private theorem axisWeight_pos {f : F} {antialias : Bool} (positive : 0 < support f antialias)
    (position : F) (x : Int) :
    0 < axisWeight f antialias position x ↔ |position - x| < support f antialias := by
  have above : 0 < kernelScale f antialias := by
    rw [kernelScale_eq]
    positivity
  unfold axisWeight
  rw [mul_pos_iff_of_pos_left above,triangleCoeff_eq,lt_max_iff,abs_mul,abs_of_pos above,
    kernelScale_eq,or_iff_right (lt_irrefl 0),sub_pos,one_div_mul_eq_div,div_lt_one positive]

section Totals

variable {fx fy : F} {antialias : Bool} (iw ih : Nat) (ix iy : F)
  (xPositive : 0 < support fx antialias) (yPositive : 0 < support fy antialias)
include xPositive yPositive

private theorem windowWeight_nonneg (y x : Int) :
    0 ≤ windowWeight iw ih ix iy (kernelScale fx antialias) (kernelScale fy antialias) y x := by
  unfold windowWeight
  split
  · exact le_rfl
  · rw [mul_assoc]
    exact mul_nonneg (axisWeight_nonneg xPositive ix x) (axisWeight_nonneg yPositive iy y)

private theorem windowWeight_eq_zero (y x : Int) :
    windowWeight iw ih ix iy (kernelScale fx antialias) (kernelScale fy antialias) y x = 0 ↔
      ¬((0 ≤ x ∧ x < iw ∧ |ix - x| < support fx antialias) ∧
        0 ≤ y ∧ y < ih ∧ |iy - y| < support fy antialias) := by
  unfold windowWeight
  split
  · next outside =>
    simp only [true_iff]
    intro inside
    omega
  · next inside =>
    have columns : 0 ≤ x ∧ x < iw := by omega
    have rows : 0 ≤ y ∧ y < ih := by omega
    have horizontal := (axisWeight_nonneg xPositive ix x).lt_iff_ne
    have vertical := (axisWeight_nonneg yPositive iy y).lt_iff_ne
    rw [mul_assoc,← axisWeight_pos xPositive,← axisWeight_pos yPositive,horizontal,vertical]
    change axisWeight fx antialias ix x * axisWeight fy antialias iy y = 0 ↔ _
    simp only [columns,rows,true_and,not_and_or,not_ne_iff,mul_eq_zero]
    exact or_congr eq_comm eq_comm

/-- All weights of a window are zero if and only if no position in it counts. -/
theorem windowTotal_eq_zero (rows cols : Nat) (top left : Int) :
    windowTotal iw ih ix iy (kernelScale fx antialias) (kernelScale fy antialias) rows cols top left
        = 0 ↔
      ∀ y, y < rows → ∀ x, x < cols →
        windowWeight iw ih ix iy (kernelScale fx antialias) (kernelScale fy antialias) (top + y)
          (left + x) = 0 := by
  have nonneg := windowWeight_nonneg iw ih ix iy xPositive yPositive
  unfold windowTotal
  rw [Finset.sum_eq_zero_iff_of_nonneg fun y _ => Finset.sum_nonneg fun x _ => nonneg _ _]
  simp only [Finset.mem_range]
  apply forall₂_congr
  intro y _
  rw [Finset.sum_eq_zero_iff_of_nonneg fun x _ => nonneg _ _]
  simp only [Finset.mem_range]

end Totals

private theorem kernelRadius_covers {f : F} (antialias : Bool) (positive : 0 < f) :
    1 / 2 + support f antialias ≤ (kernelRadius f (kernelScale f antialias) 2 : F) := by
  have small : support f antialias ≤ max f 1 := by
    unfold support
    split
    · exact le_max_left _ _
    · exact le_max_right _ _
  have large : 1 ≤ f → 1 ≤ support f antialias := by
    intro above
    unfold support
    split
    · exact above
    · exact le_rfl
  unfold kernelRadius
  rw [Int.cast_one]
  split
  · next below =>
    rw [max_eq_right below.le] at small
    push_cast
    linarith
  · next above =>
    have one := large (not_lt.mp above)
    have ceil := Int.le_ceil (2 * support f antialias)
    have width : (((2 : Nat) : Int) : F) / kernelScale f antialias = 2 * support f antialias := by
      rw [kernelScale_eq,div_div_eq_mul_div,div_one]
      push_cast
      rfl
    rw [width]
    exact le_trans (by linarith) ceil

section Pixel

private theorem window_position {center radius x : Int} (near : |center - x| ≤ radius) :
    ∃ i : Nat, i < (2 * radius + 1).toNat ∧ center - radius + i = x := by
  rw [abs_le] at near
  exact ⟨(x - (center - radius)).toNat,by omega,by omega⟩

private theorem counts_near {f position : F} {antialias : Bool} (positive : 0 < f) {x : Int}
    (counts : |position - x| < support f antialias) :
    |roundAway position - x| ≤ kernelRadius f (kernelScale f antialias) 2 := by
  have covers := kernelRadius_covers antialias positive
  have rounded := roundAway_near position
  have near : |((roundAway position - x : Int) : F)| < kernelRadius f (kernelScale f antialias) 2 :=
    calc |((roundAway position - x : Int) : F)| = |(roundAway position : F) - x| := by push_cast; rfl
      _ ≤ |(roundAway position : F) - position| + |position - x| := abs_sub_le _ _ _
      _ = |position - roundAway position| + |position - x| := by rw [abs_sub_comm]
      _ < 1 / 2 + support f antialias := add_lt_add_of_le_of_lt rounded counts
      _ ≤ kernelRadius f (kernelScale f antialias) 2 := covers
  rw [← Int.cast_abs] at near
  exact (Int.cast_lt.mp near).le

variable (iw ih oy ox : Nat) (fx fy : F) (antialias : Bool)

def pixelTotal : F :=
  let rx := kernelRadius fx (kernelScale fx antialias) 2
  let ry := kernelRadius fy (kernelScale fy antialias) 2
  windowTotal iw ih (samplePosition fx fy ox) (samplePosition fy fx oy) (kernelScale fx antialias)
    (kernelScale fy antialias) (2 * ry + 1).toNat (2 * rx + 1).toNat
    (roundAway (samplePosition fy fx oy) - ry) (roundAway (samplePosition fx fy ox) - rx)

omit [IsStrictOrderedRing F] in
theorem interpolatedPixel_value (src : Memory F) (inPtr : Nat) {v : F}
    (constant : ∀ i, i < ih * iw → src (inPtr + i) = v) :
    (interpolatedPixel src iw ih fx fy 2 antialias inPtr oy ox).1 =
      if pixelTotal iw ih oy ox fx fy antialias = 0 then 0 else v := by
  have total := windowSums_wsum src iw ih inPtr (samplePosition fx fy ox) (samplePosition fy fx oy)
    (kernelScale fx antialias) (kernelScale fy antialias)
  have sum := windowSums_sum src iw ih inPtr (samplePosition fx fy ox) (samplePosition fy fx oy)
    (kernelScale fx antialias) (kernelScale fy antialias) constant
  unfold windowSums at total sum
  unfold interpolatedPixel
  dsimp only
  rw [total,sum]
  change (if pixelTotal iw ih oy ox fx fy antialias == ((0 : Int) : F) then ((0 : Int) : F)
    else pixelTotal iw ih oy ox fx fy antialias * v / pixelTotal iw ih oy ox fx fy antialias) = _
  rw [Int.cast_zero]
  by_cases zero : pixelTotal iw ih oy ox fx fy antialias = 0
  · rw [if_pos (beq_iff_eq.mpr zero),if_pos zero]
  · rw [if_neg (mt beq_iff_eq.mp zero),if_neg zero,mul_div_cancel_left₀ v zero]

omit [IsStrictOrderedRing F] in
theorem interpolatedPixel_reads (src : Memory F) (inPtr : Nat) :
    ∀ address ∈ (interpolatedPixel src iw ih fx fy 2 antialias inPtr oy ox).2,
      WithinPlane iw ih (inPtr,address) :=
  windowSums_reads src iw ih inPtr _ _ _ _ _ _ _ _

/-- A pixel has weight if and only if its sampling position is reached in both directions. -/
theorem pixelTotal_eq_zero {fx fy : F} (xPositive : 0 < fx) (yPositive : 0 < fy) :
    pixelTotal iw ih oy ox fx fy antialias = 0 ↔
      ¬(Reaches (samplePosition fx fy ox) (support fx antialias) iw ∧
        Reaches (samplePosition fy fx oy) (support fy antialias) ih) := by
  have xSupport := support_pos xPositive antialias
  have ySupport := support_pos yPositive antialias
  unfold pixelTotal
  dsimp only
  rw [windowTotal_eq_zero iw ih _ _ xSupport ySupport]
  simp only [windowWeight_eq_zero iw ih _ _ xSupport ySupport]
  constructor
  · intro zero reached
    obtain ⟨⟨x,column,across⟩,y,row,down⟩ := reached
    rw [← Int.cast_natCast] at across down
    obtain ⟨i,right,left⟩ := window_position (counts_near xPositive across)
    obtain ⟨j,bottom,top⟩ := window_position (counts_near yPositive down)
    have none := zero j bottom i right
    rw [left,top] at none
    exact none ⟨⟨by omega,by omega,across⟩,by omega,by omega,down⟩
  · intro missed j _ i _ counts
    obtain ⟨⟨left,right,across⟩,top,bottom,down⟩ := counts
    apply missed
    constructor
    · refine ⟨_,(Int.toNat_lt left).mpr right,?_⟩
      rwa [← Int.cast_natCast,Int.toNat_of_nonneg left]
    · refine ⟨_,(Int.toNat_lt top).mpr bottom,?_⟩
      rwa [← Int.cast_natCast,Int.toNat_of_nonneg top]

end Pixel

end Support

end VideoAnalytics.Resample
