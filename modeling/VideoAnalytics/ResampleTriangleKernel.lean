import VideoAnalytics.ResampleTriangleBlocks

/-! What InterpolationKernel computes for a plane of fourfold size: the mean of an element and
its neighbours within the plane. -/
namespace VideoAnalytics.Resample
open Loop Memory Rounding

variable {F : Type} [Field F] [LinearOrder F] [IsStrictOrderedRing F] [FloorRing F]

section Axis

/-- The weight of a position of the window in one direction. -/
def insideWeight (size : Nat) (position : F) (x : Int) : F :=
  if 0 ≤ x ∧ x < size then triangleCoeff (position - x) else 0

private theorem triangleCoeff_quarter (column : Nat) (lane : Fin 4) (d : Int) (low : -2 ≤ d)
    (high : d ≤ 2) :
    triangleCoeff (samplePosition (1 / 4 : F) (1 / 4) (4 * column + lane) - ((column + d : Int) : F)) =
      if d = 0 then hereWeight lane else if d = near lane then nearWeight lane else 0 := by
  have distance : samplePosition (1 / 4 : F) (1 / 4) (4 * column + lane) - ((column + d : Int) : F) =
      (lane : Nat) / 4 - 3 / 8 - d := by
    rw [samplePosition_quarter]
    push_cast
    ring
  rw [distance,triangleCoeff_eq]
  interval_cases d <;> fin_cases lane <;> simp [near,hereWeight,nearWeight] <;> norm_num

/-- Of the five positions of the window the element counts, and the neighbour that is near. -/
theorem axis_sum {size column : Nat} (inside : column < size) (lane : Fin 4) (value : Int → F) :
    ∑ k ∈ Finset.range 5, insideWeight size
        (samplePosition (1 / 4 : F) (1 / 4) (4 * column + lane)) ((column : Int) - 2 + k) *
          value ((column : Int) - 2 + k) =
      besideWeight (column = 0) (column + 1 = size) lane * value (column + near lane) +
        hereWeight lane * value column := by
  have weight : ∀ d : Int, -2 ≤ d → d ≤ 2 → insideWeight size
      (samplePosition (1 / 4 : F) (1 / 4) (4 * column + lane)) (column + d) =
        if d = 0 then hereWeight lane
        else if d = near lane then besideWeight (column = 0) (column + 1 = size) lane else 0 := by
    intro d low high
    unfold insideWeight
    rw [triangleCoeff_quarter column lane d low high]
    by_cases here : d = 0
    · rw [if_pos here,if_pos here,if_pos (by omega)]
    · rw [if_neg here,if_neg here]
      by_cases beside : d = near lane
      · rw [if_pos beside,if_pos beside]
        have masked : ¬(0 ≤ (column : Int) + d ∧ (column : Int) + d < size) ↔
            column = 0 ∧ lane.val < 2 ∨ column + 1 = size ∧ ¬lane.val < 2 := by
          unfold near at beside
          by_cases first : lane.val < 2
          · rw [if_pos first] at beside
            simp only [first,not_true,and_true,and_false,or_false]
            omega
          · rw [if_neg first] at beside
            simp only [first,not_false_iff,and_true,and_false,false_or]
            omega
        unfold besideWeight
        rw [← ite_not]
        exact if_congr masked rfl rfl
      · rw [if_neg beside,if_neg beside,ite_self]
  have shifted : ∀ k : Nat, (column : Int) - 2 + k = column + ((k : Int) - 2) := by
    intro k
    omega
  simp only [shifted,Finset.sum_range_succ,Finset.sum_range_zero]
  rw [weight _ (by decide) (by decide),weight _ (by decide) (by decide),
    weight _ (by decide) (by decide),weight _ (by decide) (by decide),
    weight _ (by decide) (by decide)]
  unfold near
  by_cases first : lane.val < 2
  · simp [first]
  · simp [first]
    ring

end Axis

section Window

variable (src : Memory F) (iw ih inPtr : Nat) (ix iy : F)

omit [IsStrictOrderedRing F] in
private theorem addPixel_value (ax ay : F) (y x : Int) (sums : Sums F) :
    (addPixel src iw ih inPtr ix iy ax ay y x sums).sum = sums.sum +
      windowWeight iw ih ix iy ax ay y x * src (inPtr + (y.toNat * iw + x.toNat)) := by
  unfold addPixel windowWeight
  split
  · rw [zero_mul,add_zero]
  · rfl

omit [IsStrictOrderedRing F] in
private theorem windowWeight_axes (y x : Int) :
    windowWeight iw ih ix iy 1 1 y x = insideWeight ih iy y * insideWeight iw ix x := by
  unfold windowWeight insideWeight
  simp only [one_mul,mul_one]
  by_cases row : 0 ≤ y ∧ y < ih
  · by_cases column : 0 ≤ x ∧ x < iw
    · rw [if_neg (by omega),if_pos row,if_pos column,mul_comm]
    · rw [if_pos (by omega),if_neg column,mul_zero]
  · rw [if_pos (by omega),if_neg row,zero_mul]

/-- The window of an element as a sum over rows of sums over columns. -/
theorem window_axes {y x : Nat} (row : y < ih) (column : x < iw) (i lane : Fin 4)
    (value : Int → Int → F) :
    ∑ a ∈ Finset.range 5, ∑ b ∈ Finset.range 5, windowWeight iw ih
        (samplePosition (1 / 4 : F) (1 / 4) (4 * x + lane))
        (samplePosition (1 / 4 : F) (1 / 4) (4 * y + i)) 1 1 ((y : Int) - 2 + a) ((x : Int) - 2 + b) *
          value ((y : Int) - 2 + a) ((x : Int) - 2 + b) =
      besideWeight (y = 0) (y + 1 = ih) i *
          (besideWeight (x = 0) (x + 1 = iw) lane * value (y + near i) (x + near lane) +
            hereWeight lane * value (y + near i) x) +
        hereWeight i * (besideWeight (x = 0) (x + 1 = iw) lane * value y (x + near lane) +
          hereWeight lane * value y x) := by
  rw [← axis_sum column lane (value (y + near i)),← axis_sum column lane (value y),
    ← axis_sum row i fun y => ∑ b ∈ Finset.range 5, insideWeight iw
      (samplePosition (1 / 4 : F) (1 / 4) (4 * x + lane)) ((x : Int) - 2 + b) *
        value y ((x : Int) - 2 + b)]
  apply Finset.sum_congr rfl
  intro a _
  rw [Finset.mul_sum]
  apply Finset.sum_congr rfl
  intro b _
  rw [windowWeight_axes,mul_assoc]

end Window

section Pixel

omit [FloorRing F] in
theorem hereWeight_pos (lane : Fin 4) : (0 : F) < hereWeight lane := by
  fin_cases lane <;> norm_num [hereWeight]

omit [FloorRing F] in
private theorem besideWeight_nonneg (left right : Prop) [Decidable left] [Decidable right]
    (lane : Fin 4) : (0 : F) ≤ besideWeight left right lane := by
  unfold besideWeight
  split
  · exact le_rfl
  · fin_cases lane <;> norm_num [nearWeight]

omit [IsStrictOrderedRing F] in
private theorem kernelScale_plain (f : F) : kernelScale f false = 1 := by
  unfold kernelScale
  simp

private theorem kernelRadius_quarter (a : F) : kernelRadius (1 / 4 : F) a 2 = 2 := by
  unfold kernelRadius
  rw [Int.cast_one,if_pos (by norm_num)]

/-- A pixel of fourfold size is the mean of four elements, without those outside. -/
theorem interpolatedPixel_quarter (src : Memory F) (inPtr : Nat) {iw ih y x : Nat} (row : y < ih)
    (column : x < iw) (i lane : Fin 4) :
    (interpolatedPixel src iw ih (1 / 4 : F) (1 / 4) 2 false inPtr (4 * y + i) (4 * x + lane)).1 =
      mixed (besideWeight (y = 0) (y + 1 = ih) i) (besideWeight (x = 0) (x + 1 = iw) lane)
        (fun dy dx => src (inPtr + ((y + dy).toNat * iw + (x + dx).toNat))) i lane := by
  have across : FloatMath.round (samplePosition (1 / 4 : F) (1 / 4) (4 * x + lane)) = x :=
    round_quarter x lane.isLt
  have down : FloatMath.round (samplePosition (1 / 4 : F) (1 / 4) (4 * y + i)) = y :=
    round_quarter y i.isLt
  let r : F := besideWeight (y = 0) (y + 1 = ih) i
  let c : F := besideWeight (x = 0) (x + 1 = iw) lane
  let sums := windowSums src iw ih inPtr (samplePosition (1 / 4 : F) (1 / 4) (4 * x + lane))
    (samplePosition (1 / 4) (1 / 4) (4 * y + i)) 1 1 5 5 (y - 2) (x - 2)
  have sum : sums.sum = r * (c * src (inPtr + ((y + near i).toNat * iw + (x + near lane).toNat)) +
        hereWeight lane * src (inPtr + ((y + near i).toNat * iw + x))) +
      hereWeight i * (c * src (inPtr + (y * iw + (x + near lane).toNat)) +
        hereWeight lane * src (inPtr + (y * iw + x))) :=
    (windowSums_field src iw ih inPtr _ _ 1 1 Sums.sum _
      (addPixel_value src iw ih inPtr _ _ 1 1) Int.cast_zero 5 5 _ _).trans
      (window_axes iw ih row column i lane fun y x => src (inPtr + (y.toNat * iw + x.toNat)))
  have wsum : sums.wsum = (r + hereWeight i) * (c + hereWeight lane) := by
    have axes := window_axes (F := F) iw ih row column i lane fun _ _ => 1
    simp only [mul_one] at axes
    refine (windowSums_wsum src iw ih inPtr _ _ 1 1 5 5 _ _).trans (axes.trans ?_)
    ring
  have positive : 0 < (r + hereWeight i) * (c + hereWeight lane) :=
    mul_pos (add_pos_of_nonneg_of_pos (besideWeight_nonneg _ _ i) (hereWeight_pos i))
      (add_pos_of_nonneg_of_pos (besideWeight_nonneg _ _ lane) (hereWeight_pos lane))
  unfold interpolatedPixel
  dsimp only
  rw [across,down,kernelScale_plain,kernelRadius_quarter]
  show (if sums.wsum == ((0 : Int) : F) then ((0 : Int) : F) else sums.sum / sums.wsum) = _
  rw [if_neg (by rw [beq_iff_eq,wsum,Int.cast_zero]; exact positive.ne'),sum,wsum]
  unfold mixed
  simp only [add_zero,Int.toNat_natCast]
  congr 1
  ring

end Pixel

end VideoAnalytics.Resample
