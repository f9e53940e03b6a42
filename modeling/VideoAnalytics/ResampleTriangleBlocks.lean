import VideoAnalytics.ResampleTriangle
import Mathlib.Algebra.Module.Pi
import Mathlib.Tactic.LinearCombination

/-! What a block of Upsample4x_TriangleInterpolation stores: means of four neighbours, of which
those that are masked have no weight. -/
namespace VideoAnalytics.Resample
open Loop Memory Rounding

variable {F R : Type} [Field F]

/-- On which side of an element the neighbour of a quarter lies. -/
def near (quarter : Fin 4) : Int := if quarter.val < 2 then -1 else 1

def nearWeight : Fin 4 → F
  | 0 => 3 / 8
  | 1 => 1 / 8
  | 2 => 1 / 8
  | 3 => 3 / 8

def hereWeight : Fin 4 → F
  | 0 => 5 / 8
  | 1 => 7 / 8
  | 2 => 7 / 8
  | 3 => 5 / 8

/-- The weight of the neighbour, where one side or the other may be masked. -/
def besideWeight (left right : Prop) [Decidable left] [Decidable right] (quarter : Fin 4) : F :=
  if left ∧ quarter.val < 2 ∨ right ∧ ¬quarter.val < 2 then 0 else nearWeight quarter

/-- The mean of an element and its neighbours from their weights r and c by row and column. -/
def mixed (r c : F) (element : Int → Int → F) (i lane : Fin 4) : F :=
  (r * c * element (near i) (near lane) + r * hereWeight lane * element (near i) 0 +
      (hereWeight i * c * element 0 (near lane) + hereWeight i * hereWeight lane * element 0 0)) /
    ((r + hereWeight i) * (c + hereWeight lane))

/-- Only elements with weight count. -/
theorem mixed_congr {r c : F} {element other : Int → Int → F} {i lane : Fin 4}
    (corner : r * c * element (near i) (near lane) = r * c * other (near i) (near lane))
    (vertical : r * element (near i) 0 = r * other (near i) 0)
    (horizontal : c * element 0 (near lane) = c * other 0 (near lane))
    (center : element 0 0 = other 0 0) : mixed r c element i lane = mixed r c other i lane := by
  unfold mixed
  congr 1
  linear_combination corner + hereWeight lane * vertical + hereWeight i * horizontal +
    hereWeight i * hereWeight lane * center

/-- The weight of the upper of the two rows that are mixed, and of the lower one. -/
def upperWeight (i : Fin 4) : F := if i.val < 2 then nearWeight i else hereWeight i

def lowerWeight (i : Fin 4) : F := if i.val < 2 then hereWeight i else nearWeight i

def topWeight (rows : Rows) (i : Fin 4) : F := if rows = .first ∧ i.val < 2 then 0 else upperWeight i

def bottomWeight (rows : Rows) (i : Fin 4) : F :=
  if rows = .last ∧ ¬i.val < 2 then 0 else lowerWeight i

section Coefficients

private theorem coefficients_eq [AddCommGroup R] [Module F R] (rows : Rows) (i : Fin 4)
    {table : Fin 4 → R} {border : R → R} {beside here bordered : R}
    (upper : table 0 = (upperWeight i : F) • beside ∧ table 1 = (upperWeight i : F) • here)
    (lower : table 2 = (lowerWeight i : F) • beside ∧ table 3 = (lowerWeight i : F) • here)
    (borders : ∀ a : F, border (a • beside) = a • bordered) :
    coefficients rows i table border =
      ⟨(topWeight rows i : F) • bordered,(topWeight rows i : F) • here,
        (bottomWeight rows i : F) • bordered,(bottomWeight rows i : F) • here⟩ := by
  unfold coefficients topWeight bottomWeight
  rw [upper.1,upper.2,lower.1,lower.2]
  by_cases low : i.val < 2
  · have upper_rows : i < 2 := low
    have single : ¬i > 1 := by omega
    cases rows with
    | first => simp [low,upper_rows,single,borders]
    | middle => simp [borders]
    | last => simp [low,upper_rows,borders]
  · have lower_rows : ¬i < 2 := low
    have double : i > 1 := by omega
    cases rows with
    | first => simp [low,lower_rows,double,borders]
    | middle => simp [borders]
    | last => simp [low,lower_rows,borders]

variable [LinearOrder F] [IsStrictOrderedRing F]

/-- The tables hold the products of the weights of rows and columns. -/
theorem loadSse_upper (i : Fin 4) :
    loadSse i 0 = (upperWeight i : F) • (nearWeight : Lanes 4 F) ∧
      loadSse i 1 = (upperWeight i : F) • (hereWeight : Lanes 4 F) := by
  constructor <;>
    · ext lane
      fin_cases i <;> fin_cases lane <;>
        simp [loadSse,tableSse,upperWeight,nearWeight,hereWeight] <;> norm_num

private theorem loadSse_lower (i : Fin 4) :
    loadSse i 2 = (lowerWeight i : F) • (nearWeight : Lanes 4 F) ∧
      loadSse i 3 = (lowerWeight i : F) • (hereWeight : Lanes 4 F) := by
  constructor <;>
    · ext lane
      fin_cases i <;> fin_cases lane <;>
        simp [loadSse,tableSse,lowerWeight,nearWeight,hereWeight] <;> norm_num

omit [LinearOrder F] [IsStrictOrderedRing F] in
private theorem loadAvx2_eq (i row : Fin 4) : loadAvx2 i row = fun _ =>
    (loadSse i row : Lanes 4 F) := by
  ext half lane
  fin_cases i <;> fin_cases row <;> fin_cases half <;> fin_cases lane <;> rfl

end Coefficients

section Borders

variable (a : F) (ow ox : Nat)

private theorem shuffle_left : shufflePs (0 : Lanes 4 F) (a • nearWeight) 0xD0 =
    a • besideWeight True False := by
  ext lane
  fin_cases lane <;> simp [shufflePs,besideWeight,nearWeight]

private theorem shuffle_right : shufflePs (a • nearWeight) (0 : Lanes 4 F) 0x07 =
    a • besideWeight False True := by
  ext lane
  fin_cases lane <;> simp [shufflePs,besideWeight,nearWeight]

theorem besideWeight_congr {left right left' right' : Prop} [Decidable left] [Decidable right]
    [Decidable left'] [Decidable right'] (lefts : left ↔ left') (rights : right ↔ right') :
    (besideWeight left right : Lanes 4 F) = besideWeight left' right' := by
  ext lane
  simp only [besideWeight,lefts,rights]

private theorem besideWeight_unmasked {left right : Prop} [Decidable left] [Decidable right]
    (inner : ¬left) (middle : ¬right) : (besideWeight left right : Lanes 4 F) = nearWeight := by
  ext lane
  simp [besideWeight,inner,middle]

private theorem borderSse_eq : borderSse ow ox (a • nearWeight : Lanes 4 F) =
    a • besideWeight (ox = 0) (ox ≠ 0 ∧ (ox : Int) = ow - 4) := by
  unfold borderSse
  by_cases first : ox = 0
  · rw [if_pos first,shuffle_left]
    exact congrArg (a • ·) (besideWeight_congr (iff_of_true trivial first) (by simp [first]))
  · rw [if_neg first]
    by_cases last : (ox : Int) = ow - 4
    · rw [if_pos last,shuffle_right]
      exact congrArg (a • ·)
        (besideWeight_congr (iff_of_false id first) (iff_of_true trivial ⟨first,last⟩))
    · rw [if_neg last,besideWeight_unmasked first (mt And.right last)]

private theorem borderAvx2_eq : borderAvx2 ow ox (a • (fun _ => nearWeight : M256 F)) =
    a • (fun half => besideWeight (ox = 0 ∧ half = 0)
      ((ox ≠ 0 ∧ (ox : Int) = ow - 8) ∧ half = 1) : M256 F) := by
  have inside : ∀ half : Fin 2, (a • (fun _ => nearWeight : M256 F)) half = a • nearWeight :=
    fun half => rfl
  ext1 half
  show _ = a • besideWeight (ox = 0 ∧ half = 0) ((ox ≠ 0 ∧ (ox : Int) = ow - 8) ∧ half = 1)
  unfold borderAvx2 insertf128 extractf128
  rw [inside,inside,shuffle_left,shuffle_right]
  by_cases first : ox = 0
  · rw [if_pos first,Function.update_apply,inside]
    by_cases low : half = 0
    · rw [if_pos low]
      exact congrArg (a • ·) (besideWeight_congr (iff_of_true trivial ⟨first,low⟩) (by simp [first]))
    · rw [if_neg low,besideWeight_unmasked (mt And.right low) (by simp [first])]
  · rw [if_neg first]
    by_cases last : (ox : Int) = ow - 8
    · rw [if_pos last,Function.update_apply,inside]
      by_cases high : half = 1
      · rw [if_pos high]
        exact congrArg (a • ·) (besideWeight_congr (iff_of_false id (mt And.left first))
          (iff_of_true trivial ⟨⟨first,last⟩,high⟩))
      · rw [if_neg high,besideWeight_unmasked (mt And.left first) (mt And.right high)]
    · rw [if_neg last,inside,
        besideWeight_unmasked (mt And.left first) (mt (fun both => both.1.2) last)]

end Borders

section Results

variable [LinearOrder F] [IsStrictOrderedRing F] (rows : Rows) (ow ox : Nat)

private theorem coefficientsSse (i : Fin 4) : coefficients rows i (loadSse i) (borderSse ow ox) =
    (⟨(topWeight rows i : F) • besideWeight (ox = 0) (ox ≠ 0 ∧ (ox : Int) = ow - 4),
      (topWeight rows i : F) • hereWeight,
      (bottomWeight rows i : F) • besideWeight (ox = 0) (ox ≠ 0 ∧ (ox : Int) = ow - 4),
      (bottomWeight rows i : F) • hereWeight⟩ : Coefficients (Lanes 4 F)) :=
  coefficients_eq rows i (loadSse_upper i) (loadSse_lower i) fun a => borderSse_eq a ow ox

private theorem coefficientsAvx2 (i : Fin 4) : coefficients rows i (loadAvx2 i) (borderAvx2 ow ox) =
    (⟨(topWeight rows i : F) • (fun half =>
        besideWeight (ox = 0 ∧ half = 0) ((ox ≠ 0 ∧ (ox : Int) = ow - 8) ∧ half = 1)),
      (topWeight rows i : F) • (fun _ => hereWeight),
      (bottomWeight rows i : F) • (fun half =>
        besideWeight (ox = 0 ∧ half = 0) ((ox ≠ 0 ∧ (ox : Int) = ow - 8) ∧ half = 1)),
      (bottomWeight rows i : F) • (fun _ => hereWeight)⟩ : Coefficients (M256 F)) := by
  obtain ⟨first,second⟩ := loadSse_upper (F := F) i
  obtain ⟨third,fourth⟩ := loadSse_lower (F := F) i
  refine coefficients_eq rows i ⟨?_,?_⟩ ⟨?_,?_⟩ fun a => borderAvx2_eq a ow ox
  · rw [loadAvx2_eq,first]; rfl
  · rw [loadAvx2_eq,second]; rfl
  · rw [loadAvx2_eq,third]; rfl
  · rw [loadAvx2_eq,fourth]; rfl

/-- An element of one of the three rows that a block loads, unless that row is outside. -/
def sourceAt (element : Int → Int → F) (y : Nat) (x : Int) : F :=
  if rows = .first ∧ y = 0 ∨ rows = .last ∧ y = 2 then 0 else element (y - 1) x

def upperRow (i : Fin 4) : Nat := if i.val < 2 then 0 else 1

def lowerRow (i : Fin 4) : Nat := if i.val < 2 then 1 else 2

omit [Field F] [LinearOrder F] [IsStrictOrderedRing F] in
private theorem row_outside (y : Fin 3) : rows = .first ∧ y.val = 0 ∨ rows = .last ∧ y.val = 2 ↔
    rows = .first ∧ y = 0 ∨ rows = .last ∧ y = 2 :=
  or_congr (and_congr_right fun _ => (@Fin.ext_iff 3 y 0).symm)
    (and_congr_right fun _ => (@Fin.ext_iff 3 y 2).symm)

omit [LinearOrder F] [IsStrictOrderedRing F] in
private theorem spreadSse (element : Int → Int → F) (y : Fin 3) (lane : Fin 4) :
    shufflePs (sources rows (fun y x => loadSs (element y x)) y 0)
        (sources rows (fun y x => loadSs (element y x)) y 2) 0 lane =
      sourceAt rows element y (near lane) ∧
    shufflePs (sources rows (fun y x => loadSs (element y x)) y 1)
        (sources rows (fun y x => loadSs (element y x)) y 1) 0 lane =
      sourceAt rows element y 0 := by
  unfold sources sourceAt
  simp only [row_outside]
  split
  · simp [shufflePs]
  · fin_cases lane <;> simp [shufflePs,loadSs,near]

omit [LinearOrder F] [IsStrictOrderedRing F] in
private theorem spreadAvx2 (element : Int → Int → F) (y : Fin 3) (half : Fin 2) (lane : Fin 4) :
    shufflePs256
        (sources rows (fun y x => castps128 (loadSs (element y x)) (loadSs (element y (x + 1)))) y 0)
        (sources rows (fun y x => castps128 (loadSs (element y x)) (loadSs (element y (x + 1)))) y 2)
        0 half lane =
      sourceAt rows (fun y x => element y (x + half)) y (near lane) ∧
    shufflePs256
        (sources rows (fun y x => castps128 (loadSs (element y x)) (loadSs (element y (x + 1)))) y 1)
        (sources rows (fun y x => castps128 (loadSs (element y x)) (loadSs (element y (x + 1)))) y 1)
        0 half lane =
      sourceAt rows (fun y x => element y (x + half)) y 0 := by
  unfold sources sourceAt
  simp only [row_outside]
  split
  · simp [shufflePs256,shufflePs]
  · fin_cases half <;> fin_cases lane <;>
      simp [shufflePs256,shufflePs,castps128,insertf128,loadSs,near]

private theorem mixed_rows (element : Int → Int → F) (i lane : Fin 4) (c : F) :
    (sourceAt rows element (upperRow i) (near lane) * (topWeight rows i * c) +
          sourceAt rows element (upperRow i) 0 * (topWeight rows i * hereWeight lane) +
        (sourceAt rows element (lowerRow i) (near lane) * (bottomWeight rows i * c) +
          sourceAt rows element (lowerRow i) 0 * (bottomWeight rows i * hereWeight lane))) /
      (topWeight rows i * c + topWeight rows i * hereWeight lane +
        (bottomWeight rows i * c + bottomWeight rows i * hereWeight lane)) =
      mixed (besideWeight (rows = .first) (rows = .last) i) c element i lane := by
  unfold mixed
  by_cases low : i.val < 2
  · have top : (topWeight rows i : F) = besideWeight (rows = .first) (rows = .last) i := by
      simp [topWeight,upperWeight,besideWeight,low]
    have bottom : (bottomWeight rows i : F) = hereWeight i := by
      simp [bottomWeight,lowerWeight,low]
    have upper : ∀ x, topWeight rows i * sourceAt rows element (upperRow i) x =
        besideWeight (rows = .first) (rows = .last) i * element (near i) x := by
      intro x
      cases rows <;> simp [topWeight,upperWeight,besideWeight,sourceAt,upperRow,near,low]
    have lower : ∀ x, bottomWeight rows i * sourceAt rows element (lowerRow i) x =
        hereWeight i * element 0 x := by
      intro x
      cases rows <;> simp [bottomWeight,lowerWeight,sourceAt,lowerRow,low]
    congr 1
    · linear_combination c * upper (near lane) + hereWeight lane * upper 0 +
        c * lower (near lane) + hereWeight lane * lower 0
    · rw [top,bottom]
      ring
  · have top : (topWeight rows i : F) = hereWeight i := by
      simp [topWeight,upperWeight,low]
    have bottom : (bottomWeight rows i : F) = besideWeight (rows = .first) (rows = .last) i := by
      simp [bottomWeight,lowerWeight,besideWeight,low]
    have upper : ∀ x, topWeight rows i * sourceAt rows element (upperRow i) x =
        hereWeight i * element 0 x := by
      intro x
      cases rows <;> simp [topWeight,upperWeight,sourceAt,upperRow,low]
    have lower : ∀ x, bottomWeight rows i * sourceAt rows element (lowerRow i) x =
        besideWeight (rows = .first) (rows = .last) i * element (near i) x := by
      intro x
      cases rows <;> simp [bottomWeight,lowerWeight,besideWeight,sourceAt,lowerRow,near,low]
    congr 1
    · linear_combination c * upper (near lane) + hereWeight lane * upper 0 +
        c * lower (near lane) + hereWeight lane * lower 0
    · rw [top,bottom]
      ring

/-- Unmasked weights add up to one. -/
theorem weights_total (lane : Fin 4) : (nearWeight lane + hereWeight lane : F) = 1 := by
  fin_cases lane <;> norm_num [nearWeight,hereWeight]

private theorem middle_total (i lane : Fin 4) {c : F} (unmasked : c = nearWeight lane) :
    topWeight .middle i * c + topWeight .middle i * hereWeight lane +
      (bottomWeight .middle i * c + bottomWeight .middle i * hereWeight lane) = 1 := by
  have rows : (topWeight .middle i + bottomWeight .middle i : F) = 1 := by
    rw [← weights_total i]
    by_cases low : i.val < 2
    · simp [topWeight,bottomWeight,upperWeight,lowerWeight,low]
    · simp [topWeight,bottomWeight,upperWeight,lowerWeight,low,add_comm]
  have columns := weights_total (F := F) lane
  rw [unmasked]
  linear_combination (nearWeight lane + hereWeight lane) * rows + columns

omit [Field F] [LinearOrder F] [IsStrictOrderedRing F] in
private theorem select_rows (i : Fin 4) (pick : Fin 3 → R) (lane : R → F) (value : Nat → F)
    (same : ∀ y, lane (pick y) = value y) :
    lane (if i < 2 then pick 0 else pick 1) = value (upperRow i) ∧
      lane (if i < 2 then pick 1 else pick 2) = value (lowerRow i) := by
  unfold upperRow lowerRow
  by_cases low : i.val < 2
  · rw [if_pos low,if_pos low,if_pos (show i < 2 from low),if_pos (show i < 2 from low)]
    exact ⟨same 0,same 1⟩
  · rw [if_neg low,if_neg low,if_neg (show ¬i < 2 from low),if_neg (show ¬i < 2 from low)]
    exact ⟨same 1,same 2⟩

theorem resultSse_eq (element : Int → Int → F) (i lane : Fin 4) :
    resultSse rows ow ox element i lane = mixed (besideWeight (rows = .first) (rows = .last) i)
      (besideWeight (ox = 0) (ox ≠ 0 ∧ (ox : Int) = ow - 4) lane) element i lane := by
  let vx := sources rows fun y x => loadSs (element y x)
  have spread (y : Fin 3) := spreadSse rows element y lane
  obtain ⟨vsrc0,vsrc2⟩ := select_rows i (fun y => shufflePs (vx y 0) (vx y 2) 0) (· lane)
    (fun y => sourceAt rows element y (near lane)) fun y => (spread y).1
  obtain ⟨vsrc1,vsrc3⟩ := select_rows i (fun y => shufflePs (vx y 1) (vx y 1) 0) (· lane)
    (fun y => sourceAt rows element y 0) fun y => (spread y).2
  rw [← mixed_rows]
  unfold resultSse
  rw [coefficientsSse]
  split
  · simp only [Pi.div_apply,Pi.add_apply,Pi.mul_apply,Pi.smul_apply,smul_eq_mul]
    rw [vsrc0,vsrc1,vsrc2,vsrc3]
  · next inner =>
    obtain ⟨middle,later,before⟩ : rows = .middle ∧ ox ≠ 0 ∧ ¬(ox : Int) = ow - 4 := by
      simpa only [not_or,not_not] using inner
    have unmasked : besideWeight (ox = 0) (ox ≠ 0 ∧ (ox : Int) = ow - 4) lane = (nearWeight lane : F) :=
      congrFun (besideWeight_unmasked later (mt And.right before)) lane
    subst middle
    rw [middle_total i lane unmasked,div_one]
    simp only [Pi.add_apply,Pi.mul_apply,Pi.smul_apply,smul_eq_mul]
    rw [vsrc0,vsrc1,vsrc2,vsrc3]

theorem resultAvx2_eq (element : Int → Int → F) (i : Fin 4) (half : Fin 2) (lane : Fin 4) :
    resultAvx2 rows ow ox element i half lane = mixed (besideWeight (rows = .first) (rows = .last) i)
      (besideWeight (ox = 0 ∧ half = 0) ((ox ≠ 0 ∧ (ox : Int) = ow - 8) ∧ half = 1) lane)
      (fun y x => element y (x + half)) i lane := by
  let vx := sources rows fun y x => castps128 (loadSs (element y x)) (loadSs (element y (x + 1)))
  have spread (y : Fin 3) := spreadAvx2 rows element y half lane
  obtain ⟨vsrc0,vsrc2⟩ := select_rows i (fun y => shufflePs256 (vx y 0) (vx y 2) 0) (· half lane)
    (fun y => sourceAt rows (fun y x => element y (x + half)) y (near lane)) fun y => (spread y).1
  obtain ⟨vsrc1,vsrc3⟩ := select_rows i (fun y => shufflePs256 (vx y 1) (vx y 1) 0) (· half lane)
    (fun y => sourceAt rows (fun y x => element y (x + half)) y 0) fun y => (spread y).2
  rw [← mixed_rows]
  unfold resultAvx2
  rw [coefficientsAvx2]
  have ordered : ∀ a b c d : F, d + (c + (b + (a + 0))) = a + b + (c + d) := by
    intro a b c d
    ring
  split
  · simp only [Pi.div_apply,Pi.add_apply,Pi.mul_apply,Pi.smul_apply,Pi.zero_apply,smul_eq_mul,ordered]
    rw [vsrc0,vsrc1,vsrc2,vsrc3]
  · next inner =>
    obtain ⟨middle,later,before⟩ : rows = .middle ∧ ox ≠ 0 ∧ ¬(ox : Int) = ow - 8 := by
      simpa only [not_or,not_not] using inner
    have unmasked : besideWeight (ox = 0 ∧ half = 0) ((ox ≠ 0 ∧ (ox : Int) = ow - 8) ∧ half = 1) lane =
        (nearWeight lane : F) :=
      congrFun (besideWeight_unmasked (mt And.left later) (mt (fun both => both.1.2) before)) lane
    subst middle
    rw [middle_total i lane unmasked,div_one]
    simp only [Pi.add_apply,Pi.mul_apply,Pi.smul_apply,Pi.zero_apply,smul_eq_mul,ordered]
    rw [vsrc0,vsrc1,vsrc2,vsrc3]

end Results

end VideoAnalytics.Resample
