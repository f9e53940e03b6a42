import VideoAnalytics.DetectionOutputDecode
import Mathlib.Algebra.Order.Field.Basic
import Mathlib.Tactic.Linarith

/-! JaccardOverlap as a measure, in exact arithmetic: on all boxes whose sizes are those
that decodeBBoxes stores, inverted and degenerate ones among them. -/
namespace VideoAnalytics.DetectionOutput
open Loop Memory

section Division

variable {F : Type} [FloatType F]

def boxAt (bboxes : Memory F) (p : Nat) : Bbox F :=
  ⟨bboxes (p * 4 + 0),bboxes (p * 4 + 1),bboxes (p * 4 + 2),bboxes (p * 4 + 3)⟩

/-- The size of a prior is the one that decodeBBoxes computes, not clamped. -/
def Sized (bboxes sizes : Memory F) (p : Nat) : Prop := sizes p = (boxAt bboxes p).size

def Bbox.intersect (a b : Bbox F) : Bbox F :=
  ⟨stdMax a.xmin b.xmin,stdMax a.ymin b.ymin,stdMin a.xmax b.xmax,stdMin a.ymax b.ymax⟩

/-- JaccardOverlap returns neither because the boxes are apart nor because their
intersection has no extent. -/
structure Divides (a b : Bbox F) : Prop where
  meet : ¬(b.xmin > a.xmax ∨ b.xmax < a.xmin ∨ b.ymin > a.ymax ∨ b.ymax < a.ymin)
  extent : ¬((a.intersect b).xmax - (a.intersect b).xmin ≤ ((0 : Int) : F) ∨
    (a.intersect b).ymax - (a.intersect b).ymin ≤ ((0 : Int) : F))

def divisor (bboxes sizes : Memory F) (i j : Nat) : F :=
  sizes i + sizes j - ((boxAt bboxes i).intersect (boxAt bboxes j)).size

private theorem jaccardOverlap_divides {bboxes sizes : Memory F} {i j : Nat}
    (divides : Divides (boxAt bboxes i) (boxAt bboxes j)) :
    jaccardOverlap bboxes sizes i j =
      ((boxAt bboxes i).intersect (boxAt bboxes j)).size / divisor bboxes sizes i j := by
  have meet := divides.meet
  unfold boxAt at meet
  unfold jaccardOverlap
  dsimp only
  rw [if_neg meet]
  exact if_neg divides.extent

private theorem jaccardOverlap_returns {bboxes sizes : Memory F} {i j : Nat}
    (returns : ¬Divides (boxAt bboxes i) (boxAt bboxes j)) :
    jaccardOverlap bboxes sizes i j = ((0 : Int) : F) := by
  unfold jaccardOverlap
  dsimp only
  split
  · rfl
  · next meet =>
    split
    · rfl
    · next extent => exact absurd ⟨meet,extent⟩ returns

end Division

section Exact

variable {F : Type} [Field F] [LinearOrder F]

private theorem Bbox.intersect_comm (a b : Bbox F) : a.intersect b = b.intersect a := by
  unfold Bbox.intersect
  simp only [stdMax_eq,stdMin_eq,max_comm,min_comm]

private theorem divides_comm {a b : Bbox F} (divides : Divides a b) : Divides b a where
  meet apart := divides.meet (by tauto)
  extent := by
    rw [b.intersect_comm a]
    exact divides.extent

variable [IsStrictOrderedRing F]

/-- Sides of an intersection are no longer than those of the boxes, and equal to both
only where the boxes have the same ends. -/
theorem side_le (low high low' high' : F) :
    min high high' - max low low' ≤ high - low ∧ min high high' - max low low' ≤ high' - low' := by
  have left := le_max_left low low'
  have right := le_max_right low low'
  have first := min_le_left high high'
  have second := min_le_right high high'
  constructor
  · linarith
  · linarith

private theorem side_tight {low high low' high' : F}
    (own : min high high' - max low low' = high - low)
    (other : min high high' - max low low' = high' - low') : low = low' ∧ high = high' := by
  have left := le_max_left low low'
  have right := le_max_right low low'
  have first := min_le_left high high'
  have second := min_le_right high high'
  constructor
  · linarith
  · linarith

private theorem product_tight {a b c d : F} (below : a ≤ b) (under : c ≤ d) (some : 0 < a)
    (more : 0 < c) (same : a * c = b * d) : a = b ∧ c = d := by
  have first : a * c ≤ b * c := mul_le_mul_of_nonneg_right below more.le
  have second : b * c ≤ b * d := mul_le_mul_of_nonneg_left under (some.trans_le below).le
  constructor
  · exact mul_right_cancel₀ more.ne' (le_antisymm first (by linarith))
  · exact mul_left_cancel₀ (some.trans_le below).ne' (le_antisymm second (by linarith))

/-- A box whose ends are in order along both axes. -/
structure Bbox.Proper (box : Bbox F) : Prop where
  wide : 0 < box.xmax - box.xmin
  high : 0 < box.ymax - box.ymin

private theorem Bbox.Proper.size_pos {box : Bbox F} (proper : box.Proper) : 0 < box.size :=
  mul_pos proper.wide proper.high

omit [IsStrictOrderedRing F] in
private theorem Divides.intersect_proper {a b : Bbox F} (divides : Divides a b) :
    (a.intersect b).Proper := by
  have extent := divides.extent
  rw [not_or,not_le,not_le,Int.cast_zero] at extent
  exact ⟨extent.1,extent.2⟩

/-- Past the early returns neither box is inverted and each contains the intersection. -/
theorem Divides.size_le {a b : Bbox F} (divides : Divides a b) :
    (a.intersect b).size ≤ a.size ∧ (a.intersect b).size ≤ b.size := by
  have proper := divides.intersect_proper
  have wide := proper.wide
  have high := proper.high
  obtain ⟨widthA,widthB⟩ := side_le a.xmin a.xmax b.xmin b.xmax
  obtain ⟨heightA,heightB⟩ := side_le a.ymin a.ymax b.ymin b.ymax
  unfold Bbox.intersect at wide high
  unfold Bbox.intersect Bbox.size
  simp only [stdMax_eq,stdMin_eq] at wide high ⊢
  constructor
  · exact mul_le_mul widthA heightA high.le (wide.le.trans widthA)
  · exact mul_le_mul widthB heightB high.le (wide.le.trans widthB)

private theorem Divides.eq_of_size {a b : Bbox F} (divides : Divides a b)
    (first : (a.intersect b).size = a.size) (second : (a.intersect b).size = b.size) : a = b := by
  have proper := divides.intersect_proper
  have wide := proper.wide
  have high := proper.high
  obtain ⟨widthA,widthB⟩ := side_le a.xmin a.xmax b.xmin b.xmax
  obtain ⟨heightA,heightB⟩ := side_le a.ymin a.ymax b.ymin b.ymax
  unfold Bbox.intersect at wide high
  unfold Bbox.intersect Bbox.size at first second
  simp only [stdMax_eq,stdMin_eq] at wide high first second
  obtain ⟨ownWidth,ownHeight⟩ := product_tight widthA heightA wide high first
  obtain ⟨otherWidth,otherHeight⟩ := product_tight widthB heightB wide high second
  obtain ⟨xmin,xmax⟩ := side_tight ownWidth otherWidth
  obtain ⟨ymin,ymax⟩ := side_tight ownHeight otherHeight
  cases a
  cases b
  simp only at xmin xmax ymin ymax
  rw [xmin,xmax,ymin,ymax]

section Pair

variable {bboxes sizes : Memory F} {i j : Nat} (first : Sized bboxes sizes i)
  (second : Sized bboxes sizes j)
include first second

private theorem intersect_le_divisor (divides : Divides (boxAt bboxes i) (boxAt bboxes j)) :
    ((boxAt bboxes i).intersect (boxAt bboxes j)).size ≤ divisor bboxes sizes i j := by
  obtain ⟨own,other⟩ := divides.size_le
  unfold divisor
  rw [first,second]
  linarith

private theorem divisor_pos (divides : Divides (boxAt bboxes i) (boxAt bboxes j)) :
    0 < divisor bboxes sizes i j :=
  divides.intersect_proper.size_pos.trans_le (intersect_le_divisor first second divides)

private theorem jaccardOverlap_bounds :
    0 ≤ jaccardOverlap bboxes sizes i j ∧ jaccardOverlap bboxes sizes i j ≤ 1 := by
  by_cases divides : Divides (boxAt bboxes i) (boxAt bboxes j)
  · have positive := divisor_pos first second divides
    rw [jaccardOverlap_divides divides]
    constructor
    · exact div_nonneg divides.intersect_proper.size_pos.le positive.le
    · exact (div_le_one positive).mpr (intersect_le_divisor first second divides)
  · rw [jaccardOverlap_returns divides,Int.cast_zero]
    exact ⟨le_rfl,zero_le_one⟩

private theorem eq_of_jaccardOverlap_one (one : jaccardOverlap bboxes sizes i j = 1) :
    boxAt bboxes i = boxAt bboxes j := by
  by_cases divides : Divides (boxAt bboxes i) (boxAt bboxes j)
  · have positive := divisor_pos first second divides
    obtain ⟨own,other⟩ := divides.size_le
    rw [jaccardOverlap_divides divides,div_eq_one_iff_eq positive.ne'] at one
    unfold divisor at one
    rw [first,second] at one
    -- the intersection is at most each size and its double is their sum
    exact divides.eq_of_size (by linarith) (by linarith)
  · rw [jaccardOverlap_returns divides,Int.cast_zero] at one
    exact absurd one zero_ne_one

end Pair

omit [IsStrictOrderedRing F] in
private theorem jaccardOverlap_symmetric (bboxes sizes : Memory F) (i j : Nat) :
    jaccardOverlap bboxes sizes i j = jaccardOverlap bboxes sizes j i := by
  by_cases divides : Divides (boxAt bboxes i) (boxAt bboxes j)
  · rw [jaccardOverlap_divides divides,jaccardOverlap_divides (divides_comm divides)]
    unfold divisor
    rw [Bbox.intersect_comm,add_comm]
  · rw [jaccardOverlap_returns divides,jaccardOverlap_returns (mt divides_comm divides)]

/-- Where sizes are those of the boxes, JaccardOverlap divides by positive numbers only, is
symmetric and between 0 and 1, and 1 for equal boxes only. -/
theorem overlap_measure (bboxes sizes : Memory F) (i j : Nat) (first : Sized bboxes sizes i)
    (second : Sized bboxes sizes j) :
    (Divides (boxAt bboxes i) (boxAt bboxes j) → 0 < divisor bboxes sizes i j ∧
      jaccardOverlap bboxes sizes i j =
        ((boxAt bboxes i).intersect (boxAt bboxes j)).size / divisor bboxes sizes i j) ∧
    (¬Divides (boxAt bboxes i) (boxAt bboxes j) → jaccardOverlap bboxes sizes i j = 0) ∧
    0 ≤ jaccardOverlap bboxes sizes i j ∧ jaccardOverlap bboxes sizes i j ≤ 1 ∧
    jaccardOverlap bboxes sizes i j = jaccardOverlap bboxes sizes j i ∧
    (jaccardOverlap bboxes sizes i j = 1 → boxAt bboxes i = boxAt bboxes j) := by
  obtain ⟨least,most⟩ := jaccardOverlap_bounds first second
  refine ⟨?_,?_,least,most,jaccardOverlap_symmetric bboxes sizes i j,
    eq_of_jaccardOverlap_one first second⟩
  · intro divides
    exact ⟨divisor_pos first second divides,jaccardOverlap_divides divides⟩
  · intro returns
    rw [jaccardOverlap_returns returns,Int.cast_zero]

end Exact

/-- Two boxes of two by two that share one by one, and the first one inverted. -/
def threeBoxes : Memory Rat := fun address => [0,0,2,2,1,1,3,3,2,2,0,0].getD address 0

theorem overlap_measure_seventh :
    0 < divisor threeBoxes (fun _ => 4) 0 1 ∧
      jaccardOverlap threeBoxes (fun _ => 4) 0 1 = 1 / 7 ∧
      jaccardOverlap threeBoxes (fun _ => 4) 0 1 = jaccardOverlap threeBoxes (fun _ => 4) 1 0 ∧
      jaccardOverlap threeBoxes (fun _ => 4) 0 2 = 0 := by
  have sized : Sized threeBoxes (fun _ => 4) 0 ∧ Sized threeBoxes (fun _ => 4) 1 ∧
      Sized threeBoxes (fun _ => 4) 2 := by
    unfold Sized
    decide +kernel
  have measure := overlap_measure threeBoxes (fun _ => 4) 0 1 sized.1 sized.2.1
  have inverted := overlap_measure threeBoxes (fun _ => 4) 0 2 sized.1 sized.2.2
  obtain ⟨positive,quotient⟩ := measure.1 ⟨by decide +kernel,by decide +kernel⟩
  refine ⟨positive,?_,measure.2.2.2.2.1,inverted.2.1 ?_⟩
  · rw [quotient]
    decide +kernel
  · intro divides
    exact absurd divides.intersect_proper.wide (by decide +kernel)

end VideoAnalytics.DetectionOutput
