import Mathlib.Algebra.Order.Floor.Ring
import Mathlib.Tactic.Linarith
import Mathlib.Tactic.Push

/-! Rounding to the nearest integer, halfway cases away from zero. -/
namespace Rounding

variable {F : Type*} [Field F] [LinearOrder F] [FloorRing F]

def roundAway (x : F) : Int := if 0 ≤ x then ⌊x + 1 / 2⌋ else ⌈x - 1 / 2⌉

variable [IsStrictOrderedRing F]

theorem roundAway_near (x : F) : |x - roundAway x| ≤ 1 / 2 := by
  unfold roundAway
  rw [abs_le]
  split
  · have low := Int.floor_le (x + 1 / 2)
    have high := Int.lt_floor_add_one (x + 1 / 2)
    constructor
    · linarith
    · linarith
  · have low := Int.le_ceil (x - 1 / 2)
    have high := Int.ceil_lt_add_one (x - 1 / 2)
    constructor
    · linarith
    · linarith

/-- The integer less than one half away. -/
theorem roundAway_eq {x : F} {n : Int} (low : n - 1 / 2 < x) (high : x < n + 1 / 2) :
    roundAway x = n := by
  have near := roundAway_near x
  rw [abs_le] at near
  have above : ((n : Int) : F) < ((roundAway x + 1 : Int) : F) := by
    push_cast
    linarith [near.2]
  have below : ((roundAway x : Int) : F) < ((n + 1 : Int) : F) := by
    push_cast
    linarith [near.1]
  have first := Int.cast_lt.mp above
  have second := Int.cast_lt.mp below
  omega

theorem roundAway_nonneg {x : F} (low : -(1 / 2) < x) : 0 ≤ roundAway x := by
  unfold roundAway
  split
  · next above =>
    apply Int.floor_nonneg.mpr
    linarith
  · have above : ((-1 : Int) : F) < x - 1 / 2 := by
      push_cast
      linarith
    have least := Int.lt_ceil.mpr above
    omega

theorem roundAway_mono {x y : F} (le : x ≤ y) : roundAway x ≤ roundAway y := by
  unfold roundAway
  split
  · next above =>
    rw [if_pos (above.trans le)]
    exact Int.floor_le_floor (by linarith)
  · next below =>
    split
    · next above =>
      have zero : ⌈x - 1 / 2⌉ ≤ 0 := Int.ceil_le.mpr (by push_cast; linarith)
      have nonneg : 0 ≤ ⌊y + 1 / 2⌋ := Int.floor_nonneg.mpr (by linarith)
      omega
    · exact Int.ceil_le_ceil (by linarith)

end Rounding
