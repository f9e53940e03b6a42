import Mathlib.Data.Int.Log
import Mathlib.Data.Rat.Floor
import Mathlib.Tactic.Linarith
import Mathlib.Tactic.Positivity

/-! Rounding to a binary floating-point format: to the nearest number of the
format, halfway cases to the even significand. What is too large for the format
is rounded as if its exponents had no upper end. -/
namespace BinaryFormat

def roundEven (x : Rat) : Int :=
  let fraction := x - ⌊x⌋
  if fraction < 1 / 2 then ⌊x⌋
  else if 1 / 2 < fraction then ⌊x⌋ + 1
  else if ⌊x⌋ % 2 = 0 then ⌊x⌋
  else ⌊x⌋ + 1

private theorem roundEven_range (x : Rat) : ⌊x⌋ ≤ roundEven x ∧ roundEven x ≤ ⌊x⌋ + 1 := by
  unfold roundEven
  dsimp only
  split_ifs <;> omega

private theorem roundEven_intCast (n : Int) : roundEven n = n := by
  simp [roundEven]

private theorem roundEven_mono {x y : Rat} (le : x ≤ y) : roundEven x ≤ roundEven y := by
  rcases (Int.floor_le_floor le).lt_or_eq with below | same
  · have first := (roundEven_range x).2
    have second := (roundEven_range y).1
    omega
  · unfold roundEven
    rw [same]
    have fractions : x - (⌊y⌋ : Rat) ≤ y - (⌊y⌋ : Rat) := by linarith
    dsimp only
    split_ifs <;> first | omega | linarith

private theorem roundEven_neg (x : Rat) : roundEven (-x) = -roundEven x := by
  have low := Int.floor_le x
  have high := Int.lt_floor_add_one x
  by_cases whole : x = ⌊x⌋
  · have negated : -x = ((-⌊x⌋ : Int) : Rat) := by
      push_cast
      linarith
    rw [negated,roundEven_intCast]
    conv_rhs => rw [whole,roundEven_intCast]
  · have above : (⌊x⌋ : Rat) < x := lt_of_le_of_ne low (Ne.symm whole)
    have floor : ⌊-x⌋ = -⌊x⌋ - 1 := by
      rw [Int.floor_eq_iff]
      push_cast
      constructor
      · linarith
      · linarith
    unfold roundEven
    rw [floor]
    push_cast
    split_ifs <;> first | omega | linarith

/-- The digits that are stored of a significand, and the exponent of the least
positive number. -/
structure Format where
  digits : Nat
  least : Int

def binary32 : Format := ⟨23,-149⟩

variable (f : Format)

/-- The distance of the numbers of the format around x is two to this. -/
def Format.exponent (x : Rat) : Int := max (Int.log 2 |x| - f.digits) f.least

def Format.round (x : Rat) : Rat := roundEven (x / 2 ^ f.exponent x) * 2 ^ f.exponent x

private theorem unit_pos (x : Rat) : (0 : Rat) < 2 ^ f.exponent x := zpow_pos (by norm_num) _

private theorem exponent_neg (x : Rat) : f.exponent (-x) = f.exponent x := by
  rw [Format.exponent,Format.exponent,abs_neg]

private theorem round_neg (x : Rat) : f.round (-x) = -f.round x := by
  rw [Format.round,Format.round,exponent_neg,neg_div,roundEven_neg]
  push_cast
  ring

theorem round_nonneg {x : Rat} (nonneg : 0 ≤ x) : 0 ≤ f.round x := by
  have unit := unit_pos f x
  have scaled := roundEven_mono (x := ((0 : Int) : Rat)) (y := x / 2 ^ f.exponent x) (by
    rw [Int.cast_zero]
    positivity)
  rw [roundEven_intCast] at scaled
  exact mul_nonneg (by exact_mod_cast scaled) unit.le

/-- A power of two that the numbers of the format around x are multiples of. -/
theorem power_multiple {x : Rat} {k : Int} (coarse : f.exponent x ≤ k) :
    ∃ n : Int, (2 : Rat) ^ k = n * 2 ^ f.exponent x := by
  obtain ⟨n,split⟩ := Int.le.dest coarse
  refine ⟨2 ^ n,?_⟩
  rw [← split,zpow_add₀ (by norm_num),zpow_natCast]
  push_cast
  ring

theorem round_le_power {x : Rat} {k : Int} (coarse : f.exponent x ≤ k) (below : x ≤ 2 ^ k) :
    f.round x ≤ 2 ^ k := by
  obtain ⟨n,multiple⟩ := power_multiple f coarse
  have unit := unit_pos f x
  have scaled : x / 2 ^ f.exponent x ≤ n := by rwa [div_le_iff₀ unit,← multiple]
  have rounded := roundEven_mono scaled
  rw [roundEven_intCast] at rounded
  rw [multiple]
  exact mul_le_mul_of_nonneg_right (by exact_mod_cast rounded) unit.le

theorem power_le_round {x : Rat} {k : Int} (coarse : f.exponent x ≤ k) (above : 2 ^ k ≤ x) :
    2 ^ k ≤ f.round x := by
  obtain ⟨n,multiple⟩ := power_multiple f coarse
  have unit := unit_pos f x
  have scaled : n ≤ x / 2 ^ f.exponent x := by rwa [le_div_iff₀ unit,← multiple]
  have rounded := roundEven_mono scaled
  rw [roundEven_intCast] at rounded
  rw [multiple]
  exact mul_le_mul_of_nonneg_right (by exact_mod_cast rounded) unit.le

theorem round_mono_pos {x y : Rat} (positive : 0 < x) (le : x ≤ y) : f.round x ≤ f.round y := by
  have above : 0 < y := lt_of_lt_of_le positive le
  have logs : Int.log 2 |x| ≤ Int.log 2 |y| := by
    rw [abs_of_pos positive,abs_of_pos above]
    exact Int.log_mono_right positive le
  have exponents : f.exponent x ≤ f.exponent y :=
    max_le_max (by omega) (le_refl f.least)
  rcases exponents.lt_or_eq with finer | same
  · -- The power of two at the foot of the binade of y lies between the two.
    have larger : f.exponent y = Int.log 2 |y| - f.digits := by
      have least : f.least ≤ f.exponent x := le_max_right _ _
      unfold Format.exponent at finer least ⊢
      omega
    have smaller : Int.log 2 |x| - f.digits ≤ f.exponent x := le_max_left _ _
    have foot : (2 : Rat) ^ Int.log 2 |y| ≤ y := by
      have log := Int.zpow_log_le_self (b := 2) (r := y) (by decide) above
      rwa [abs_of_pos above]
    have top : x ≤ (2 : Rat) ^ Int.log 2 |y| := by
      have log := Int.lt_zpow_succ_log_self (b := 2) (by decide) x
      rw [abs_of_pos positive] at smaller
      refine log.le.trans (zpow_le_zpow_right₀ (by norm_num) ?_)
      omega
    calc f.round x ≤ 2 ^ Int.log 2 |y| := round_le_power f (by omega) top
      _ ≤ f.round y := power_le_round f (by omega) foot
  · unfold Format.round
    rw [same]
    have unit := unit_pos f y
    have scaled : x / 2 ^ f.exponent y ≤ y / 2 ^ f.exponent y := by gcongr
    exact mul_le_mul_of_nonneg_right (by exact_mod_cast roundEven_mono scaled) unit.le

theorem round_mono {x y : Rat} (le : x ≤ y) : f.round x ≤ f.round y := by
  rcases lt_or_ge 0 x with positive | x_low
  · exact round_mono_pos f positive le
  rcases lt_or_ge y 0 with negative | y_high
  · have mirrored := round_mono_pos f (x := -y) (y := -x) (by linarith) (by linarith)
    rw [round_neg,round_neg] at mirrored
    linarith
  · have first := round_nonneg f (x := -x) (by linarith)
    have second := round_nonneg f y_high
    rw [round_neg] at first
    linarith

end BinaryFormat
