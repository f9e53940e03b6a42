import Mathlib.Algebra.BigOperators.Intervals
import Mathlib.Algebra.Module.BigOperators
import Mathlib.Algebra.Order.Ring.Defs
import Mathlib.Tactic.Linarith
import Mathlib.Tactic.Module

/-! Averages that the first sample enters in full and each further one with a factor. -/
namespace Average
open Finset

variable {F M : Type}

/-- The weight of a sample in the average up to the last one. -/
def weight [CommRing F] (factor : F) (last i : Nat) : F :=
  if i = 0 then (1 - factor) ^ last else factor * (1 - factor) ^ (last - i)

/-- The average of the samples up to the last one. -/
def upTo [CommRing F] [AddCommGroup M] [Module F M] (factor : F) (samples : Nat → M) (last : Nat) : M :=
  ∑ i ∈ range (last + 1), weight factor last i • samples i

section Ring

variable [CommRing F] (factor : F)

private theorem weight_last (last : Nat) : weight factor (last + 1) (last + 1) = factor := by
  simp [weight]

private theorem weight_earlier {last i : Nat} (early : i ≤ last) :
    weight factor (last + 1) i = (1 - factor) * weight factor last i := by
  unfold weight
  split
  · ring
  · rw [Nat.sub_add_comm early]
    ring

variable [AddCommGroup M] [Module F M] (samples : Nat → M)

theorem upTo_zero : upTo factor samples 0 = samples 0 := by
  simp [upTo,weight]

theorem upTo_succ (last : Nat) : upTo factor samples (last + 1) =
    (1 - factor) • upTo factor samples last + factor • samples (last + 1) := by
  have earlier : ∑ i ∈ range (last + 1), weight factor (last + 1) i • samples i =
      (1 - factor) • upTo factor samples last := by
    unfold upTo
    rw [smul_sum]
    apply sum_congr rfl
    intro i member
    rw [weight_earlier factor (Nat.le_of_lt_succ (mem_range.mp member)),mul_smul]
  conv_lhs => unfold upTo
  rw [sum_range_succ,earlier,weight_last]

theorem weight_sum (last : Nat) : ∑ i ∈ range (last + 1), weight factor last i = 1 := by
  have average : upTo factor (fun _ => (1 : F)) last = 1 := by
    induction last with
    | zero => exact upTo_zero factor _
    | succ last ih =>
      rw [upTo_succ,ih]
      simp
  unfold upTo at average
  simpa using average

end Ring

theorem weight_nonneg [CommRing F] [LinearOrder F] [IsStrictOrderedRing F] {factor : F}
    (low : 0 ≤ factor) (high : factor ≤ 1) (last i : Nat) : 0 ≤ weight factor last i := by
  have rest : 0 ≤ 1 - factor := sub_nonneg.mpr high
  unfold weight
  split
  · exact pow_nonneg rest last
  · exact mul_nonneg low (pow_nonneg rest _)

end Average
