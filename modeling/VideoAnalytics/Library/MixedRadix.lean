import VideoAnalytics.Library.Memory
import Mathlib.Data.List.Nodup
import Mathlib.Data.List.Perm.Subperm

/-! Maps that permute the numbers below a bound, and the counter of a mixed radix whose
digits are read in the reversed order. -/
namespace MixedRadix
open Loop Memory

/-- The map sends the numbers below the bound to numbers below it, no two to the same. -/
structure Permutes (bound : Nat) (map : Nat → Nat) : Prop where
  within : ∀ i, i < bound → map i < bound
  apart : ∀ i, i < bound → ∀ k, k < bound → map i = map k → i = k

variable {bound size common : Nat} {map other : Nat → Nat}

theorem Permutes.id (bound : Nat) : Permutes bound id where
  within _ low := low
  apart _ _ _ _ same := same

theorem Permutes.one : Permutes 1 fun _ => 0 where
  within _ _ := Nat.one_pos
  apart i low k below _ := by omega

theorem Permutes.congr (permutes : Permutes bound map) (same : ∀ i, i < bound → other i = map i) :
    Permutes bound other where
  within i low := by
    rw [same i low]
    exact permutes.within i low
  apart i low k below equal := by
    rw [same i low,same k below] at equal
    exact permutes.apart i low k below equal

/-- The last digit, turned, becomes the first one. -/
theorem Permutes.reversed (turned : Permutes bound map) (rest : Permutes size other) :
    Permutes (bound * size) fun i => map (i % bound) * size + other (i / bound) where
  within i low := by
    have positive : 0 < bound := Nat.pos_of_mul_pos_right (Nat.zero_lt_of_lt low)
    exact cell_within (turned.within _ (Nat.mod_lt i positive))
      (rest.within _ (Nat.div_lt_of_lt_mul low))
  apart i low k below equal := by
    have positive : 0 < bound := Nat.pos_of_mul_pos_right (Nat.zero_lt_of_lt low)
    have up := Nat.div_lt_of_lt_mul low
    have right := Nat.div_lt_of_lt_mul below
    obtain ⟨first,later⟩ := (cell_inj _ _ (rest.within _ up) (rest.within _ right)).mp equal
    have digit := turned.apart _ (Nat.mod_lt i positive) _ (Nat.mod_lt k positive) first
    have others := rest.apart _ up _ right later
    rw [← Nat.div_add_mod i bound,← Nat.div_add_mod k bound,digit,others]

/-- What is divisible below a smaller bound can be divided there. -/
theorem Permutes.divided (permutes : Permutes (size * common) map) (positive : 0 < common)
    (divides : ∀ i, i < size → common ∣ map i) : Permutes size fun i => map i / common where
  within i low := by
    apply Nat.div_lt_of_lt_mul
    rw [Nat.mul_comm]
    exact permutes.within i (Nat.lt_of_lt_of_le low (Nat.le_mul_of_pos_right size positive))
  apart i low k below equal := by
    have larger : size ≤ size * common := Nat.le_mul_of_pos_right size positive
    apply permutes.apart i (by omega) k (by omega)
    rw [← Nat.div_mul_cancel (divides i low),← Nat.div_mul_cancel (divides k below)]
    exact congrArg (· * common) equal

theorem Permutes.perm (permutes : Permutes bound map) :
    ((List.range bound).map map).Perm (List.range bound) := by
  have nodup : ((List.range bound).map map).Nodup := by
    refine List.Nodup.map_on ?_ List.nodup_range
    intro i low k below equal
    exact permutes.apart i (List.mem_range.mp low) k (List.mem_range.mp below) equal
  have subset : (List.range bound).map map ⊆ List.range bound := by
    intro value member
    obtain ⟨i,low,rfl⟩ := List.mem_map.mp member
    exact List.mem_range.mpr (permutes.within i (List.mem_range.mp low))
  apply (List.subperm_of_subset nodup subset).perm_of_length_le
  rw [List.length_map]

/-- The number whose digits are those of i, the first one last. -/
def reverse : List Nat → Nat → Nat
  | [], _ => 0
  | factor :: factors, i => i % factor * factors.prod + reverse factors (i / factor)

/-- From entry k on the digits are those of a number. -/
def Counts (digits : Nat → Option Nat) : List Nat → Nat → Nat → Prop
  | [], _, _ => True
  | factor :: factors, k, number =>
    digits k = some (number % factor) ∧ Counts digits factors (k + 1) (number / factor)

theorem Counts.congr {digits other : Nat → Option Nat} {factors : List Nat} {k number : Nat}
    (counts : Counts digits factors k number) (same : ∀ i, k ≤ i → other i = digits i) :
    Counts other factors k number := by
  induction factors generalizing k number with
  | nil => exact trivial
  | cons factor factors ih =>
    obtain ⟨here,rest⟩ := counts
    refine ⟨?_,ih rest fun i low => same i (by omega)⟩
    rw [same k (Nat.le_refl k)]
    exact here

theorem Counts.zero {digits : Nat → Option Nat} {factors : List Nat} {k : Nat}
    (zeros : ∀ i, i < k + factors.length → digits i = some 0) : Counts digits factors k 0 := by
  induction factors generalizing k with
  | nil => exact trivial
  | cons factor factors ih =>
    rw [List.length_cons] at zeros
    refine ⟨?_,?_⟩
    · rw [Nat.zero_mod]
      exact zeros k (by omega)
    · rw [Nat.zero_div]
      exact ih fun i low => zeros i (by omega)

theorem reverse_permutes (factors : List Nat) : Permutes factors.prod (reverse factors) := by
  induction factors with
  | nil => exact Permutes.one
  | cons factor factors ih => exact (Permutes.id factor).reversed ih

theorem reverse_zero (factors : List Nat) : reverse factors 0 = 0 := by
  induction factors with
  | nil => rfl
  | cons factor factors ih => simp [reverse,ih]

/-- Counting up within the first digit. -/
theorem reverse_digit {factor number : Nat} (low : number % factor + 1 < factor) :
    (number + 1) % factor = number % factor + 1 ∧ (number + 1) / factor = number / factor := by
  have positive : 0 < factor := by omega
  have split : number + 1 = number / factor * factor + (number % factor + 1) := by
    rw [← Nat.add_assoc,Nat.div_add_mod']
  constructor
  · rw [split]
    exact cell_col _ low
  · rw [split]
    exact cell_row _ low

/-- Counting up with a carry into the second digit. -/
theorem reverse_carry {factor number : Nat} (positive : 0 < factor)
    (full : factor ≤ number % factor + 1) :
    number % factor + 1 = factor ∧ (number + 1) % factor = 0 ∧
      (number + 1) / factor = number / factor + 1 := by
  have digit := Nat.mod_lt number positive
  have split : number + 1 = (number / factor + 1) * factor + 0 := by
    have whole := Nat.div_add_mod' number factor
    rw [Nat.succ_mul]
    omega
  refine ⟨by omega,?_,?_⟩
  · rw [split]
    exact cell_col _ positive
  · rw [split]
    exact cell_row _ positive

end MixedRadix
