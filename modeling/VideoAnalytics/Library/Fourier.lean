import Mathlib.Algebra.BigOperators.Ring.Finset
import Mathlib.Algebra.Group.AddChar
import Mathlib.Data.Fintype.BigOperators
import Mathlib.Algebra.Star.BigOperators
import Mathlib.Tactic.Abel
import Mathlib.Tactic.Ring

/-! The discrete Fourier transform over a finite group of positions, whose frequencies
are the positions again. Values are of a commutative ring with a conjugation. -/
namespace Fourier
open Finset

section Positions

variable {G α : Type} [AddCommGroup G]

/-- Everything moves on by a position. -/
def shift (s : G) (values : G → α) (p : G) : α := values (p - s)

/-- The values are the same about a position. -/
def EvenAbout (centre : G) (values : G → α) : Prop :=
  ∀ p, values (centre - p) = values (centre + p)

/-- About a position that is its own opposite, the values are even. -/
theorem EvenAbout.even {centre : G} {values : G → α} (about : EvenAbout centre values)
    (opposite : centre + centre = 0) (p : G) : values (-p) = values p := by
  have mirrored := about (centre + p)
  rwa [← sub_sub,sub_self,zero_sub,← add_assoc,opposite,zero_add] at mirrored

end Positions

variable {G R : Type} [AddCommGroup G] [Fintype G] [CommRing R] [StarRing R]

/-- The waves that the transform sums up, and the factor of its inverse. -/
structure Waves (G R : Type) [AddCommGroup G] [Fintype G] [CommRing R] [StarRing R] where
  wave : G → AddChar G R
  exchange : ∀ u p, wave u p = wave p u
  conjugate : ∀ u p, star (wave u p) = wave u (-p)
  orthogonal : ∀ p, p ≠ 0 → ∑ u, wave u p = 0
  scale : R
  inverse : scale * Fintype.card G = 1

namespace Waves

variable (waves : Waves G R)

def forward (values : G → R) (u : G) : R := ∑ p, waves.wave u (-p) * values p

def backward (spectrum : G → R) (p : G) : R := waves.scale * ∑ u, waves.wave u p * spectrum u

private theorem wave_neg (u p : G) : waves.wave (-u) p = waves.wave u (-p) := by
  rw [waves.exchange,← waves.conjugate,waves.exchange,waves.conjugate]

theorem forward_shift (s : G) (values : G → R) (u : G) :
    waves.forward (shift s values) u = waves.wave u (-s) * waves.forward values u := by
  unfold forward shift
  rw [mul_sum]
  apply Fintype.sum_equiv (Equiv.subRight s)
  intro p
  rw [Equiv.subRight_apply,← mul_assoc,← AddChar.map_add_eq_mul]
  congr 2
  abel

theorem backward_wave (s : G) (spectrum : G → R) :
    waves.backward (fun u => waves.wave u (-s) * spectrum u) = shift s (waves.backward spectrum) := by
  ext p
  unfold backward shift
  congr 1
  apply sum_congr rfl
  intro u _
  rw [← mul_assoc,← AddChar.map_add_eq_mul,← sub_eq_add_neg]

private theorem star_forward (values : G → R) (u : G) :
    star (waves.forward values u) = waves.forward (fun p => star (values p)) (-u) := by
  unfold forward
  rw [star_sum]
  apply sum_congr rfl
  intro p _
  rw [star_mul',waves.conjugate,waves.wave_neg]

private theorem forward_neg (values : G → R) (u : G) :
    waves.forward values (-u) = waves.forward (fun p => values (-p)) u := by
  unfold forward
  apply Fintype.sum_equiv (Equiv.neg G)
  intro p
  simp only [Equiv.neg_apply,waves.wave_neg,neg_neg]

/-- The spectrum of real values that are even is real. -/
theorem forward_real {values : G → R} (real : ∀ p, star (values p) = values p)
    (even : ∀ p, values (-p) = values p) (u : G) :
    star (waves.forward values u) = waves.forward values u := by
  rw [star_forward,forward_neg]
  simp only [real,even]

private theorem orthogonal_iff (p : G) [DecidableEq G] :
    ∑ u, waves.wave u p = if p = 0 then (Fintype.card G : R) else 0 := by
  split
  · next zero =>
    subst zero
    simp
  · next other => exact waves.orthogonal p other

theorem backward_forward (values : G → R) : waves.backward (waves.forward values) = values := by
  classical
  ext s
  have collected : ∑ u, waves.wave u s * waves.forward values u =
      ∑ p, (if s - p = 0 then (Fintype.card G : R) else 0) * values p := by
    unfold forward
    simp only [mul_sum]
    rw [sum_comm]
    apply sum_congr rfl
    intro p _
    rw [← orthogonal_iff,sum_mul]
    apply sum_congr rfl
    intro u _
    rw [← mul_assoc,← AddChar.map_add_eq_mul,← sub_eq_add_neg]
  unfold backward
  rw [collected]
  simp only [sub_eq_zero,ite_mul,zero_mul,sum_ite_eq,mem_univ,if_true]
  rw [← mul_assoc,waves.inverse,one_mul]

/-- The product of a spectrum and the conjugate of another is the spectrum of the
correlation. -/
theorem backward_correlation (first second : G → R) (s : G) :
    waves.backward (fun u => waves.forward first u * star (waves.forward second u)) s =
      ∑ p, first (p + s) * star (second p) := by
  classical
  have expanded : ∀ u, waves.wave u s * (waves.forward first u * star (waves.forward second u)) =
      ∑ p, ∑ q, waves.wave u (s - q + p) * (first q * star (second p)) := by
    intro u
    rw [star_forward,forward_neg]
    unfold forward
    rw [mul_comm (∑ p, _),sum_mul_sum,mul_sum]
    apply Fintype.sum_equiv (Equiv.neg G)
    intro p
    rw [mul_sum]
    apply sum_congr rfl
    intro q _
    rw [Equiv.neg_apply,AddChar.map_add_eq_mul,sub_eq_add_neg,AddChar.map_add_eq_mul]
    ring
  have collected : ∑ u, waves.wave u s * (waves.forward first u * star (waves.forward second u)) =
      ∑ p, ∑ q, (if s - q + p = 0 then (Fintype.card G : R) else 0) * (first q * star (second p)) := by
    simp only [expanded]
    rw [sum_comm]
    apply sum_congr rfl
    intro p _
    rw [sum_comm]
    apply sum_congr rfl
    intro q _
    rw [← sum_mul,orthogonal_iff]
  unfold backward
  rw [collected,mul_sum]
  apply sum_congr rfl
  intro p _
  have same : ∀ q, s - q + p = 0 ↔ q = p + s := by
    intro q
    constructor
    · intro zero
      rw [← sub_eq_zero,← neg_eq_zero,← zero]
      abel
    · rintro rfl
      abel
  simp only [same,ite_mul,zero_mul,sum_ite_eq',mem_univ,if_true]
  rw [← mul_assoc,waves.inverse,one_mul]

variable {H : Type} [AddCommGroup H] [Fintype H]

/-- The waves over pairs of positions. -/
def prod (first : Waves G R) (second : Waves H R) : Waves (G × H) R where
  wave u :=
    {toFun := fun p => first.wave u.1 p.1 * second.wave u.2 p.2
     map_zero_eq_one' := by simp
     map_add_eq_mul' := by
      intro p q
      simp only [Prod.fst_add,Prod.snd_add,AddChar.map_add_eq_mul]
      exact mul_mul_mul_comm _ _ _ _}
  exchange u p := congrArg₂ (· * ·) (first.exchange u.1 p.1) (second.exchange u.2 p.2)
  conjugate u p :=
    (star_mul' _ _).trans (congrArg₂ (· * ·) (first.conjugate u.1 p.1) (second.conjugate u.2 p.2))
  orthogonal p nonzero := by
    have split : ∑ u : G × H, first.wave u.1 p.1 * second.wave u.2 p.2 =
        (∑ u, first.wave u p.1) * ∑ v, second.wave v p.2 := by
      rw [Fintype.sum_prod_type,sum_mul_sum]
    refine split.trans ?_
    by_cases left : p.1 = 0
    · have right : p.2 ≠ 0 := fun zero => nonzero (Prod.ext left zero)
      rw [second.orthogonal _ right,mul_zero]
    · rw [first.orthogonal _ left,zero_mul]
  scale := first.scale * second.scale
  inverse := by
    rw [Fintype.card_prod,Nat.cast_mul,mul_mul_mul_comm,first.inverse,second.inverse,mul_one]

end Waves

end Fourier
