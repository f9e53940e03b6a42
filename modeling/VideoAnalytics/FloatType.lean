import Mathlib.Data.Rat.Cast.Defs
import Mathlib.Algebra.Order.Field.Basic
import Mathlib.Algebra.Order.Ring.Rat
import Mathlib.Order.Defs.Unbundled

/-! The float operations of the network layers. A theorem about these layers
holds for every arithmetic, rounded or exact, unless it names a law. -/
namespace VideoAnalytics

/-- float with its operators and the conversion from int. -/
class FloatType (F : Type) extends Add F, Sub F, Mul F, Div F, LT F, LE F, BEq F, IntCast F where
  decidableLT : DecidableLT F
  decidableLE : DecidableLE F

instance FloatType.decLT {F : Type} [FloatType F] : DecidableLT F := FloatType.decidableLT

instance FloatType.decLE {F : Type} [FloatType F] : DecidableLE F := FloatType.decidableLE

instance : FloatType Rat where
  decidableLT := inferInstance
  decidableLE := inferInstance

instance (priority := low) exactFloat {F : Type} [Field F] [LinearOrder F] : FloatType F where
  decidableLT := inferInstance
  decidableLE := inferInstance

/-- What comparisons of floats satisfy: NaN is below and above nothing, and the
numbers above some number are ordered. -/
class FloatOrder (F : Type) [FloatType F] : Prop where
  irrefl : ∀ a : F, ¬a < a
  trans : ∀ a b c : F, a < b → b < c → a < c
  compares : ∀ least a b c : F, least < a → least < b → least < c → a < c → a < b ∨ b < c

instance : FloatOrder Rat where
  irrefl := lt_irrefl
  trans _ _ _ := lt_trans
  compares _ a b c _ _ _ below := by
    rcases lt_or_ge a b with before | after
    · exact .inl before
    · exact .inr (lt_of_le_of_lt after below)

/-- The floats that equal themselves are numbers, and numbers are ordered. -/
class FloatNumbers (F : Type) [FloatType F] : Prop extends FloatOrder F where
  numbers : ∀ a b c : F, (a == a) = true → (b == b) = true → (c == c) = true → a < c →
    a < b ∨ b < c

instance : FloatNumbers Rat where
  numbers a b c _ _ _ below := by
    rcases lt_or_ge a b with before | after
    · exact .inl before
    · exact .inr (lt_of_le_of_lt after below)

/-- The conversion from int makes zero of no positive int. -/
class FloatCast (F : Type) [FloatType F] : Prop where
  positive : ∀ n : Nat, 0 < n → ((n : Int) : F) ≠ ((0 : Int) : F)

instance : FloatCast Rat where
  positive n above equal := by
    have zero : (n : Int) = 0 := Rat.intCast_inj.mp equal
    omega

section Comparisons

variable {F : Type} [FloatType F]

def stdMax (a b : F) : F := if a < b then b else a

def stdMin (a b : F) : F := if b < a then b else a

end Comparisons

section Exact

variable {F : Type} [Field F] [LinearOrder F]

theorem stdMax_eq (a b : F) : stdMax a b = max a b := by
  unfold stdMax
  split
  · next below => exact (max_eq_right below.le).symm
  · next above => exact (max_eq_left (not_lt.mp above)).symm

theorem stdMin_eq (a b : F) : stdMin a b = min a b := by
  unfold stdMin
  split
  · next below => exact (min_eq_right below.le).symm
  · next above => exact (min_eq_left (not_lt.mp above)).symm

end Exact

end VideoAnalytics
