import VideoAnalytics.Library.Memory
import Mathlib.Algebra.BigOperators.Group.List.Basic

/-! Tensors of given dimensions: the indices of their elements, and where an element lies
when they lie row by row. -/
namespace Shapes
open Loop Memory

/-- An index within the dimensions, the outermost first. -/
def Index (dims index : List Nat) : Prop := List.Forall₂ (· < ·) index dims

def flat : List Nat → List Nat → Nat
  | _ :: dims, i :: index => i * dims.prod + flat dims index
  | _, _ => 0

section Index

variable {dims more index further : List Nat}

theorem Index.length (within : Index dims index) : index.length = dims.length :=
  List.Forall₂.length_eq within

theorem Index.append (within : Index dims index) (also : Index more further) :
    Index (dims ++ more) (index ++ further) := List.rel_append within also

theorem flat_lt (within : Index dims index) : flat dims index < dims.prod := by
  induction within with
  | nil => exact Nat.one_pos
  | cons low _ ih =>
    rw [List.prod_cons]
    exact cell_within low ih

theorem flat_append (within : Index dims index) (more further : List Nat) :
    flat (dims ++ more) (index ++ further) = flat dims index * more.prod + flat more further := by
  induction within with
  | nil => simp [flat]
  | cons _ _ ih =>
    simp only [List.cons_append,flat,ih,List.prod_append]
    ring

/-- Every place is that of an element. -/
theorem exists_index {n : Nat} (low : n < dims.prod) : ∃ index, Index dims index ∧ flat dims index = n := by
  induction dims generalizing n with
  | nil => exact ⟨[],.nil,(Nat.lt_one_iff.mp low).symm⟩
  | cons dim dims ih =>
    rw [List.prod_cons] at low
    have some : 0 < dims.prod := Nat.pos_of_lt_mul_left low
    obtain ⟨index,within,place⟩ := ih (Nat.mod_lt n some)
    refine ⟨n / dims.prod :: index,.cons ?_ within,?_⟩
    · exact Nat.div_lt_of_lt_mul (by rwa [Nat.mul_comm])
    · rw [flat,place,Nat.div_add_mod']

end Index

end Shapes
