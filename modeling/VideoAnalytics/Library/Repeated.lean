import Mathlib.Data.List.Basic

/-! Finite prefixes of a word repeated for ever. -/
namespace Repeated

variable {α : Type}

def cycles (word : List α) (count : Nat) : List α := (List.replicate count word).flatten

def IsPrefix (word initial : List α) : Prop := ∃ count, initial <+: cycles word count

@[simp] theorem cycles_zero (word : List α) : cycles word 0 = [] := rfl

theorem cycles_succ (word : List α) (count : Nat) :
    cycles word (count + 1) = cycles word count ++ word := by
  simp [cycles,List.replicate_succ']

theorem cycles_take (word : List α) (count taken : Nat) :
    IsPrefix word (cycles word count ++ word.take taken) := by
  refine ⟨count + 1,?_⟩
  rw [cycles_succ]
  exact List.prefix_append_right_inj _ |>.mpr (List.take_prefix _ _)

theorem cycles_extend (word : List α) (count taken limit : Nat) :
    cycles word count ++ word.take taken ++ (word.drop taken).take limit =
      cycles word count ++ word.take (taken + limit) := by
  rw [List.append_assoc,List.take_add]

theorem cycles_wrap (word : List α) (count taken : Nat) (complete : word.length ≤ taken) :
    cycles word count ++ word.take taken = cycles word (count + 1) ++ word.take 0 := by
  rw [cycles_succ,List.take_of_length_le complete,List.take_zero,List.append_nil]

end Repeated
