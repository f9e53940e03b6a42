import Mathlib.Data.List.Basic

/-! The greedy selection from a list: each value is taken unless it conflicts with
one taken before. -/
namespace Greedy

variable {α : Type} (conflicts : α → α → Prop) [DecidableRel conflicts]

def select : List α → List α → List α
  | kept, [] => kept
  | kept, value :: rest =>
    if ∃ other ∈ kept, conflicts value other then select kept rest
    else select (kept ++ [value]) rest

theorem select_extends (kept rest : List α) : kept <+: select conflicts kept rest := by
  induction rest generalizing kept with
  | nil => exact List.prefix_rfl
  | cons value rest ih =>
    unfold select
    split
    · exact ih kept
    · exact (List.prefix_append kept [value]).trans (ih (kept ++ [value]))

theorem select_sublist (kept rest : List α) :
    (select conflicts kept rest).Sublist (kept ++ rest) := by
  induction rest generalizing kept with
  | nil => simp [select]
  | cons value rest ih =>
    unfold select
    split
    · exact (ih kept).trans (List.Sublist.append_left (List.sublist_cons_self value rest) kept)
    · simpa using ih (kept ++ [value])

theorem select_append (kept first second : List α) :
    select conflicts kept (first ++ second) =
      select conflicts (select conflicts kept first) second := by
  induction first generalizing kept with
  | nil => rfl
  | cons value first ih =>
    simp only [List.cons_append,select]
    split
    · exact ih kept
    · exact ih (kept ++ [value])

/-- No value conflicts with one taken before it. -/
theorem select_independent {kept : List α} (rest : List α)
    (independent : kept.Pairwise fun first later => ¬conflicts later first) :
    (select conflicts kept rest).Pairwise fun first later => ¬conflicts later first := by
  induction rest generalizing kept with
  | nil => exact independent
  | cons value rest ih =>
    unfold select
    split
    · exact ih independent
    · next clear =>
      apply ih
      apply List.pairwise_append.mpr ⟨independent,List.pairwise_singleton _ _,?_⟩
      intro first member later only conflict
      rw [List.mem_singleton.mp only] at conflict
      exact clear ⟨first,member,conflict⟩

/-- A value that is not taken conflicts with one that is, and that comes before it. -/
theorem select_complete {before : α → α → Prop} {kept rest : List α}
    (ordered : (kept ++ rest).Pairwise before) {value : α} (member : value ∈ rest)
    (dropped : value ∉ select conflicts kept rest) :
    ∃ other ∈ select conflicts kept rest, before other value ∧ conflicts value other := by
  induction rest generalizing kept with
  | nil => simp at member
  | cons first rest ih =>
    have regrouped : kept ++ first :: rest = kept ++ [first] ++ rest := by simp
    by_cases conflict : ∃ other ∈ kept, conflicts first other
    · have skipped : select conflicts kept (first :: rest) = select conflicts kept rest := by
        rw [select,if_pos conflict]
      have later := ordered.sublist
        (List.Sublist.append_left (List.sublist_cons_self first rest) kept)
      rw [skipped] at dropped ⊢
      rcases List.mem_cons.mp member with rfl | member
      · obtain ⟨other,taken,against⟩ := conflict
        have earlier := (List.pairwise_append.mp ordered).2.2 other taken value List.mem_cons_self
        exact ⟨other,(select_extends conflicts kept rest).subset taken,earlier,against⟩
      · exact ih later member dropped
    · have taken : select conflicts kept (first :: rest) =
          select conflicts (kept ++ [first]) rest := by
        rw [select,if_neg conflict]
      rw [taken] at dropped ⊢
      rw [regrouped] at ordered
      rcases List.mem_cons.mp member with rfl | member
      · exact absurd ((select_extends conflicts (kept ++ [value]) rest).subset (by simp)) dropped
      · exact ih ordered member dropped

/-- The selection that stops as soon as so many values are taken. -/
def selectUpTo (limit : Nat) : List α → List α → List α
  | kept, [] => kept
  | kept, value :: rest =>
    if ∃ other ∈ kept, conflicts value other then selectUpTo limit kept rest
    else if (kept ++ [value]).length = limit then kept ++ [value]
    else selectUpTo limit (kept ++ [value]) rest

theorem selectUpTo_eq {limit : Nat} {kept : List α} (rest : List α) (few : kept.length < limit) :
    selectUpTo conflicts limit kept rest = (select conflicts kept rest).take limit := by
  induction rest generalizing kept with
  | nil => exact (List.take_of_length_le (Nat.le_of_lt few)).symm
  | cons value rest ih =>
    unfold selectUpTo select
    by_cases conflict : ∃ other ∈ kept, conflicts value other
    · rw [if_pos conflict,if_pos conflict]
      exact ih few
    · rw [if_neg conflict,if_neg conflict]
      by_cases full : (kept ++ [value]).length = limit
      · rw [if_pos full,← full]
        exact List.prefix_iff_eq_take.mp (select_extends conflicts (kept ++ [value]) rest)
      · rw [if_neg full]
        apply ih
        rw [List.length_append,List.length_singleton] at full ⊢
        omega

section Limit

variable {before : α → α → Prop} (irrefl : ∀ a, ¬before a a)
  (trans : ∀ a b c, before a b → before b c → before a c)
include irrefl trans

/-- A value that is not taken before the limit is reached conflicts with one that is. -/
theorem take_complete {values : List α} (ordered : values.Pairwise before) {limit : Nat} {value : α}
    (member : value ∈ values) (dropped : value ∉ (select conflicts [] values).take limit)
    (reached : ((select conflicts [] values).take limit).length < limit ∨
      ∃ last ∈ (select conflicts [] values).take limit, before value last) :
    ∃ other ∈ (select conflicts [] values).take limit,
      before other value ∧ conflicts value other := by
  have whole := List.take_append_drop limit (select conflicts [] values)
  have inOrder : (select conflicts [] values).Pairwise before :=
    ordered.sublist (by simpa using select_sublist conflicts [] values)
  rw [← whole] at inOrder
  have across := (List.pairwise_append.mp inOrder).2.2
  have split : ∀ other ∈ select conflicts [] values,
      other ∈ (select conflicts [] values).take limit ∨
        other ∈ (select conflicts [] values).drop limit := by
    intro other taken
    rw [← whole] at taken
    exact List.mem_append.mp taken
  rcases reached with short | ⟨last,taken,earlier⟩
  · have all : (select conflicts [] values).take limit = select conflicts [] values := by
      apply List.take_of_length_le
      rw [List.length_take] at short
      omega
    rw [all] at dropped ⊢
    exact select_complete conflicts ordered member dropped
  · have absent : value ∉ select conflicts [] values := by
      intro taken
      have late := (split value taken).resolve_left dropped
      exact irrefl value (trans value last value earlier (across last ‹_› value late))
    obtain ⟨other,among,behind,against⟩ := select_complete conflicts ordered member absent
    refine ⟨other,(split other among).resolve_right ?_,behind,against⟩
    intro late
    have cycle := trans last other value (across last taken other late) behind
    exact irrefl value (trans value last value earlier cycle)

end Limit

end Greedy
