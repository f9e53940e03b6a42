import Mathlib.Data.List.Sort

/-! What a C++ sort promises: the same elements, in the order of the comparison
where it is a strict weak order on them. Elements that compare equal may come
in any order, which the sort fixes for each input. -/
namespace Sorting

variable {α : Type} {less : α → α → Prop}

/-- The comparison is a strict weak order on these elements. -/
structure StrictWeak (less : α → α → Prop) (values : List α) : Prop where
  irrefl : ∀ a ∈ values, ¬less a a
  trans : ∀ a ∈ values, ∀ b ∈ values, ∀ c ∈ values, less a b → less b c → less a c
  compares : ∀ a ∈ values, ∀ b ∈ values, ∀ c ∈ values, less a c → less a b ∨ less b c

structure StdSort (less : α → α → Prop) where
  sort : List α → List α
  perm : ∀ values, (sort values).Perm values
  sorted : ∀ values, StrictWeak less values → (sort values).Pairwise fun a b => ¬less b a

/-- std::partial_sort: the first elements in order, and none behind them is less. -/
structure StdPartialSort (less : α → α → Prop) where
  sort : Nat → List α → List α
  perm : ∀ middle values, (sort middle values).Perm values
  sorted : ∀ middle values, StrictWeak less values →
    ((sort middle values).take middle).Pairwise fun a b => ¬less b a
  least : ∀ middle values, StrictWeak less values →
    ∀ a ∈ (sort middle values).take middle, ∀ b ∈ (sort middle values).drop middle, ¬less b a

private theorem StrictWeak.subset {values others : List α} (weak : StrictWeak less values)
    (subset : others ⊆ values) : StrictWeak less others where
  irrefl a member := weak.irrefl a (subset member)
  trans a first b second c third := weak.trans a (subset first) b (subset second) c (subset third)
  compares a first b second c third :=
    weak.compares a (subset first) b (subset second) c (subset third)

private theorem StrictWeak.asymm {values : List α} (weak : StrictWeak less values) (a b : α)
    (first : a ∈ values) (second : b ∈ values) (before : less a b) : ¬less b a := by
  intro after
  exact weak.irrefl a first (weak.trans a first b second a first before after)

/-- The comparison is a strict total order on these elements. -/
structure StrictTotal (less : α → α → Prop) (values : List α) : Prop where
  irrefl : ∀ a ∈ values, ¬less a a
  trans : ∀ a ∈ values, ∀ b ∈ values, ∀ c ∈ values, less a b → less b c → less a c
  connected : ∀ a ∈ values, ∀ b ∈ values, a ≠ b → less a b ∨ less b a

private theorem StrictTotal.weak {values : List α} (total : StrictTotal less values) :
    StrictWeak less values where
  irrefl := total.irrefl
  trans := total.trans
  compares a first b second c third before := by
    by_cases same : a = b
    · rw [← same]
      exact .inr before
    · rcases total.connected a first b second same with less | greater
      · exact .inl less
      · exact .inr (total.trans b second a first c third greater before)

/-- Where a list is in a strict order, its first elements are those with fewer
elements before them. -/
theorem mem_take_iff_rank {sorted : List α} (irrefl : ∀ a ∈ sorted, ¬less a a)
    (asymm : ∀ a ∈ sorted, ∀ b ∈ sorted, less a b → ¬less b a) (ordered : sorted.Pairwise less)
    [DecidableRel less] {value : α} (member : value ∈ sorted) (count : Nat) :
    value ∈ sorted.take count ↔ sorted.countP (fun other => less other value) < count := by
  obtain ⟨front,back,rfl⟩ := List.append_of_mem member
  obtain ⟨-,behind,across⟩ := List.pairwise_append.mp ordered
  have before : ∀ other ∈ front, less other value := fun other there =>
    across other there value List.mem_cons_self
  have after : ∀ other ∈ back, ¬less other value := fun other there =>
    asymm value member other (by simp [there]) ((List.pairwise_cons.mp behind).1 other there)
  have rank : (front ++ value :: back).countP (fun other => less other value) = front.length := by
    rw [List.countP_append,List.countP_cons,List.countP_eq_length.mpr (by simpa using before),
      List.countP_eq_zero.mpr (by simpa using after)]
    simp [irrefl value member]
  have absent : value ∉ front := fun there => irrefl value member (before value there)
  rw [rank,List.take_append]
  by_cases early : front.length < count
  · obtain ⟨more,position⟩ := Nat.exists_eq_add_of_lt early
    have left : count - front.length = more + 1 := by omega
    simp [left,early]
  · have none : count - front.length = 0 := by omega
    have other : value ∉ front.take count := fun there => absent (List.mem_of_mem_take there)
    simp [none,early,other]

section Insertion

variable (less) [DecidableRel less]

def insertionSort (values : List α) : List α :=
  values.insertionSort fun a b => ¬less b a

theorem insertionSort_perm (values : List α) : (insertionSort less values).Perm values :=
  List.perm_insertionSort _ values

private theorem orderedInsert_sorted (value : α) (values : List α)
    (weak : StrictWeak less (value :: values)) (sorted : values.Pairwise fun a b => ¬less b a) :
    (values.orderedInsert (fun a b => ¬less b a) value).Pairwise fun a b => ¬less b a := by
  induction values with
  | nil => simp
  | cons first values ih =>
    obtain ⟨least,rest⟩ := List.pairwise_cons.mp sorted
    by_cases smaller : less first value
    · have sub : value :: values ⊆ value :: first :: values := by
        intro other member
        simp only [List.mem_cons] at member ⊢
        tauto
      have later := ih (weak.subset sub) rest
      simp only [List.orderedInsert,smaller,not_true_eq_false,if_false]
      apply List.Pairwise.cons _ later
      intro other member
      rcases (List.mem_orderedInsert _).mp member with rfl | member
      · exact weak.asymm first other (by simp) (by simp) smaller
      · exact least other member
    · simp only [List.orderedInsert,smaller,not_false_eq_true,if_true]
      apply List.Pairwise.cons _ sorted
      intro other member
      rcases List.mem_cons.mp member with rfl | member
      · exact smaller
      · intro below
        have either := weak.compares other (by simp [member]) first (by simp) value (by simp) below
        rcases either with before | before
        · exact least other member before
        · exact smaller before

private theorem insertionSort_sorted (values : List α) (weak : StrictWeak less values) :
    (insertionSort less values).Pairwise fun a b => ¬less b a := by
  unfold insertionSort
  induction values with
  | nil => simp
  | cons value values ih =>
    have rest := weak.subset (List.subset_cons_self value values)
    apply orderedInsert_sorted
    · apply weak.subset
      intro other member
      rcases List.mem_cons.mp member with rfl | member
      · simp
      · exact List.mem_cons_of_mem _ ((List.mem_insertionSort _).mp member)
    · exact ih rest

theorem insertionSort_strict (values : List α) (total : StrictTotal less values)
    (distinct : values.Nodup) : (insertionSort less values).Pairwise less := by
  have perm := insertionSort_perm less values
  have different : (insertionSort less values).Pairwise (· ≠ ·) := perm.nodup_iff.mpr distinct
  apply ((insertionSort_sorted less values total.weak).and different).imp_of_mem
  rintro a b first second ⟨unordered,differ⟩
  have either := total.connected a (perm.subset first) b (perm.subset second) differ
  exact either.resolve_right unordered

theorem mem_take_insertionSort {values : List α} (total : StrictTotal less values)
    (distinct : values.Nodup) {value : α} (member : value ∈ values) (count : Nat) :
    value ∈ (insertionSort less values).take count ↔
      values.countP (fun other => less other value) < count := by
  have perm := insertionSort_perm less values
  rw [← perm.countP_eq]
  apply mem_take_iff_rank
  · intro a first
    exact total.irrefl a (perm.subset first)
  · intro a first b second
    exact total.weak.asymm a b (perm.subset first) (perm.subset second)
  · exact insertionSort_strict less values total distinct
  · exact perm.mem_iff.mpr member

/-- A strict total order leaves one sorted list. -/
theorem eq_insertionSort {values sorted : List α} (total : StrictTotal less values) (perm : sorted.Perm values)
    (ordered : sorted.Pairwise fun a b => ¬less b a) : sorted = insertionSort less values := by
  have other := insertionSort_perm less values
  apply (perm.trans other.symm).eq_of_pairwise _ ordered
    (insertionSort_sorted less values total.weak)
  intro a b first second unbelow unabove
  by_contra different
  rcases total.connected a (perm.subset first) b (other.subset second) different with below | above
  · exact unabove below
  · exact unbelow above

theorem StdSort.sort_eq (std : StdSort less) {values : List α} (total : StrictTotal less values) :
    std.sort values = insertionSort less values :=
  eq_insertionSort less total (std.perm values) (std.sorted values total.weak)

/-- Whatever a partial sort leaves behind the middle, its first elements are those of
a sort. -/
theorem StdPartialSort.take_eq (std : StdPartialSort less) {values : List α}
    (total : StrictTotal less values) (middle : Nat) :
    (std.sort middle values).take middle = (insertionSort less values).take middle := by
  let front := (std.sort middle values).take middle
  let back := (std.sort middle values).drop middle
  have perm : (front ++ back).Perm values := by
    rw [List.take_append_drop]
    exact std.perm middle values
  have sub : back ⊆ values := fun a member => perm.subset (List.mem_append_right _ member)
  have sorted := insertionSort_perm less back
  have whole : front ++ insertionSort less back = insertionSort less values := by
    apply eq_insertionSort less total ((sorted.append_left front).trans perm)
    apply List.pairwise_append.mpr
    refine ⟨std.sorted middle values total.weak,
      insertionSort_sorted less back (total.weak.subset sub),?_⟩
    intro a first b second
    exact std.least middle values total.weak a first b (sorted.subset second)
  have none : middle ≤ (std.sort middle values).length ∨ insertionSort less back = [] := by
    by_cases long : middle ≤ (std.sort middle values).length
    · exact .inl long
    · right
      have empty : back = [] := List.drop_of_length_le (by omega)
      rw [empty] at sorted ⊢
      exact sorted.eq_nil
  rw [← whole]
  rcases none with long | empty
  · exact (List.take_left' (by rw [List.length_take,Nat.min_eq_left long])).symm
  · rw [empty,List.append_nil]
    exact (List.take_of_length_le (List.length_take_le _ _)).symm

theorem insertionSort_congr (other : α → α → Prop) [DecidableRel other] (values : List α)
    (same : ∀ a ∈ values, ∀ b ∈ values, less a b ↔ other a b) :
    insertionSort less values = insertionSort other values := by
  have inserted : ∀ value (sorted : List α), (∀ a ∈ sorted, less a value ↔ other a value) →
      sorted.orderedInsert (fun a b => ¬less b a) value =
        sorted.orderedInsert (fun a b => ¬other b a) value := by
    intro value sorted agree
    induction sorted with
    | nil => rfl
    | cons first sorted ih =>
      have rest := ih fun a member => agree a (List.mem_cons_of_mem _ member)
      simp only [List.orderedInsert,agree first List.mem_cons_self,rest]
  unfold insertionSort
  induction values with
  | nil => rfl
  | cons value values ih =>
    have rest := ih fun a first b second =>
      same a (List.mem_cons_of_mem _ first) b (List.mem_cons_of_mem _ second)
    rw [List.insertionSort_cons,List.insertionSort_cons,rest]
    apply inserted
    intro a member
    have among := (List.mem_insertionSort _).mp member
    exact same a (List.mem_cons_of_mem _ among) value List.mem_cons_self

def StdSort.insertion : StdSort less where
  sort := insertionSort less
  perm := insertionSort_perm less
  sorted := insertionSort_sorted less

def StdPartialSort.insertion : StdPartialSort less where
  sort _ := insertionSort less
  perm _ := insertionSort_perm less
  sorted middle values weak := (insertionSort_sorted less values weak).sublist
    (List.take_sublist middle _)
  least middle values weak := by
    have whole := insertionSort_sorted less values weak
    rw [← List.take_append_drop middle (insertionSort less values)] at whole
    exact (List.pairwise_append.mp whole).2.2

end Insertion

end Sorting
