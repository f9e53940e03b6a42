import VideoAnalytics.Library.Loop
import Mathlib.Logic.Function.Basic
import Mathlib.Tactic.Ring

/-! Flat memory read and written through addresses: the lists that lie in it,
and equal cells one after the other. -/

/-- A memory area, by address. -/
abbrev Memory (α : Type) := Nat → α

namespace Memory

variable {α : Type}

def write (memory : Memory α) (address : Nat) (value : α) : Memory α :=
  Function.update memory address value

/-- The area as seen through a pointer into it. -/
def offset (memory : Memory α) (base : Nat) : Memory α := fun i => memory (base + i)

/-- A list lies in the memory from an address on. -/
def Holds (memory : Memory α) (base : Nat) (values : List α) : Prop :=
  ∀ i (within : i < values.length), memory (base + i) = values[i]

/-- Nothing but a region has changed. -/
def OnlyIn (before after : Memory α) (base size : Nat) : Prop :=
  ∀ address, address < base ∨ base + size ≤ address → after address = before address

@[simp] theorem write_same (memory : Memory α) (address : Nat) (value : α) :
    memory.write address value address = value := Function.update_self ..

theorem write_other (memory : Memory α) (address other : Nat) (value : α)
    (different : other ≠ address) : memory.write address value other = memory other :=
  Function.update_of_ne different ..

@[simp] theorem offset_apply (memory : Memory α) (base i : Nat) :
    memory.offset base i = memory (base + i) := rfl

theorem offset_offset (memory : Memory α) (base further : Nat) :
    (memory.offset base).offset further = memory.offset (base + further) := by
  ext i
  simp [Nat.add_assoc]

@[simp] theorem holds_nil (memory : Memory α) (base : Nat) : memory.Holds base [] := by
  intro i within
  simp at within

private theorem Holds.congr {before after : Memory α} {base : Nat} {values : List α}
    (holds : before.Holds base values)
    (same : ∀ i, i < values.length → after (base + i) = before (base + i)) :
    after.Holds base values := by
  intro i within
  rw [same i within]
  exact holds i within

theorem Holds.extend {memory : Memory α} {base : Nat} {values : List α}
    (holds : memory.Holds base values) (value : α) :
    (memory.write (base + values.length) value).Holds base (values ++ [value]) := by
  intro i within
  rw [List.length_append,List.length_singleton] at within
  by_cases last : i = values.length
  · subst last
    simp
  · rw [write_other _ _ _ _ (by omega),List.getElem_append_left (by omega)]
    exact holds i (by omega)

theorem OnlyIn.refl (memory : Memory α) (base size : Nat) : memory.OnlyIn memory base size := by
  intro address _
  rfl

theorem OnlyIn.trans {before middle after : Memory α} {base size : Nat}
    (first : before.OnlyIn middle base size) (second : middle.OnlyIn after base size) :
    before.OnlyIn after base size := by
  intro address outside
  rw [second address outside,first address outside]

theorem OnlyIn.wider {before after : Memory α} {base size start count : Nat}
    (only : before.OnlyIn after base size) (low : start ≤ base) (high : base + size ≤ start + count) :
    before.OnlyIn after start count := by
  intro address outside
  exact only address (by omega)

theorem OnlyIn.write {before after : Memory α} {base size : Nat}
    (only : before.OnlyIn after base size) (address : Nat) (value : α) (low : base ≤ address)
    (high : address < base + size) : before.OnlyIn (after.write address value) base size := by
  intro other outside
  rw [write_other _ _ _ _ (by omega)]
  exact only other outside

theorem OnlyIn.holds {before after : Memory α} {base size start : Nat} {values : List α}
    (only : before.OnlyIn after base size) (holds : before.Holds start values)
    (apart : start + values.length ≤ base ∨ base + size ≤ start) : after.Holds start values := by
  apply holds.congr
  intro i within
  exact only _ (by omega)

theorem cell_within {cell count size i : Nat} (low : cell < count) (inside : i < size) :
    cell * size + i < count * size :=
  calc cell * size + i < cell * size + size := Nat.add_lt_add_left inside _
    _ = (cell + 1) * size := by ring
    _ ≤ count * size := Nat.mul_le_mul_right size low

theorem cell_apart (size : Nat) {cell other : Nat} (different : cell ≠ other) :
    cell * size + size ≤ other * size ∨ other * size + size ≤ cell * size := by
  rcases Nat.lt_or_gt_of_ne different with before | after
  · left
    calc cell * size + size = (cell + 1) * size := by ring
      _ ≤ other * size := Nat.mul_le_mul_right size before
  · right
    calc other * size + size = (other + 1) * size := by ring
      _ ≤ cell * size := Nat.mul_le_mul_right size after

theorem cell_grouped (size n : Nat) {cell count : Nat} (low : cell < count) :
    n * (count * size) ≤ (n * count + cell) * size ∧
      (n * count + cell) * size + size ≤ n * (count * size) + count * size := by
  have bound := Nat.mul_le_mul_right size (Nat.succ_le_of_lt low)
  rw [Nat.succ_mul] at bound
  rw [Nat.add_mul,Nat.mul_assoc]
  constructor
  · omega
  · omega

theorem cells_apart (size : Nat) {count cell n m : Nat} (low : cell < count) (different : n ≠ m) :
    (n * count + cell) * size + size ≤ m * (count * size) ∨
      m * (count * size) + count * size ≤ (n * count + cell) * size := by
  have grouped := cell_grouped size n low
  have apart := cell_apart (count * size) different
  omega

theorem OnlyIn.ofCell {before after : Memory α} {size n cell count : Nat}
    (only : before.OnlyIn after ((n * count + cell) * size) size) (low : cell < count) :
    before.OnlyIn after (n * (count * size)) (count * size) := by
  have grouped := cell_grouped size n low
  exact only.wider grouped.1 grouped.2

/-- A loop whose passes each update the next cell. -/
theorem forLoop_update (base count : Nat) (update : Nat → α → α) (before : Memory α)
    (address : Nat) :
    Loop.forLoop count (fun i memory => memory.write (base + i) (update i (memory (base + i))))
        before address =
      if base ≤ address ∧ address < base + count then update (address - base) (before address)
      else before address := by
  induction count with
  | zero =>
    rw [if_neg (by omega)]
    rfl
  | succ count ih =>
    unfold Loop.forLoop
    dsimp only
    by_cases last : address = base + count
    · subst last
      rw [if_neg (by omega)] at ih
      rw [write_same,ih,if_pos (by omega),Nat.add_sub_cancel_left]
    · rw [write_other _ _ _ _ last,ih]
      apply if_congr _ rfl rfl
      omega

theorem forLoop_write (base count : Nat) (values : Nat → α) (before : Memory α) (address : Nat) :
    Loop.forLoop count (fun i memory => memory.write (base + i) (values i)) before address =
      if base ≤ address ∧ address < base + count then values (address - base)
      else before address := forLoop_update base count (fun i _ => values i) before address

/-- A loop that overwrites those of the cells that are chosen. -/
theorem forLoop_mark (base count : Nat) (chosen : Nat → Prop) [DecidablePred chosen] (value : α)
    (before : Memory α) (address : Nat) :
    Loop.forLoop count
        (fun i memory =>
          memory.write (base + i) (if chosen (base + i) then value else memory (base + i)))
        before address =
      if base ≤ address ∧ address < base + count ∧ chosen address then value
      else before address := by
  rw [forLoop_update base count fun i old => if chosen (base + i) then value else old]
  by_cases inside : base ≤ address ∧ address < base + count
  · rw [if_pos inside,Nat.add_sub_cancel' inside.1]
    apply if_congr _ rfl rfl
    tauto
  · rw [if_neg inside,if_neg (by tauto)]

/-- A loop whose passes each fill the next block: what a pass has brought about
there is still so after the loop. -/
theorem forLoop_fills (base size : Nat) {count : Nat} {body : Nat → Memory α → Memory α}
    (holds : Nat → Memory α → Prop) (before : Memory α)
    (fills : ∀ i memory, i < count → holds i (body i memory))
    (keeps : ∀ i (old new : Memory α), i < count → holds i old →
      (∀ j, j < size → new (base + (i * size + j)) = old (base + (i * size + j))) → holds i new)
    (only : ∀ (i : Nat) (memory : Memory α), i < count →
      memory.OnlyIn (body i memory) (base + i * size) size) :
    (∀ i, i < count → holds i (Loop.forLoop count body before)) ∧
      before.OnlyIn (Loop.forLoop count body before) base (count * size) := by
  apply Loop.forLoop_induct fun passes after =>
    (∀ i, i < passes → holds i after) ∧ before.OnlyIn after base (count * size)
  · exact ⟨by omega,OnlyIn.refl _ _ _⟩
  · rintro passes after within ⟨filled,unchanged⟩
    constructor
    · intro i low
      by_cases last : i = passes
      · rw [last]
        exact fills passes after within
      · apply keeps i after _ (by omega) (filled i (by omega))
        intro j inside
        have earlier := cell_within (show i < passes by omega) inside
        exact only passes after within _ (by omega)
    · apply unchanged.trans
      refine (only passes after within).wider (Nat.le_add_right _ _) ?_
      calc base + passes * size + size = base + (passes + 1) * size := by ring
        _ ≤ base + count * size := Nat.add_le_add_left (Nat.mul_le_mul_right size within) _

/-- Memory that is written at one address after the other. -/
structure Cursor (α : Type) where
  memory : Memory α
  next : Nat
  written : List Nat

def Cursor.push (cursor : Cursor α) (value : α) : Cursor α where
  memory := cursor.memory.write cursor.next value
  next := cursor.next + 1
  written := cursor.written ++ [cursor.next]

/-- So many values have been pushed. -/
abbrev Pushes (before after : Cursor α) (count : Nat) : Prop :=
  Loop.Grows Cursor.next Cursor.written before after count

theorem push_pushes (cursor : Cursor α) (value : α) : Pushes cursor (cursor.push value) 1 :=
  ⟨rfl,rfl⟩

theorem foldl_push (values : List α) (cursor : Cursor α) :
    Pushes cursor (values.foldl Cursor.push cursor) values.length ∧
      (values.foldl Cursor.push cursor).memory.Holds cursor.next values ∧
      cursor.memory.OnlyIn (values.foldl Cursor.push cursor).memory cursor.next values.length := by
  induction values generalizing cursor with
  | nil => exact ⟨Loop.Grows.refl cursor,holds_nil _ _,OnlyIn.refl _ _ _⟩
  | cons value values ih =>
    obtain ⟨pushes,holds,only⟩ := ih (cursor.push value)
    rw [List.length_cons,Nat.add_comm]
    refine ⟨(push_pushes cursor value).trans pushes,?_,?_⟩
    · intro i within
      cases i with
      | zero =>
        have kept := only cursor.next (.inl (Nat.lt_succ_self _))
        exact kept.trans (write_same _ _ _)
      | succ i =>
        have later := holds i (Nat.lt_of_succ_lt_succ within)
        rw [List.getElem_cons_succ,← later]
        congr 1
        simp [Cursor.push]
        omega
    · intro address outside
      have kept := only address (by simp [Cursor.push]; omega)
      exact kept.trans (write_other _ _ _ _ (by omega))

end Memory
