import VideoAnalytics.Library.Memory

/-! Copies byte by byte into a memory area that record what they read and write,
and the rule for a loop whose passes each copy the next byte. -/
namespace Copying
open Loop Memory

structure Copy (Source α : Type) where
  dest : Memory α
  read : List Source
  written : List Nat

variable {Source α : Type}

def Copy.put (values : Source → α) (target : Nat) (source : Source) (copy : Copy Source α) :
    Copy Source α where
  dest := copy.dest.write target (values source)
  read := copy.read ++ [source]
  written := copy.written ++ [target]

/-- So many bytes from the target on have been copied, each from its own source. -/
structure Copied (values : Source → α) (source : Nat → Source) (target count : Nat)
    (before after : Copy Source α) : Prop where
  value : ∀ n, n < count → after.dest (target + n) = values (source n)
  only : before.dest.OnlyIn after.dest target count
  read : ∀ place, place ∈ after.read ↔ place ∈ before.read ∨ ∃ n, n < count ∧ place = source n
  written : ∀ address, address ∈ after.written ↔
    address ∈ before.written ∨ ∃ n, n < count ∧ address = target + n

variable {values : Source → α} {source : Nat → Source} {target count : Nat}
  {before middle after : Copy Source α}

theorem Copied.start : Copied values source target 0 before before :=
  ⟨by omega,OnlyIn.refl _ _ _,by simp,by simp⟩

theorem Copied.next (copied : Copied values source target count before middle) :
    Copied values source target (count + 1) before
      (middle.put values (target + count) (source count)) := by
  have wider := copied.only.wider (Nat.le_refl target) 
    (by omega : target + count ≤ target + (count + 1))
  refine ⟨?_,wider.write _ _ (by omega) (by omega),?_,?_⟩
  · intro n low
    unfold Copy.put
    by_cases last : n = count
    · subst last
      exact write_same ..
    · dsimp only
      rw [write_other _ _ _ _ (by omega)]
      exact copied.value n (by omega)
  · intro place
    unfold Copy.put
    rw [List.mem_append,List.mem_singleton,copied.read,or_assoc,Nat.exists_lt_succ_right]
  · intro address
    unfold Copy.put
    rw [List.mem_append,List.mem_singleton,copied.written,or_assoc,Nat.exists_lt_succ_right]

private theorem forLoop_copied (body : Nat → Copy Source α → Copy Source α)
    (puts : ∀ n copy, n < count → body n copy = copy.put values (target + n) (source n)) :
    Copied values source target count before (forLoop count body before) := by
  apply forLoop_induct fun passes after => Copied values source target passes before after
  · exact Copied.start
  · intro n middle within copied
    rw [puts n middle within]
    exact copied.next

theorem Copied.written_iff (copied : Copied values source target count before after)
    (address : Nat) : address ∈ after.written ↔
      address ∈ before.written ∨ target ≤ address ∧ address < target + count := by
  rw [copied.written]
  apply or_congr_right
  constructor
  · rintro ⟨n,low,rfl⟩
    omega
  · rintro ⟨behind,within⟩
    exact ⟨address - target,by omega,by omega⟩

/-- The sources of a grid's cells, row by row. -/
def grid (cols : Nat) (cells : Nat → Nat → Source) (n : Nat) : Source := cells (n / cols) (n % cols)

private theorem grid_cell {cols j : Nat} (cells : Nat → Nat → Source) (i : Nat)
    (inside : j < cols) : grid cols cells (i * cols + j) = cells i j := by
  unfold grid
  rw [cell_row i inside,cell_col i inside]

theorem forLoop_grid {rows cols : Nat} {cells : Nat → Nat → Source}
    (body : Nat → Nat → Copy Source α → Copy Source α)
    (puts : ∀ i j copy, body i j copy = copy.put values (target + (i * cols + j)) (cells i j)) :
    Copied values (grid cols cells) target (rows * cols) before
      (forLoop rows (fun i => forLoop cols (body i)) before) := by
  rw [forLoop_nested]
  apply forLoop_copied
  intro n copy low
  rw [puts,Nat.div_add_mod']
  rfl

section Grid

variable {rows cols : Nat} {cells : Nat → Nat → Source}

theorem Copied.cell (copied : Copied values (grid cols cells) target (rows * cols) before after)
    {i j : Nat} (low : i < rows) (inside : j < cols) :
    after.dest (target + (i * cols + j)) = values (cells i j) := by
  rw [copied.value _ (cell_within low inside),grid_cell cells i inside]

theorem exists_cell (holds : Nat → Prop) :
    (∃ n, n < rows * cols ∧ holds n) ↔
      ∃ i j, i < rows ∧ j < cols ∧ holds (i * cols + j) := by
  constructor
  · rintro ⟨n,low,here⟩
    have positive : 0 < cols := Nat.pos_of_mul_pos_left (by omega : 0 < rows * cols)
    refine ⟨n / cols,n % cols,Nat.div_lt_of_lt_mul (by rwa [Nat.mul_comm]),
      Nat.mod_lt n positive,?_⟩
    rw [Nat.div_add_mod']
    exact here
  · rintro ⟨i,j,low,inside,here⟩
    exact ⟨i * cols + j,cell_within low inside,here⟩

theorem Copied.read_grid (copied : Copied values (grid cols cells) target (rows * cols) before after)
    (place : Source) : place ∈ after.read ↔
      place ∈ before.read ∨ ∃ i j, i < rows ∧ j < cols ∧ place = cells i j := by
  rw [copied.read,exists_cell]
  apply or_congr_right
  constructor
  · rintro ⟨i,j,low,inside,rfl⟩
    exact ⟨i,j,low,inside,grid_cell cells i inside⟩
  · rintro ⟨i,j,low,inside,rfl⟩
    exact ⟨i,j,low,inside,(grid_cell cells i inside).symm⟩

end Grid

end Copying
