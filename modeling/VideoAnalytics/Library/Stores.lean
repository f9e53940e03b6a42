import VideoAnalytics.Library.Memory
import Mathlib.Data.List.Range

/-! Programs by the stores that they make, in order: what memory holds after them,
and lists of addresses that tile a region. -/
namespace Memory

variable {α β : Type}

def writeAll (memory : Memory α) (stores : List (Nat × α)) : Memory α :=
  stores.foldl (fun memory store => memory.write store.1 store.2) memory

/-- Each address of a region once, and no other. -/
def Tiles (base size : Nat) (addresses : List Nat) : Prop :=
  addresses.Perm (List.range' base size)

theorem writeAll_append (memory : Memory α) (first second : List (Nat × α)) :
    memory.writeAll (first ++ second) = (memory.writeAll first).writeAll second :=
  List.foldl_append

theorem writeAll_other {stores : List (Nat × α)} {address : Nat} (memory : Memory α)
    (absent : address ∉ stores.map Prod.fst) : memory.writeAll stores address = memory address := by
  induction stores generalizing memory with
  | nil => rfl
  | cons store stores ih =>
    rw [List.map_cons,List.mem_cons,not_or] at absent
    exact (ih _ absent.2).trans (write_other _ _ _ _ absent.1)

theorem writeAll_mem {stores : List (Nat × α)} {address : Nat} {value : α} (memory : Memory α)
    (once : (stores.map Prod.fst).Nodup) (member : (address,value) ∈ stores) :
    memory.writeAll stores address = value := by
  induction stores generalizing memory with
  | nil => cases member
  | cons store stores ih =>
    rw [List.map_cons,List.nodup_cons] at once
    rcases List.mem_cons.mp member with rfl | member
    · exact (writeAll_other _ once.1).trans (write_same _ _ _)
    · exact ih _ once.2 member

section Tiles

variable {base size : Nat} {addresses : List Nat}

theorem Tiles.nodup (tiles : Tiles base size addresses) : addresses.Nodup :=
  tiles.nodup_iff.mpr List.nodup_range'

theorem Tiles.mem_iff (tiles : Tiles base size addresses) {address : Nat} :
    address ∈ addresses ↔ base ≤ address ∧ address < base + size := by
  rw [List.Perm.mem_iff tiles,List.mem_range'_1]

/-- So many addresses that reach all of the region reach none twice. -/
theorem tiles_of_covers (length : addresses.length = size)
    (covers : ∀ address, base ≤ address → address < base + size → address ∈ addresses) :
    Tiles base size addresses := by
  have sub : List.range' base size ⊆ addresses := by
    intro address member
    rw [List.mem_range'_1] at member
    exact covers address member.1 member.2
  have subperm := List.subperm_of_subset List.nodup_range' sub
  exact (subperm.perm_of_length_le (by rw [length,List.length_range'])).symm

/-- Pieces that tile one block each tile the blocks together. -/
theorem Tiles.blocks {count : Nat} {pieces : Nat → List Nat}
    (tiles : ∀ i, i < count → Tiles (base + i * size) size (pieces i)) :
    Tiles base (count * size) ((List.range count).flatMap pieces) := by
  induction count with
  | zero => simp [Tiles]
  | succ count ih =>
    have earlier := ih fun i low => tiles i (by omega)
    have last := tiles count (Nat.lt_succ_self count)
    unfold Tiles
    rw [List.range_succ,List.flatMap_append,List.flatMap_singleton,Nat.succ_mul,
      ← List.range'_append_1]
    exact List.Perm.append earlier last

theorem writeAll_tiles {stores : List (Nat × α)} (memory : Memory α)
    (tiles : Tiles base size (stores.map Prod.fst)) {values : Nat → α}
    (right : ∀ store ∈ stores, store.2 = values store.1) (address : Nat) :
    memory.writeAll stores address =
      if base ≤ address ∧ address < base + size then values address else memory address := by
  by_cases inside : base ≤ address ∧ address < base + size
  · obtain ⟨store,member,rfl⟩ := List.mem_map.mp (tiles.mem_iff.mpr inside)
    rw [if_pos inside,← right store member]
    exact writeAll_mem memory tiles.nodup member
  · rw [if_neg inside]
    exact writeAll_other memory (mt tiles.mem_iff.mp inside)

end Tiles

end Memory
