import Mathlib.Data.List.Nodup
import Mathlib.Logic.Function.Basic

/-! Objects that a device creates and destroys by handle, and the slots of a program that
hold the handles: which slots stay good, and that nothing is lost. -/
namespace Handles

/-- The objects that have been created and not destroyed, each by a handle of its own. -/
structure Device (Object : Type) where
  live : List (Nat × Object)
  next : Nat
  fresh : ∀ entry ∈ live, entry.1 < next
  unique : (live.map Prod.fst).Nodup

variable {Object Slot : Type}

def Device.create (device : Device Object) (object : Object) : Device Object where
  live := (device.next,object) :: device.live
  next := device.next + 1
  fresh := by
    intro entry member
    rcases List.mem_cons.mp member with rfl | old
    · exact Nat.lt_succ_self _
    · exact Nat.lt_succ_of_lt (device.fresh entry old)
  unique := by
    rw [List.map_cons,List.nodup_cons]
    refine ⟨?_,device.unique⟩
    intro member
    obtain ⟨entry,old,same⟩ := List.mem_map.mp member
    have low := device.fresh entry old
    omega

def Device.destroy (device : Device Object) (handle : Nat) : Device Object where
  live := device.live.filter fun entry => entry.1 ≠ handle
  next := device.next
  fresh entry member := device.fresh entry (List.mem_of_mem_filter member)
  unique := device.unique.sublist (List.filter_sublist.map _)

/-- Destroys what a slot holds, if anything. -/
def Device.release (device : Device Object) (held : Option Nat) : Device Object :=
  match held with
  | none => device
  | some handle => device.destroy handle

/-- A handle of a live object. -/
def Points (device : Device Object) (held : Option Nat) (object : Object) : Prop :=
  ∃ handle, held = some handle ∧ (handle,object) ∈ device.live

/-- Each slot is empty or holds a live handle that no other slot holds. -/
structure Owned (device : Device Object) (held : Slot → Option Nat) : Prop where
  live : ∀ slot handle, held slot = some handle → ∃ object, (handle,object) ∈ device.live
  apart : ∀ slot other handle, held slot = some handle → held other = some handle → slot = other

/-- Nothing is live that no slot holds. -/
def Tight (device : Device Object) (held : Slot → Option Nat) : Prop :=
  ∀ entry ∈ device.live, ∃ slot, held slot = some entry.1

variable {device : Device Object} {held : Slot → Option Nat} {object : Object}

@[simp] theorem mem_create {entry : Nat × Object} :
    entry ∈ (device.create object).live ↔ entry = (device.next,object) ∨ entry ∈ device.live :=
  List.mem_cons

@[simp] theorem mem_destroy {entry : Nat × Object} {handle : Nat} :
    entry ∈ (device.destroy handle).live ↔ entry ∈ device.live ∧ entry.1 ≠ handle := by
  simp [Device.destroy]

@[simp] theorem mem_release {entry : Nat × Object} {handle : Option Nat} :
    entry ∈ (device.release handle).live ↔ entry ∈ device.live ∧ handle ≠ some entry.1 := by
  cases handle with
  | none => simp [Device.release]
  | some handle => simp [Device.release,eq_comm]

theorem Owned.live_iff (owned : Owned device held) (tight : Tight device held) (handle : Nat) :
    (∃ object, (handle,object) ∈ device.live) ↔ ∃ slot, held slot = some handle := by
  constructor
  · rintro ⟨object,member⟩
    exact tight _ member
  · rintro ⟨slot,holds⟩
    exact owned.live slot handle holds

@[simp] theorem points_some {handle : Nat} :
    Points device (some handle) object ↔ (handle,object) ∈ device.live := by
  simp [Points]

theorem Points.created : Points (device.create object) (some device.next) object :=
  ⟨device.next,rfl,mem_create.mpr (.inl rfl)⟩

theorem Points.create {handle : Option Nat} {known : Object} (points : Points device handle known)
    (object : Object) : Points (device.create object) handle known := by
  obtain ⟨number,holds,member⟩ := points
  exact ⟨number,holds,mem_create.mpr (.inr member)⟩

private theorem Owned.fresh (owned : Owned device held) (slot : Slot) :
    held slot ≠ some device.next := by
  intro holds
  obtain ⟨object,member⟩ := owned.live slot _ holds
  exact Nat.lt_irrefl _ (device.fresh _ member)

/-- What another slot points to outlives a release. -/
theorem Points.release (slot other : Slot) (points : Points device (held other) object)
    (owned : Owned device held) (differs : other ≠ slot) :
    Points (device.release (held slot)) (held other) object := by
  obtain ⟨handle,holds,member⟩ := points
  refine ⟨handle,holds,mem_release.mpr ⟨member,?_⟩⟩
  intro same
  exact differs (owned.apart other slot handle holds same)

/-- An object that no slot holds changes nothing for the slots. -/
theorem Owned.extend (owned : Owned device held) : Owned (device.create object) held where
  live slot handle holds := by
    obtain ⟨known,member⟩ := owned.live slot handle holds
    exact ⟨known,mem_create.mpr (.inr member)⟩
  apart := owned.apart

section Live

variable {other : Device Object} (same : other.live = device.live)

include same

theorem Owned.congr (owned : Owned device held) : Owned other held where
  live slot handle holds := same ▸ owned.live slot handle holds
  apart := owned.apart

theorem Points.congr {handle : Option Nat} (points : Points device handle object) :
    Points other handle object := by
  obtain ⟨known,holds,member⟩ := points
  exact ⟨known,holds,same ▸ member⟩

theorem Tight.congr (tight : Tight device held) : Tight other held := by
  intro entry member
  exact tight entry (same ▸ member)

end Live

private theorem filter_unused {handle : Nat} (unused : device.next ≤ handle) :
    (device.live.filter fun entry => entry.1 ≠ handle) = device.live := by
  apply List.filter_eq_self.mpr
  intro entry member
  have low := device.fresh entry member
  exact decide_eq_true (by omega)

/-- Two objects that are created and destroyed leave nothing behind. -/
theorem destroy_pair (device : Device Object) (first second : Object) :
    ((((device.create first).create second).destroy device.next).destroy
      (device.create first).next).live = device.live := by
  dsimp only [Device.create,Device.destroy]
  rw [List.filter_cons_of_pos (by simp),List.filter_cons_of_neg (by simp),
    List.filter_cons_of_neg (by simp),filter_unused (Nat.le_refl _),filter_unused (Nat.le_succ _)]

section Slots

variable [DecidableEq Slot]

private theorem Owned.release (owned : Owned device held) (slot : Slot) :
    Owned (device.release (held slot)) (Function.update held slot none) := by
  constructor
  · intro other handle holds
    by_cases here : other = slot
    · simp [here] at holds
    · rw [Function.update_of_ne here] at holds
      obtain ⟨object,member⟩ := owned.live other handle holds
      have kept := Points.release slot other ⟨handle,holds,member⟩ owned here
      obtain ⟨_,same,member⟩ := kept
      rw [holds,Option.some.injEq] at same
      exact ⟨object,same ▸ member⟩
  · intro first second handle left right
    have elsewhere (other : Slot) (holds : Function.update held slot none other = some handle) :
        held other = some handle := by
      by_cases here : other = slot
      · simp [here] at holds
      · rwa [Function.update_of_ne here] at holds
    exact owned.apart first second handle (elsewhere first left) (elsewhere second right)

private theorem Tight.release (tight : Tight device held) (slot : Slot) :
    Tight (device.release (held slot)) (Function.update held slot none) := by
  intro entry member
  obtain ⟨member,kept⟩ := mem_release.mp member
  obtain ⟨other,holds⟩ := tight entry member
  have differs : other ≠ slot := fun same => kept (same ▸ holds)
  exact ⟨other,by rw [Function.update_of_ne differs,holds]⟩

theorem Owned.create (owned : Owned device held) (object : Object) (slot : Slot) :
    Owned (device.create object) (Function.update held slot (some device.next)) := by
  constructor
  · intro other handle holds
    by_cases here : other = slot
    · rw [here,Function.update_self,Option.some.injEq] at holds
      exact ⟨object,mem_create.mpr (.inl (by rw [holds]))⟩
    · rw [Function.update_of_ne here] at holds
      obtain ⟨known,member⟩ := owned.live other handle holds
      exact ⟨known,mem_create.mpr (.inr member)⟩
  · intro first second handle left right
    by_cases atFirst : first = slot <;> by_cases atSecond : second = slot
    · rw [atFirst,atSecond]
    · rw [atFirst,Function.update_self] at left
      rw [Function.update_of_ne atSecond,← left] at right
      exact absurd right (owned.fresh second)
    · rw [atSecond,Function.update_self] at right
      rw [Function.update_of_ne atFirst,← right] at left
      exact absurd left (owned.fresh first)
    · rw [Function.update_of_ne atFirst] at left
      rw [Function.update_of_ne atSecond] at right
      exact owned.apart first second handle left right

theorem Tight.create (tight : Tight device held) (object : Object) (slot : Slot)
    (empty : held slot = none) :
    Tight (device.create object) (Function.update held slot (some device.next)) := by
  intro entry member
  rcases mem_create.mp member with rfl | old
  · exact ⟨slot,Function.update_self ..⟩
  · obtain ⟨other,holds⟩ := tight entry old
    have differs : other ≠ slot := by
      intro same
      rw [same,empty] at holds
      contradiction
    exact ⟨other,by rw [Function.update_of_ne differs,holds]⟩

/-- A slot whose object is made anew. -/
theorem Owned.replace (owned : Owned device held) (slot : Slot) :
    Owned ((device.release (held slot)).create object)
      (Function.update held slot (some (device.release (held slot)).next)) := by
  have kept := (owned.release slot).create object slot
  rwa [Function.update_idem] at kept

theorem Tight.replace (tight : Tight device held) (slot : Slot) :
    Tight ((device.release (held slot)).create object)
      (Function.update held slot (some (device.release (held slot)).next)) := by
  have kept := (tight.release slot).create object slot (Function.update_self ..)
  rwa [Function.update_idem] at kept

end Slots

end Handles
