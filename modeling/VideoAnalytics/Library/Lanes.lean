import VideoAnalytics.Library.Memory

/-! Vectors of lanes that are loaded from and stored to memory within so many
entries, and the loop that handles a block of entries in each pass. -/
abbrev Lanes (width : Nat) (α : Type) := Fin width → α

namespace Lanes
open Loop Memory

variable {α β γ : Type} {width : Nat}

inductive Outside
  | at (first : Nat)
  deriving DecidableEq, Repr

def set1 (value : α) : Lanes width α := fun _ => value

def zip (op : α → β → γ) (a : Lanes width α) (b : Lanes width β) : Lanes width γ :=
  fun lane => op (a lane) (b lane)

/-- The lanes of the second where the mask is set, else of the first. -/
def blend (a b : Lanes width α) (mask : Lanes width Bool) : Lanes width α :=
  fun lane => if mask lane then b lane else a lane

def loadu (entries : Nat) (memory : Memory α) (first : Nat) : Except Outside (Lanes width α) :=
  if first + width ≤ entries then .ok fun lane => memory (first + lane)
  else .error (.at first)

def storeu (entries : Nat) (memory : Memory α) (first : Nat) (lanes : Lanes width α) :
    Except Outside (Memory α) :=
  if first + width ≤ entries then
    .ok fun address =>
      if inside : first ≤ address ∧ address - first < width then lanes ⟨address - first,inside.2⟩
      else memory address
  else .error (.at first)

/-- A load through a pointer that may lie before the first entry. -/
def loadAt (entries : Nat) (memory : Memory α) (pointer : Int) : Except Outside (Lanes width α) :=
  if 0 ≤ pointer then loadu entries memory pointer.toNat else .error (.at 0)

def storeAt (entries : Nat) (memory : Memory α) (pointer : Int) (lanes : Lanes width α) :
    Except Outside (Memory α) :=
  if 0 ≤ pointer then storeu entries memory pointer.toNat lanes else .error (.at 0)

theorem loadAt_natCast (entries : Nat) (memory : Memory α) (first : Nat) :
    (loadAt entries memory (first : Int) : Except Outside (Lanes width α)) =
      loadu entries memory first := if_pos (Int.natCast_nonneg first)

theorem storeAt_natCast (entries : Nat) (memory : Memory α) (first : Nat) (lanes : Lanes width α) :
    storeAt entries memory (first : Int) lanes = storeu entries memory first lanes :=
  if_pos (Int.natCast_nonneg first)

theorem loadu_within {entries first : Nat} (memory : Memory α) (within : first + width ≤ entries) :
    (loadu entries memory first : Except Outside (Lanes width α)) =
      .ok fun lane => memory (first + lane) := if_pos within

/-- A block whose lanes each update their entry is stored as by a loop over them. -/
theorem storeu_update {entries first : Nat} (memory : Memory α) (update : Nat → α → α)
    (within : first + width ≤ entries) :
    storeu entries memory first
        (fun lane : Fin width => update lane (memory (first + lane))) =
      .ok (forLoop width
        (fun i memory => memory.write (first + i) (update i (memory (first + i)))) memory) := by
  unfold storeu
  rw [if_pos within]
  congr 1
  ext address
  rw [forLoop_update]
  by_cases inside : first ≤ address ∧ address - first < width
  · rw [dif_pos inside,if_pos (by omega)]
    dsimp only
    rw [Nat.add_sub_cancel' inside.1]
  · rw [dif_neg inside,if_neg (by omega)]

theorem storeu_single {entries first : Nat} (memory : Memory α) (value : α)
    (within : first + 1 ≤ entries) :
    storeu entries memory first (fun _ : Fin 1 => value) = .ok (memory.write first value) :=
  storeu_update memory (fun _ _ => value) within

/-- The passes over blocks do what a loop over their entries does. -/
theorem tryLoop_blocks (entries : Nat) {first count : Nat} (update : Nat → α → α)
    {body : Nat → Memory α → Except Outside (Memory α)}
    (steps : ∀ i memory, i < count → body i memory =
      storeu entries memory (first + i * width)
        (fun lane : Fin width =>
          update (i * width + lane) (memory (first + i * width + lane))))
    (within : first + count * width ≤ entries) (before : Memory α) :
    tryLoop count body before =
      .ok (forLoop (count * width)
        (fun i memory => memory.write (first + i) (update i (memory (first + i)))) before) := by
  induction count with
  | zero => rw [Nat.zero_mul]; rfl
  | succ count ih =>
    rw [Nat.succ_mul] at within ⊢
    rw [forLoop_add]
    unfold tryLoop
    rw [ih (fun i memory low => steps i memory (by omega)) (by omega)]
    have block := steps count
      (forLoop (count * width)
        (fun i memory => memory.write (first + i) (update i (memory (first + i)))) before)
      (Nat.lt_succ_self count)
    rw [storeu_update _ (fun i => update (count * width + i)) (by omega)] at block
    simp only [Nat.add_assoc] at block ⊢
    exact block

end Lanes
