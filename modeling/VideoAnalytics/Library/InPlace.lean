import VideoAnalytics.Library.Lanes

/-! Passes that compute one area of memory from another or rewrite it in place, block by
block. -/
namespace InPlace
open Loop Memory Lanes

variable {α ε : Type}

/-- The areas are one or apart. -/
def Placed (src dst size : Nat) : Prop := src = dst ∨ src + size ≤ dst ∨ dst + size ≤ src

instance (src dst size : Nat) : Decidable (Placed src dst size) :=
  inferInstanceAs (Decidable (_ ∨ _ ∨ _))

/-- Some entries have become what the image of the source has there, and nothing else has
changed. -/
structure Partly (src dst size : Nat) (image : (Nat → α) → Nat → α) (before after : Memory α)
    (done : Nat → Prop) : Prop where
  cells : ∀ cell < size, done cell → after (dst + cell) = image (before.offset src) cell
  only : ∀ address, (∀ cell < size, done cell → address ≠ dst + cell) →
    after address = before address

/-- All entries have. -/
def Rewrites (src dst size : Nat) (image : (Nat → α) → Nat → α) (before after : Memory α) : Prop :=
  Partly src dst size image before after fun _ => True

/-- An entry depends on entries of its own block. -/
def Local (size : Nat) (image : (Nat → α) → Nat → α) : Prop :=
  ∀ x y cell, (∀ other, other / size = cell / size → x other = y other) → image x cell = image y cell

theorem Local.wider {size : Nat} {image : (Nat → α) → Nat → α} (close : Local size image)
    (count : Nat) : Local (count * size) image := by
  intro x y cell same
  apply close
  intro other beside
  apply same
  rw [Nat.mul_comm,← Nat.div_div_eq_div_mul,beside,Nat.div_div_eq_div_mul]

private theorem Local.inside {size : Nat} {image : (Nat → α) → Nat → α} (close : Local size image)
    {count cell : Nat} {x y : Nat → α} (same : ∀ cell < count * size, x cell = y cell)
    (low : cell < count * size) : image x cell = image y cell := by
  apply close
  intro other beside
  apply same
  have some : 0 < size := Nat.pos_of_lt_mul_left low
  rw [← Nat.div_lt_iff_lt_mul some] at low ⊢
  rwa [beside]

section Partly

variable {src dst size : Nat} {image : (Nat → α) → Nat → α} {before after : Memory α}
  {done : Nat → Prop}

theorem partly_none (before : Memory α) : Partly src dst size image before before fun _ => False where
  cells _ _ := False.elim
  only _ _ := rfl

theorem Partly.congr {also : Nat → Prop} (partly : Partly src dst size image before after done)
    (same : ∀ cell < size, (done cell ↔ also cell)) :
    Partly src dst size image before after also where
  cells cell low now := partly.cells cell low ((same cell low).mpr now)
  only address outside := partly.only address fun cell low already =>
    outside cell low ((same cell low).mp already)

/-- Entries of the source whose turn has not come are as they were. -/
theorem Partly.load (partly : Partly src dst size image before after done)
    (placed : Placed src dst size) {cell : Nat} (low : cell < size) (left : ¬done cell) :
    after (src + cell) = before (src + cell) := by
  apply partly.only
  intro other below already same
  rcases placed with equal | apart
  · have here : other = cell := by omega
    exact left (here ▸ already)
  · omega

private theorem Partly.store (also : Nat → Prop) {memory : Memory α}
    (partly : Partly src dst size image before after done)
    (right : ∀ cell < size, also cell → memory (dst + cell) = image (before.offset src) cell)
    (only : ∀ address, (∀ cell < size, also cell → address ≠ dst + cell) →
      memory address = after address) :
    Partly src dst size image before memory fun cell => done cell ∨ also cell where
  cells cell low now := by
    by_cases here : also cell
    · exact right cell low here
    · rw [only (dst + cell) fun other _ there same => here (Nat.add_left_cancel same ▸ there)]
      exact partly.cells cell low (now.resolve_right here)
  only address outside := by
    rw [only address fun cell low now => outside cell low (.inr now)]
    exact partly.only address fun cell low already => outside cell low (.inl already)

theorem Partly.loadu {width offset : Nat} (partly : Partly src dst size image before after done)
    (placed : Placed src dst size) (within : offset + width ≤ size)
    (left : ∀ lane : Fin width, ¬done (offset + lane)) :
    (loadu (src + size) after (src + offset) : Except Outside (Lanes width α)) =
      .ok fun lane => before.offset src (offset + lane) := by
  rw [loadu_within _ (by omega)]
  congr 1
  funext lane
  have low := lane.isLt
  rw [Nat.add_assoc,partly.load placed (by omega) (left lane)]
  rfl

theorem Partly.storeu {width offset : Nat} {values : Lanes width α}
    (partly : Partly src dst size image before after done) (within : offset + width ≤ size)
    (right : ∀ lane : Fin width, values lane = image (before.offset src) (offset + lane)) :
    ∃ next, storeu (dst + size) after (dst + offset) values = .ok next ∧
      Partly src dst size image before next
        fun cell => done cell ∨ offset ≤ cell ∧ cell < offset + width := by
  refine ⟨_,if_pos (by omega),partly.store (fun cell => offset ≤ cell ∧ cell < offset + width) ?_ ?_⟩
  · intro cell _ here
    rw [dif_pos (by omega),right]
    congr 1
    simp only
    omega
  · intro address outside
    apply dif_neg
    intro inside
    exact outside (address - dst) (by omega) (by omega) (by omega)

theorem Rewrites.unique {other : Memory α} (rewrites : Rewrites src dst size image before after)
    (also : Rewrites src dst size image before other) : after = other := by
  funext address
  by_cases outside : ∀ cell < size, address ≠ dst + cell
  · rw [rewrites.only address fun cell low _ => outside cell low,
      also.only address fun cell low _ => outside cell low]
  · simp only [not_forall,not_not] at outside
    obtain ⟨cell,low,rfl⟩ := outside
    rw [rewrites.cells cell low trivial,also.cells cell low trivial]

end Partly

/-- The passes over the blocks, each on what the one before has left. -/
theorem rewrites_blocks {src dst count size : Nat} {image : (Nat → α) → Nat → α}
    {body : Nat → Memory α → Except ε (Memory α)} {before after : Memory α}
    (placed : Placed src dst (count * size)) (close : Local size image)
    (passed : tryLoop count body before = .ok after)
    (steps : ∀ b memory next, b < count → body b memory = .ok next →
      Partly src dst (count * size) image memory next fun cell => cell / size = b) :
    Rewrites src dst (count * size) image before after := by
  have holds := tryLoop_rule
    (fun passes memory => Partly src dst (count * size) image before memory
      fun cell => cell / size < passes) passed
    ((partly_none before).congr fun cell _ => by simp) ?_
  · apply holds.congr
    intro cell low
    simp only [iff_true]
    exact Nat.div_lt_of_lt_mul (by rwa [Nat.mul_comm])
  · intro b memory next low partly ran
    have step := steps b memory next low ran
    apply (partly.store (fun cell => cell / size = b) ?_ step.only).congr
    · intro cell _
      omega
    · intro cell within here
      rw [step.cells cell within here]
      apply close
      intro other beside
      have bound : other < count * size := by
        rw [← Nat.div_lt_iff_lt_mul (Nat.pos_of_lt_mul_left within)]
        omega
      exact partly.load placed bound (by omega)

theorem exists_blocks {src dst count size : Nat} {image : (Nat → α) → Nat → α}
    {body : Nat → Memory α → Except ε (Memory α)} (before : Memory α)
    (placed : Placed src dst (count * size)) (close : Local size image)
    (steps : ∀ b memory, b < count → ∃ next, body b memory = .ok next ∧
      Partly src dst (count * size) image memory next fun cell => cell / size = b) :
    ∃ after, tryLoop count body before = .ok after ∧
      Rewrites src dst (count * size) image before after := by
  obtain ⟨after,passed,-⟩ := tryLoop_induct (fun _ _ => True) before trivial
    fun b memory low _ => by
      obtain ⟨next,ran,-⟩ := steps b memory low
      exact ⟨next,ran,trivial⟩
  refine ⟨after,passed,rewrites_blocks placed close passed ?_⟩
  intro b memory next low ran
  obtain ⟨other,also,partly⟩ := steps b memory low
  obtain rfl := Except.ok.inj (ran.symm.trans also)
  exact partly

/-- A second pass in place behind a first one. -/
theorem Rewrites.andThen {src dst count size : Nat} {first second : (Nat → α) → Nat → α}
    {before between after : Memory α} (begins : Rewrites src dst (count * size) first before between)
    (continues : Rewrites dst dst (count * size) second between after) (close : Local size second) :
    Rewrites src dst (count * size) (fun x => second (first x)) before after where
  cells cell low _ := by
    rw [continues.cells cell low trivial]
    exact close.inside (fun other below => begins.cells other below trivial) low
  only address outside := by
    rw [continues.only address outside,begins.only address outside]

end InPlace
