import VideoAnalytics.Library.BatchingMismatch

/-! Switches between one buffer and two. A switch forgets the queue and the
unfinished batch but not the current buffer, whose old result the next complete
batch then collects in place of its own. -/
namespace Batching

variable {α : Type} {size : Nat}

/-- The stretches of insertions between switches: the number of items before the
first switch, then for each switch its mode with the number of items after it. -/
def stretches : List (Action α) → Nat × List (Bool × Nat)
  | [] => (0,[])
  | .insert _ _ :: rest => ((stretches rest).1 + 1,(stretches rest).2)
  | .switch async :: rest => (0,(async,(stretches rest).1) :: (stretches rest).2)

def Action.fine : Action α → Bool
  | .insert _ ok => ok
  | .switch _ => true

/-- After a stretch with a complete batch a stretch with two buffers completes none. -/
def Compatible (size : Nat) (earlier later : Bool × Nat) : Prop :=
  later.1 = true → ¬(size ≤ earlier.2 ∧ size ≤ later.2)

/-- The items to come are new to the buffers. -/
structure Apart (s : Batcher α) (items : List α) : Prop where
  distinct : (s.filling ++ items).Nodup
  current : ∀ source, s.current = some source → source ≠ [] ∧ ∀ item ∈ source, item ∉ items

/-- Two buffers of which the current one holds a result of forgotten items. -/
structure Stale (size : Nat) (s : Batcher α) : Prop where
  room : s.filling.length < size
  mode : s.async = true
  queue : s.queue = s.filling
  source : ∃ source, s.current = some source ∧ source ≠ [] ∧ ∀ item ∈ source, item ∉ s.filling

private theorem Apart.filled {s next : Batcher α} {item : α} {items : List α}
    (apart : Apart s (item :: items)) (filling : next.filling = s.filling ++ [item])
    (current : next.current = s.current) : Apart next items := by
  refine ⟨by simpa [filling] using apart.distinct,?_⟩
  intro source started
  rw [current] at started
  obtain ⟨some_source,new⟩ := apart.current source started
  exact ⟨some_source,fun member inside later => new member inside (.tail _ later)⟩

private theorem Apart.completed {s next : Batcher α} {item : α} {items : List α}
    (apart : Apart s (item :: items)) (filling : next.filling = [])
    (current : next.current = some (s.filling ++ [item])) : Apart next items := by
  have distinct : ((s.filling ++ [item]) ++ items).Nodup := by
    simpa using apart.distinct
  refine ⟨?_,?_⟩
  · rw [filling]
    exact List.Nodup.sublist (List.sublist_append_right _ _) distinct
  · intro source started
    rw [current] at started
    obtain rfl := Option.some.inj started
    refine ⟨by simp,?_⟩
    intro member inside later
    exact List.disjoint_of_nodup_append distinct inside later

/-- A stale buffer stays so while the batch fills, and mixes it when it is complete. -/
inductive StaleInserted (size : Nat) (s : Batcher α) (item : α) :
    Batcher α × Option (Delivery α) → Prop
  | filled (next : Batcher α) (room : s.filling.length + 1 < size)
      (filling : next.filling = s.filling ++ [item]) (current : next.current = s.current)
      (kept : Stale size next) : StaleInserted size s item (next,none)
  | mixed (next : Batcher α) (delivery : Delivery α) (full : s.filling.length + 1 = size)
      (unmatched : ¬delivery.Matched) : StaleInserted size s item (next,some delivery)

private theorem stale_insert {s : Batcher α} {item : α} {items : List α} (stale : Stale size s)
    (apart : Apart s (item :: items)) :
    StaleInserted size s item (s.insert size item true) := by
  obtain ⟨source,started,some_source,old⟩ := stale.source
  have new : ∀ member ∈ source, member ∉ s.filling ++ [item] := by
    intro member inside
    have other := (apart.current source started).2 member inside
    simp only [List.mem_cons,not_or] at other
    simp [old member inside,other.1]
  rcases Nat.lt_or_ge (s.filling.length + 1) size with room | full
  · rw [insert_room true room]
    refine .filled _ room rfl rfl ⟨by simpa using room,stale.mode,?_,source,started,some_source,new⟩
    simp [stale.queue]
  · have exactly : s.filling.length + 1 = size := Nat.le_antisymm stale.room full
    rw [insert_async true full stale.mode started]
    refine .mixed _ _ exactly ?_
    intro same
    have taken : (s.queue ++ [item]).take size = s.filling ++ [item] := by
      rw [stale.queue,List.take_of_length_le (by simp [exactly])]
    obtain ⟨first,rest,rfl⟩ := List.exists_cons_of_ne_nil some_source
    have member : first ∈ s.filling ++ [item] := by
      rw [← taken,← show first :: rest = (s.queue ++ [item]).take size from same]
      exact List.mem_cons_self
    exact new first List.mem_cons_self member

private theorem switch_apart {s : Batcher α} {items : List α} (async : Bool)
    (apart : Apart s items) : Apart (s.switch async) items :=
  ⟨List.Nodup.sublist (List.sublist_append_right _ _) apart.distinct,apart.current⟩

/-- A switch leaves the batcher in step, or stale if it turns to two buffers
after a batch was complete. -/
theorem switch_cases {s : Batcher α} {items : List α} (async : Bool) (positive : 0 < size)
    (apart : Apart s items) :
    (InStep size (s.switch async) ∧ (async = true → s.current = none)) ∨
      (Stale size (s.switch async) ∧ async = true ∧ s.current ≠ none) := by
  cases async with
  | false =>
    exact .inl ⟨⟨positive,by simp [Batcher.switch],rfl⟩,by simp⟩
  | true =>
    cases started : s.current with
    | none =>
      refine .inl ⟨⟨positive,by simp [Batcher.switch,started],?_⟩,fun _ => rfl⟩
      simp [Batcher.switch,Batcher.pending,started]
    | some source =>
      refine .inr ⟨⟨positive,rfl,rfl,source,started,(apart.current source started).1,?_⟩,rfl,by simp⟩
      simp [Batcher.switch]

private theorem run_switch {s final : Batcher α} {async : Bool} {rest : List (Action α)}
    {trace : List (Option (Delivery α))}
    (ran : (batching size).run s (.switch async :: rest) = some (final,trace)) :
    (batching size).run (s.switch async) rest = some (final,trace) := by
  obtain ⟨next,emitted,tail,stepped,later,rfl⟩ := Machine.run_cons.mp ran
  obtain ⟨rfl,rfl⟩ : s.switch async = next ∧ [] = emitted := by simpa [batching] using stepped
  exact later

/-- What the stretches after the present one have to be like. -/
structure Safe (size : Nat) (s : Batcher α) (actions : List (Action α)) : Prop where
  later : s.current ≠ none ∨ size ≤ s.filling.length + (stretches actions).1 →
    ∀ stretch ∈ (stretches actions).2, stretch.1 = true → stretch.2 < size
  pairs : (stretches actions).2.Pairwise (Compatible size)

private theorem safe_switch {s : Batcher α} {async : Bool} {rest : List (Action α)}
    (room : s.filling.length < size) :
    Safe size s (.switch async :: rest) ↔ (async = true → s.current ≠ none →
      (stretches rest).1 < size) ∧ Safe size (s.switch async) rest := by
  have unfinished : ¬size ≤ s.filling.length := Nat.not_le.mpr room
  constructor
  · intro safe
    have pairs := List.pairwise_cons.mp safe.pairs
    refine ⟨?_,?_,pairs.2⟩
    · intro mode started
      exact safe.later (.inl started) _ List.mem_cons_self mode
    · intro completed stretch member mode
      rcases completed with started | full
      · exact safe.later (.inl started) stretch (.tail _ member) mode
      · have apart := pairs.1 stretch member mode
        simp only [Batcher.switch,List.length_nil,Nat.zero_add] at full
        by_contra large
        exact apart ⟨full,Nat.not_lt.mp large⟩
  · intro safe
    obtain ⟨here,safe⟩ := safe
    refine ⟨?_,?_⟩
    · intro completed stretch member mode
      rcases completed with started | full
      · rcases List.mem_cons.mp member with rfl | member
        · exact here mode started
        · exact safe.later (.inl started) stretch member mode
      · exact absurd full unfinished
    · refine .cons ?_ safe.pairs
      intro stretch member mode both
      have small := safe.later (.inr (by simpa [Batcher.switch] using both.1)) stretch member mode
      omega

private theorem safe_insert {s next : Batcher α} {item : α} {ok : Bool} {rest : List (Action α)}
    (same : (s.current ≠ none ∨ size ≤ s.filling.length + ((stretches rest).1 + 1)) ↔
      (next.current ≠ none ∨ size ≤ next.filling.length + (stretches rest).1)) :
    Safe size s (.insert item ok :: rest) ↔ Safe size next rest := by
  constructor
  · intro safe
    exact ⟨fun completed => safe.later (same.mpr completed),safe.pairs⟩
  · intro safe
    exact ⟨fun completed => safe.later (same.mp completed),safe.pairs⟩

/-- If nothing fails, every batch is handed out with its own items exactly if no
stretch with two buffers completes a batch after an earlier stretch did. -/
theorem safe_matching_iff (actions : List (Action α)) {s final : Batcher α}
    {trace : List (Option (Delivery α))} (positive : 0 < size)
    (fine : ∀ action ∈ actions, action.fine = true)
    (apart : Apart s (actions.filterMap Action.item))
    (ran : (batching size).run s actions = some (final,trace)) :
    (InStep size s → (Matching trace ↔ Safe size s actions)) ∧
      (Stale size s → (Matching trace ↔
        s.filling.length + (stretches actions).1 < size ∧ Safe size s actions)) := by
  induction actions generalizing s trace with
  | nil =>
    obtain ⟨-,rfl⟩ : s = final ∧ [] = trace := by simpa using ran
    have safe : Safe size s [] := ⟨fun _ _ member => absurd member List.not_mem_nil,.nil⟩
    exact ⟨fun _ => ⟨fun _ => safe,fun _ => matching_nil⟩,
      fun stale => ⟨fun _ => ⟨stale.room,safe⟩,fun _ => matching_nil⟩⟩
  | cons action rest ih =>
    have fine_rest : ∀ action ∈ rest, action.fine = true :=
      fun later member => fine later (.tail _ member)
    cases action with
    | switch async =>
      have later := run_switch ran
      have new := switch_apart async apart
      obtain ⟨in_step,stale⟩ := ih fine_rest new later
      have switched : Matching trace ↔ (async = true → s.current ≠ none →
          (stretches rest).1 < size) ∧ Safe size (s.switch async) rest := by
        rcases switch_cases async positive apart with ⟨kept,unstarted⟩ | ⟨kept,mode,started⟩
        · rw [in_step kept]
          refine (and_iff_right ?_).symm
          intro mode started
          exact absurd (unstarted mode) started
        · rw [stale kept]
          simp [mode,started,Batcher.switch]
      refine ⟨?_,?_⟩
      · intro kept
        rw [switched,safe_switch kept.room]
      · intro kept
        rw [switched,safe_switch kept.room]
        refine (and_iff_right ?_).symm
        exact kept.room
    | insert item ok =>
      obtain rfl : ok = true := fine _ List.mem_cons_self
      obtain ⟨tail,rfl,later⟩ := run_insert ran
      refine ⟨?_,?_⟩
      · intro kept
        have inserted := inStep_insert item kept
        have matched := due_matched s item
        rw [matching_cons]
        generalize s.insert size item true = result at inserted later ⊢
        cases inserted with
        | filled next room same filling current kept =>
          obtain ⟨in_step,-⟩ := ih fine_rest (apart.filled filling current) later
          have unchanged : Safe size s (.insert item true :: rest) ↔ Safe size next rest := by
            apply safe_insert
            rw [current,filling,List.length_append,List.length_singleton,Nat.add_assoc,Nat.add_comm 1]
          rw [unchanged,in_step kept]
          simp
        | completed next full same filling current kept =>
          obtain ⟨in_step,-⟩ := ih fine_rest (apart.completed filling current) later
          have unchanged : Safe size s (.insert item true :: rest) ↔ Safe size next rest := by
            apply safe_insert
            have complete : size ≤ s.filling.length + ((stretches rest).1 + 1) := by omega
            simp [current,complete]
          rw [unchanged,in_step kept]
          exact and_iff_right matched
      · intro stale
        have inserted := stale_insert stale apart
        rw [matching_cons]
        generalize s.insert size item true = result at inserted later ⊢
        cases inserted with
        | filled next room filling current kept =>
          obtain ⟨-,still_stale⟩ := ih fine_rest (apart.filled filling current) later
          have sums : next.filling.length + (stretches rest).1 =
              s.filling.length + ((stretches rest).1 + 1) := by
            rw [filling,List.length_append,List.length_singleton]
            omega
          have unchanged : Safe size s (.insert item true :: rest) ↔ Safe size next rest := by
            apply safe_insert
            rw [current,sums]
          rw [unchanged,still_stale kept,sums]
          simp [stretches]
        | mixed next delivery full unmatched =>
          have complete : ¬s.filling.length + ((stretches rest).1 + 1) < size := by omega
          simp [unmatched,stretches,complete]

end Batching
