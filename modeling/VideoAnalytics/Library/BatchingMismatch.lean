import VideoAnalytics.Library.Batching

/-! When batches are handed out with the items of another batch: after a failed
result was left uncollected, or after a switch to two buffers whose current one
still holds a result. -/
namespace Batching

variable {α : Type} {size : Nat}

def Matching (trace : List (Option (Delivery α))) : Prop :=
  ∀ event ∈ trace, ∀ delivery, event = some delivery → delivery.Matched

theorem matching_nil : Matching ([] : List (Option (Delivery α))) := by
  intro event member
  exact absurd member List.not_mem_nil

theorem matching_cons {event : Option (Delivery α)} {trace : List (Option (Delivery α))} :
    Matching (event :: trace) ↔ (∀ delivery, event = some delivery → delivery.Matched) ∧
      Matching trace := by
  simp [Matching]

theorem due_matched (s : Batcher α) (item : α) (delivery : Delivery α)
    (due : s.due item = some delivery) : delivery.Matched := by
  unfold Batcher.due at due
  split at due
  · rw [Option.map_eq_some_iff] at due
    obtain ⟨source,-,rfl⟩ := due
    rfl
  · obtain rfl := Option.some.inj due
    rfl

theorem run_insert {s final : Batcher α} {item : α} {ok : Bool} {rest : List (Action α)}
    {trace : List (Option (Delivery α))}
    (ran : (batching size).run s (.insert item ok :: rest) = some (final,trace)) :
    ∃ tail, trace = (s.insert size item ok).2 :: tail ∧
      (batching size).run (s.insert size item ok).1 rest = some (final,tail) := by
  obtain ⟨next,emitted,tail,stepped,later,rfl⟩ := Machine.run_cons.mp ran
  obtain ⟨rfl,rfl⟩ : (s.insert size item ok).1 = next ∧
      [(s.insert size item ok).2] = emitted := by simpa [batching] using stepped
  exact ⟨tail,rfl,later⟩

/-- The results that were asked for, one for each complete batch, with what was
answered; the items already in the unfinished batch are counted first. -/
def answers (size : Nat) : Nat → List (α × Bool) → List Bool
  | _, [] => []
  | filled, (_,ok) :: rest =>
    if filled + 1 < size then answers size (filled + 1) rest else ok :: answers size 0 rest

/-- With two buffers the first complete batch asks for no result yet. -/
def Batcher.asked (size : Nat) (s : Batcher α) (inserts : List (α × Bool)) : List Bool :=
  if s.async ∧ s.current = none then (answers size s.filling.length inserts).drop 1
  else answers size s.filling.length inserts

def insertions (inserts : List (α × Bool)) : List (Action α) :=
  inserts.map fun insert => .insert insert.1 insert.2

/-- After a failure the queue begins with items of batches that are over. -/
structure Behind (size : Nat) (s : Batcher α) : Prop where
  room : s.filling.length < size
  started : s.async = true → s.current ≠ none
  queue : ∃ stale, stale ≠ [] ∧ s.queue = stale ++ s.pending ++ s.filling

private theorem take_ne {stale fresh : List α} (positive : 0 < size) (some_stale : stale ≠ [])
    (distinct : (stale ++ fresh).Nodup) (part : List α) (inside : ∀ item ∈ part, item ∈ fresh) :
    part ≠ (stale ++ fresh).take size := by
  intro same
  obtain ⟨first,rest,rfl⟩ := List.exists_cons_of_ne_nil some_stale
  have taken : first ∈ (first :: rest ++ fresh).take size := by
    obtain ⟨less,rfl⟩ := Nat.exists_eq_succ_of_ne_zero (Nat.ne_of_gt positive)
    simp
  rw [← same] at taken
  exact List.disjoint_of_nodup_append distinct (List.mem_cons_self) (inside first taken)

/-- Behind, a further failure leaves the batcher behind and a success hands out
a batch with the items of another. -/
inductive Lagged (size : Nat) (s : Batcher α) (item : α) :
    Bool → Batcher α × Option (Delivery α) → Prop
  | filled (ok : Bool) (next : Batcher α) (room : s.filling.length + 1 < size)
      (filling : next.filling.length = s.filling.length + 1) (kept : Behind size next) :
      Lagged size s item ok (next,none)
  | failed (next : Batcher α) (full : s.filling.length + 1 = size) (filling : next.filling = [])
      (kept : Behind size next) : Lagged size s item false (next,none)
  | mixed (next : Batcher α) (delivery : Delivery α) (full : s.filling.length + 1 = size)
      (unmatched : ¬delivery.Matched) : Lagged size s item true (next,some delivery)

private theorem behind_insert {s : Batcher α} (item : α) (ok : Bool) (behind : Behind size s)
    (distinct : (s.queue ++ [item]).Nodup) : Lagged size s item ok (s.insert size item ok) := by
  obtain ⟨stale,some_stale,queue⟩ := behind.queue
  rcases Nat.lt_or_ge (s.filling.length + 1) size with room | full
  · rw [insert_room ok room]
    refine .filled ok _ room (by simp) ⟨by simpa using room,behind.started,stale,some_stale,?_⟩
    simp [Batcher.pending,queue]
  have exactly : s.filling.length + 1 = size := Nat.le_antisymm behind.room full
  have positive : 0 < size := by omega
  cases mode : s.async with
  | false =>
    have all : s.queue ++ [item] = stale ++ (s.filling ++ [item]) := by
      simp [queue,Batcher.pending,mode]
    rw [insert_sync ok full mode]
    cases ok with
    | false =>
      refine .failed _ exactly rfl ⟨positive,by simp [mode],s.queue ++ [item],by simp,?_⟩
      simp [Batcher.pending,mode]
    | true =>
      refine .mixed _ _ exactly ?_
      rw [all] at distinct ⊢
      exact take_ne positive some_stale distinct _ (fun _ member => member)
  | true =>
    obtain ⟨source,started⟩ := Option.ne_none_iff_exists'.mp (behind.started mode)
    have all : s.queue ++ [item] = stale ++ (source ++ s.filling ++ [item]) := by
      simp [queue,Batcher.pending,mode,started]
    rw [insert_async ok full mode started]
    cases ok with
    | false =>
      refine .failed _ exactly rfl ⟨positive,by simp,stale ++ source,by simp [some_stale],?_⟩
      simp [Batcher.pending,mode,all]
    | true =>
      refine .mixed _ _ exactly ?_
      rw [all] at distinct ⊢
      apply take_ne positive some_stale distinct
      intro member inside
      simp [inside]

private theorem insert_queue_sublist (s : Batcher α) (item : α) (ok : Bool) :
    (s.insert size item ok).1.queue.Sublist (s.queue ++ [item]) := by
  have whole := List.Sublist.refl (s.queue ++ [item])
  have rest := List.drop_sublist size (s.queue ++ [item])
  unfold Batcher.insert Batcher.start Batcher.collect Batcher.exchange
  cases s.async <;> cases s.current <;> cases ok <;> simp <;> split <;> assumption

private theorem insert_distinct {s : Batcher α} {item : α} {rest : List α} (ok : Bool)
    (distinct : (s.queue ++ item :: rest).Nodup) :
    ((s.insert size item ok).1.queue ++ rest).Nodup := by
  refine List.Nodup.sublist ?_ distinct
  rw [List.append_cons]
  exact (insert_queue_sublist s item ok).append_right rest

private theorem behind_matching_iff (inserts : List (α × Bool)) {s final : Batcher α}
    {trace : List (Option (Delivery α))} (behind : Behind size s)
    (distinct : (s.queue ++ inserts.map Prod.fst).Nodup)
    (ran : (batching size).run s (insertions inserts) = some (final,trace)) :
    Matching trace ↔ ∀ ok ∈ answers size s.filling.length inserts, ok = false := by
  induction inserts generalizing s trace with
  | nil =>
    obtain ⟨-,rfl⟩ : s = final ∧ [] = trace := by simpa [insertions] using ran
    simp [answers,matching_nil]
  | cons insert rest ih =>
    obtain ⟨item,ok⟩ := insert
    obtain ⟨tail,rfl,later⟩ := run_insert ran
    have here : (s.queue ++ [item]).Nodup := by
      refine List.Nodup.sublist ?_ distinct
      simp
    have lagged := behind_insert item ok behind here
    have apart : ((s.insert size item ok).1.queue ++ rest.map Prod.fst).Nodup :=
      insert_distinct ok distinct
    rw [matching_cons]
    generalize s.insert size item ok = result at lagged apart later ⊢
    cases lagged with
    | filled ok next room filling kept =>
      simp [answers,room,ih kept apart later,filling]
    | failed next full filling kept =>
      simp [answers,full,ih kept apart later,filling]
    | mixed next delivery full unmatched =>
      simp [answers,full,unmatched]

/-- In step, an answer that is not asked for changes nothing, and a failure of
one that is leaves the batcher behind. -/
inductive Answered (size : Nat) (s : Batcher α) (item : α) :
    Bool → Batcher α × Option (Delivery α) → Prop
  | inserted (ok : Bool) (result : Batcher α × Option (Delivery α))
      (inserted : Inserted size s item result)
      (unasked : ok = true ∨ s.filling.length + 1 < size ∨ (s.async = true ∧ s.current = none)) :
      Answered size s item ok result
  | failed (next : Batcher α) (full : s.filling.length + 1 = size) (filling : next.filling = [])
      (waited : ¬(s.async = true ∧ s.current = none)) (kept : Behind size next) :
      Answered size s item false (next,none)

private theorem inStep_answered {s : Batcher α} (item : α) (ok : Bool) (inStep : InStep size s) :
    Answered size s item ok (s.insert size item ok) := by
  have inserted := inStep_insert item inStep
  cases ok with
  | true => exact .inserted true _ inserted (.inl rfl)
  | false =>
    rcases Nat.lt_or_ge (s.filling.length + 1) size with room | full
    · rw [insert_room true room] at inserted
      rw [insert_room false room]
      exact .inserted false _ inserted (.inr (.inl room))
    have exactly : s.filling.length + 1 = size := Nat.le_antisymm inStep.room full
    have positive : 0 < size := by omega
    cases mode : s.async with
    | false =>
      rw [insert_sync false full mode]
      refine .failed _ exactly rfl (by simp [mode]) ⟨positive,by simp [mode],?_⟩
      refine ⟨s.queue ++ [item],by simp,?_⟩
      simp [Batcher.pending,mode]
    | true =>
      cases started : s.current with
      | none =>
        rw [insert_first true full mode started] at inserted
        rw [insert_first false full mode started]
        exact .inserted false _ inserted (.inr (.inr ⟨mode,started⟩))
      | some source =>
        have some_source : source ≠ [] := by
          have whole := inStep.whole mode source started
          intro empty
          rw [empty] at whole
          exact absurd whole (Nat.ne_of_lt positive)
        rw [insert_async false full mode started]
        refine .failed _ exactly rfl (by simp [started]) ⟨positive,by simp,source,some_source,?_⟩
        simp [Batcher.pending,mode,inStep.queue,started]

private theorem pairwise_of_false {oks : List Bool} (all : ∀ ok ∈ oks, ok = false) :
    oks.Pairwise fun earlier later => earlier = false → later = false := by
  induction oks with
  | nil => exact .nil
  | cons ok rest ih =>
    refine .cons ?_ (ih fun later member => all later (.tail _ member))
    intro later member _
    exact all later (.tail _ member)

/-- In step and without switches, every batch is handed out with its own items
exactly if no asked result is fine after one that was not. -/
theorem matching_iff (inserts : List (α × Bool)) {s final : Batcher α}
    {trace : List (Option (Delivery α))} (inStep : InStep size s)
    (distinct : (s.queue ++ inserts.map Prod.fst).Nodup)
    (ran : (batching size).run s (insertions inserts) = some (final,trace)) :
    Matching trace ↔
      (s.asked size inserts).Pairwise fun earlier later => earlier = false → later = false := by
  induction inserts generalizing s trace with
  | nil =>
    obtain ⟨-,rfl⟩ : s = final ∧ [] = trace := by simpa [insertions] using ran
    simp [Batcher.asked,answers,matching_nil]
  | cons insert rest ih =>
    obtain ⟨item,ok⟩ := insert
    obtain ⟨tail,rfl,later⟩ := run_insert ran
    have answered := inStep_answered item ok inStep
    have apart : ((s.insert size item ok).1.queue ++ rest.map Prod.fst).Nodup :=
      insert_distinct ok distinct
    rw [matching_cons]
    generalize s.insert size item ok = result at answered apart later ⊢
    cases answered with
    | failed next full filling waited kept =>
      have rest_iff := behind_matching_iff rest kept apart later
      rw [filling,List.length_nil] at rest_iff
      have asked : s.asked size ((item,false) :: rest) = false :: answers size 0 rest := by
        simp [Batcher.asked,waited,answers,full]
      rw [asked,List.pairwise_cons]
      simp only [rest_iff,true_implies,reduceCtorEq,false_implies,implies_true,true_and]
      constructor
      · intro all
        exact ⟨all,pairwise_of_false all⟩
      · intro pairs
        exact pairs.1
    | inserted ok result inserted unasked =>
      cases inserted with
      | filled next room same filling current kept =>
        have asked : s.asked size ((item,ok) :: rest) = next.asked size rest := by
          simp [Batcher.asked,same,current,filling,answers,room]
        rw [asked]
        simpa using ih kept apart later
      | completed next full same filling current kept =>
        have matched := due_matched s item
        have next_asked : next.asked size rest = answers size 0 rest := by
          simp [Batcher.asked,current,filling]
        rw [ih kept apart later,next_asked]
        by_cases first : s.async = true ∧ s.current = none
        · have asked : s.asked size ((item,ok) :: rest) = answers size 0 rest := by
            simp [Batcher.asked,first,answers,full]
          rw [asked]
          exact and_iff_right matched
        · have fine : ok = true := by
            rcases unasked with fine | room | unstarted
            · exact fine
            · omega
            · exact absurd unstarted first
          have asked : s.asked size ((item,ok) :: rest) = true :: answers size 0 rest := by
            simp [Batcher.asked,first,answers,full,fine]
          rw [asked,List.pairwise_cons]
          simp only [reduceCtorEq,false_implies,implies_true,true_and]
          exact and_iff_right matched

end Batching
