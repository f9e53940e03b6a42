import VideoAnalytics.Library.Machine
import Mathlib.Data.List.Pairwise
import Mathlib.Data.List.Nodup
import Mathlib.Data.List.Induction

/-! Items collected into batches for a worker with one buffer, or with two that
are exchanged after each batch. What is known of the items waits in a queue of
its own, so that the two have to stay in step. -/
namespace Batching

variable {α : Type}

/-- The items a result was computed from, and those it is handed out with. -/
structure Delivery (α : Type) where
  source : List α
  items : List α

def Delivery.Matched (delivery : Delivery α) : Prop := delivery.source = delivery.items

structure Batcher (α : Type) where
  async : Bool
  filling : List α
  queue : List α
  current : Option (List α)
  next : Option (List α)

def Batcher.empty (async : Bool) : Batcher α := ⟨async,[],[],none,none⟩

def Batcher.start (s : Batcher α) : Batcher α :=
  if s.async then {s with filling := [], next := some s.filling}
  else {s with filling := [], current := some s.filling}

/-- The result of the current buffer is handed out if it was started and is fine. -/
def Batcher.collect (size : Nat) (ok : Bool) (s : Batcher α) :
    Batcher α × Option (Delivery α) :=
  match s.current with
  | some source =>
    if ok then ({s with queue := s.queue.drop size},some ⟨source,s.queue.take size⟩) else (s,none)
  | none => (s,none)

def Batcher.exchange (s : Batcher α) : Batcher α :=
  if s.async then {s with current := s.next, next := s.current} else s

def Batcher.insert (size : Nat) (item : α) (ok : Bool) (s : Batcher α) :
    Batcher α × Option (Delivery α) :=
  let pushed := {s with filling := s.filling ++ [item], queue := s.queue ++ [item]}
  if pushed.filling.length < size then (pushed,none)
  else
    let (collected,delivery) := pushed.start.collect size ok
    (collected.exchange,delivery)

def Batcher.switch (async : Bool) (s : Batcher α) : Batcher α :=
  {s with async := async, filling := [], queue := []}

inductive Action (α : Type)
  | insert (item : α) (ok : Bool)
  | switch (async : Bool)

def Action.item : Action α → Option α
  | .insert item _ => some item
  | .switch _ => none

def batching (size : Nat) : Machine.System (Batcher α) (Action α) (Option (Delivery α)) where
  step s
    | .insert item ok =>
      let (next,delivery) := s.insert size item ok
      some (next,[delivery])
    | .switch async => some (s.switch async,[])

section Steps

variable {size : Nat} {item : α} {s : Batcher α}

theorem insert_room (ok : Bool) (room : s.filling.length + 1 < size) :
    s.insert size item ok =
      ({s with filling := s.filling ++ [item], queue := s.queue ++ [item]},none) := by
  simp [Batcher.insert,room]

theorem insert_sync (ok : Bool) (full : size ≤ s.filling.length + 1) (sync : s.async = false) :
    s.insert size item ok =
      ({s with
        filling := []
        queue := if ok then (s.queue ++ [item]).drop size else s.queue ++ [item]
        current := some (s.filling ++ [item])},
      if ok then some ⟨s.filling ++ [item],(s.queue ++ [item]).take size⟩ else none) := by
  have complete : ¬s.filling.length + 1 < size := Nat.not_lt.mpr full
  cases ok <;> simp [Batcher.insert,Batcher.start,Batcher.collect,Batcher.exchange,complete,sync]

theorem insert_first (ok : Bool) (full : size ≤ s.filling.length + 1) (async : s.async = true)
    (unstarted : s.current = none) :
    s.insert size item ok =
      ({s with
        filling := []
        queue := s.queue ++ [item]
        current := some (s.filling ++ [item])
        next := none},none) := by
  have complete : ¬s.filling.length + 1 < size := Nat.not_lt.mpr full
  simp [Batcher.insert,Batcher.start,Batcher.collect,Batcher.exchange,complete,async,unstarted]

theorem insert_async (ok : Bool) (full : size ≤ s.filling.length + 1) (async : s.async = true)
    {source : List α} (started : s.current = some source) :
    s.insert size item ok =
      ({s with
        filling := []
        queue := if ok then (s.queue ++ [item]).drop size else s.queue ++ [item]
        current := some (s.filling ++ [item])
        next := some source},
      if ok then some ⟨source,(s.queue ++ [item]).take size⟩ else none) := by
  have complete : ¬s.filling.length + 1 < size := Nat.not_lt.mpr full
  cases ok <;>
    simp [Batcher.insert,Batcher.start,Batcher.collect,Batcher.exchange,complete,async,started]

end Steps

/-- A property of every item that a batcher holds. -/
structure Holding (property : α → Prop) (s : Batcher α) : Prop where
  filling : ∀ item ∈ s.filling, property item
  queue : ∀ item ∈ s.queue, property item
  current : ∀ source, s.current = some source → ∀ item ∈ source, property item
  next : ∀ source, s.next = some source → ∀ item ∈ source, property item

def Delivery.Holding (property : α → Prop) (delivery : Delivery α) : Prop :=
  (∀ item ∈ delivery.source, property item) ∧ ∀ item ∈ delivery.items, property item

section Holding

variable {property : α → Prop} {s : Batcher α}

private theorem Holding.start (holding : Holding property s) : Holding property s.start := by
  have started : ∀ source, some s.filling = some source → ∀ item ∈ source, property item := by
    intro source same
    obtain rfl := Option.some.inj same
    exact holding.filling
  unfold Batcher.start
  split
  · exact ⟨by simp,holding.queue,holding.current,started⟩
  · exact ⟨by simp,holding.queue,started,holding.next⟩

private theorem Holding.collect (size : Nat) (ok : Bool) (holding : Holding property s) :
    Holding property (s.collect size ok).1 ∧
      ∀ delivery, (s.collect size ok).2 = some delivery → delivery.Holding property := by
  unfold Batcher.collect
  split
  · next source started =>
    split
    · refine ⟨⟨holding.filling,?_,holding.current,holding.next⟩,?_⟩
      · intro item member
        exact holding.queue item (List.mem_of_mem_drop member)
      · intro delivery due
        obtain rfl := Option.some.inj due
        exact ⟨holding.current source started,
          fun item member => holding.queue item (List.mem_of_mem_take member)⟩
    · exact ⟨holding,by simp⟩
  · exact ⟨holding,by simp⟩

private theorem Holding.exchange (holding : Holding property s) : Holding property s.exchange := by
  unfold Batcher.exchange
  split
  · exact ⟨holding.filling,holding.queue,holding.next,holding.current⟩
  · exact holding

private theorem Holding.insert (size : Nat) {item : α} (ok : Bool) (new : property item)
    (holding : Holding property s) :
    Holding property (s.insert size item ok).1 ∧
      ∀ delivery, (s.insert size item ok).2 = some delivery → delivery.Holding property := by
  have pushed : Holding property
      {s with filling := s.filling ++ [item], queue := s.queue ++ [item]} := by
    refine ⟨?_,?_,holding.current,holding.next⟩
    · intro member inside
      rcases List.mem_append.mp inside with old | last
      · exact holding.filling member old
      · rwa [List.mem_singleton.mp last]
    · intro member inside
      rcases List.mem_append.mp inside with old | last
      · exact holding.queue member old
      · rwa [List.mem_singleton.mp last]
  unfold Batcher.insert
  simp only
  split
  · exact ⟨pushed,by simp⟩
  · obtain ⟨collected,due⟩ := pushed.start.collect size ok
    exact ⟨collected.exchange,due⟩

private theorem Holding.switch (async : Bool) (holding : Holding property s) :
    Holding property (s.switch async) :=
  ⟨by simp [Batcher.switch],by simp [Batcher.switch],holding.current,holding.next⟩

def Action.Holding (property : α → Prop) : Action α → Prop
  | .insert item _ => property item
  | .switch _ => True

theorem Holding.run {size : Nat} (actions : List (Action α)) {s final : Batcher α}
    {trace : List (Option (Delivery α))} (new : ∀ action ∈ actions, action.Holding property)
    (holding : Holding property s) (ran : (batching size).run s actions = some (final,trace)) :
    ∀ delivery, some delivery ∈ trace → delivery.Holding property := by
  induction actions generalizing s trace with
  | nil =>
    obtain ⟨-,rfl⟩ : s = final ∧ [] = trace := by simpa using ran
    intro delivery member
    contradiction
  | cons action rest ih =>
    obtain ⟨next,emitted,tail,stepped,later,rfl⟩ := Machine.run_cons.mp ran
    have new_rest : ∀ action ∈ rest, action.Holding property :=
      fun action member => new action (.tail _ member)
    cases action with
    | insert item ok =>
      obtain ⟨rfl,rfl⟩ : (s.insert size item ok).1 = next ∧
          [(s.insert size item ok).2] = emitted := by simpa [batching] using stepped
      have here : property item := new _ List.mem_cons_self
      obtain ⟨kept,due⟩ := holding.insert size ok here
      intro delivery member
      rcases List.mem_cons.mp member with now | after
      · exact due delivery now.symm
      · exact ih new_rest kept later delivery after
    | switch async =>
      obtain ⟨rfl,rfl⟩ : s.switch async = next ∧ [] = emitted := by simpa [batching] using stepped
      exact ih new_rest (holding.switch async) later

end Holding

/-- The batch whose result is still to be collected while the next one fills. -/
def Batcher.pending (s : Batcher α) : List α := if s.async then s.current.getD [] else []

structure InStep (size : Nat) (s : Batcher α) : Prop where
  room : s.filling.length < size
  whole : s.async = true → ∀ source, s.current = some source → source.length = size
  queue : s.queue = s.pending ++ s.filling

theorem inStep_empty {size : Nat} (async : Bool) (positive : 0 < size) :
    InStep size (Batcher.empty async : Batcher α) := by
  refine ⟨positive,by simp [Batcher.empty],?_⟩
  cases async <;> rfl

/-- What is handed out when the item completes a batch in step. -/
def Batcher.due (s : Batcher α) (item : α) : Option (Delivery α) :=
  if s.async then s.current.map fun source => ⟨source,source⟩
  else some ⟨s.filling ++ [item],s.filling ++ [item]⟩

/-- In step and without a failure, an item fills its batch or completes it. -/
inductive Inserted (size : Nat) (s : Batcher α) (item : α) :
    Batcher α × Option (Delivery α) → Prop
  | filled (next : Batcher α) (room : s.filling.length + 1 < size) (same : next.async = s.async)
      (filling : next.filling = s.filling ++ [item]) (current : next.current = s.current)
      (kept : InStep size next) : Inserted size s item (next,none)
  | completed (next : Batcher α) (full : s.filling.length + 1 = size)
      (same : next.async = s.async) (filling : next.filling = [])
      (current : next.current = some (s.filling ++ [item])) (kept : InStep size next) :
      Inserted size s item (next,s.due item)

theorem inStep_insert {size : Nat} {s : Batcher α} (item : α) (inStep : InStep size s) :
    Inserted size s item (s.insert size item true) := by
  have length : (s.filling ++ [item]).length = s.filling.length + 1 := by simp
  rcases Nat.lt_or_ge (s.filling.length + 1) size with room | full
  · rw [insert_room true room]
    refine .filled _ room rfl rfl rfl ⟨by simpa using room,inStep.whole,?_⟩
    simp [Batcher.pending,inStep.queue]
  have exactly : s.filling.length + 1 = size := Nat.le_antisymm inStep.room full
  have positive : 0 < size := by omega
  cases mode : s.async with
  | false =>
    have all : s.queue ++ [item] = s.filling ++ [item] := by
      simp [inStep.queue,Batcher.pending,mode]
    have due : s.due item = some ⟨s.filling ++ [item],(s.queue ++ [item]).take size⟩ := by
      rw [all,List.take_of_length_le (by omega)]
      simp [Batcher.due,mode]
    have left : (s.queue ++ [item]).drop size = [] := by
      rw [all,List.drop_of_length_le (by omega)]
    rw [insert_sync true full mode]
    simp only [if_true,← due]
    refine .completed _ exactly rfl rfl rfl ⟨positive,by simp [mode],?_⟩
    simp [Batcher.pending,mode,left]
  | true =>
    cases started : s.current with
    | none =>
      have due : s.due item = none := by
        simp [Batcher.due,mode,started]
      rw [insert_first true full mode started,← due]
      refine .completed _ exactly rfl rfl rfl ⟨positive,?_,?_⟩
      · intro async source current
        rw [← Option.some.inj current,length,exactly]
      · simp [Batcher.pending,mode,inStep.queue,started]
    | some source =>
      have whole := inStep.whole mode source started
      have all : s.queue ++ [item] = source ++ (s.filling ++ [item]) := by
        simp [inStep.queue,Batcher.pending,mode,started]
      have due : s.due item = some ⟨source,(s.queue ++ [item]).take size⟩ := by
        rw [all,List.take_append_of_le_length (by omega),List.take_of_length_le (by omega)]
        simp [Batcher.due,mode,started]
      have left : (s.queue ++ [item]).drop size = s.filling ++ [item] := by
        rw [all,List.drop_append_of_le_length (by omega),List.drop_of_length_le (by omega)]
        simp
      rw [insert_async true full mode started]
      simp only [if_true,← due]
      refine .completed _ exactly rfl rfl rfl ⟨positive,?_,?_⟩
      · intro async other current
        rw [← Option.some.inj current,length,exactly]
      · simp [Batcher.pending,mode,left]

/-- What is handed out and what still waits are together what waited before. -/
theorem inserted_queue {size : Nat} {s next : Batcher α} {item : α}
    {delivery : Option (Delivery α)} (inStep : InStep size s)
    (inserted : Inserted size s item (next,delivery)) :
    s.queue ++ [item] = delivery.elim [] Delivery.items ++ next.queue := by
  rw [inStep.queue,List.append_assoc]
  cases inserted with
  | filled _ room same filling current kept =>
    rw [kept.queue]
    unfold Batcher.pending
    rw [same,current,filling]
    rfl
  | completed _ full same filling current kept =>
    rw [kept.queue]
    unfold Batcher.pending Batcher.due
    rw [same,current,filling]
    cases s.async with
    | false => simp
    | true => cases s.current <;> simp

theorem inserted_batch {size : Nat} {s next : Batcher α} {item : α} {delivery : Delivery α}
    (inStep : InStep size s) (inserted : Inserted size s item (next,some delivery)) :
    delivery.source = delivery.items ∧ delivery.items.length = size := by
  generalize handed : some delivery = outcome at inserted
  cases inserted with
  | filled _ room same filling current kept => contradiction
  | completed _ full same filling current kept =>
    unfold Batcher.due at handed
    cases mode : s.async with
    | false =>
      rw [mode] at handed
      cases handed
      exact ⟨rfl,by simpa using full⟩
    | true =>
      rw [mode] at handed
      cases started : s.current with
      | none =>
        rw [started] at handed
        contradiction
      | some source =>
        rw [started] at handed
        cases handed
        exact ⟨rfl,inStep.whole mode source started⟩

section Schedule

variable (size : Nat) (async : Bool)

/-- How many items a batch is behind when it is handed out. -/
def lag : Nat := if async then 2 * size else size

/-- The delivery of the k-th insertion, counted from zero. -/
def expected (items : List α) (k : Nat) : Option (Delivery α) :=
  let batch := (items.drop (k + 1 - lag size async)).take size
  if size ∣ k + 1 ∧ lag size async ≤ k + 1 then some ⟨batch,batch⟩ else none

/-- The state after the items when q batches are complete. -/
structure Reached (items : List α) (q : Nat) (s : Batcher α) : Prop where
  inStep : InStep size s
  mode : s.async = async
  low : size * q ≤ items.length
  filling : s.filling = items.drop (size * q)
  current : s.current = if q = 0 then none else some ((items.drop (size * (q - 1))).take size)

variable {size async}

private theorem size_le_lag : size ≤ lag size async := by
  unfold lag
  split <;> omega

theorem InStep.waiting {s : Batcher α} (inStep : InStep size s) :
    s.queue.length < lag size s.async := by
  have room := inStep.room
  rw [inStep.queue,List.length_append]
  unfold Batcher.pending lag
  cases mode : s.async with
  | false => simpa using room
  | true =>
    cases started : s.current with
    | none => simp; omega
    | some source =>
      have whole := inStep.whole mode source started
      simp [whole]
      omega

private theorem take_drop_append (items : List α) (item : α) {i : Nat}
    (within : i + size ≤ items.length) :
    ((items ++ [item]).drop i).take size = (items.drop i).take size := by
  rw [List.drop_append_of_le_length (by omega),List.take_append_of_le_length]
  simp only [List.length_drop]
  omega

private theorem expected_append (items : List α) (item : α) {k : Nat} (within : k < items.length) :
    expected size async (items ++ [item]) k = expected size async items k := by
  have large : size ≤ lag size async := size_le_lag
  unfold expected
  simp only
  split
  · next due =>
    rw [take_drop_append]
    omega
  · rfl

private theorem expected_due {items : List α} {q : Nat} {s : Batcher α} (item : α)
    (reached : Reached size async items q s) (full : s.filling.length + 1 = size) :
    expected size async (items ++ [item]) items.length = s.due item := by
  have length : items.length + 1 = size * (q + 1) := by
    have count := congrArg List.length reached.filling
    rw [List.length_drop] at count
    have low := reached.low
    rw [Nat.mul_succ]
    omega
  have divides : size ∣ size * (q + 1) := Nat.dvd_mul_right size (q + 1)
  unfold expected Batcher.due lag
  rw [reached.mode,reached.current,length]
  cases async with
  | false =>
    have first : size * (q + 1) - size = size * q := by rw [Nat.mul_succ]; omega
    have batch : ((items ++ [item]).drop (size * q)).take size = s.filling ++ [item] := by
      rw [List.drop_append_of_le_length reached.low,← reached.filling]
      exact List.take_of_length_le (by simp [full])
    simp [first,batch,divides,Nat.le_mul_of_pos_right]
  | true =>
    cases q with
    | zero =>
      have early : size < 2 * size := by omega
      simp [early]
    | succ q =>
      have first : size * (q + 1 + 1) - 2 * size = size * q := by
        rw [Nat.mul_succ,Nat.mul_succ]
        omega
      have late : 2 * size ≤ size * (q + 1 + 1) := by
        rw [Nat.mul_succ,Nat.mul_succ]
        omega
      have batch : ((items ++ [item]).drop (size * q)).take size =
          (items.drop (size * q)).take size := by
        apply take_drop_append
        have low := reached.low
        rwa [Nat.mul_succ] at low
      simp [first,late,batch,divides]

private theorem expected_none {items : List α} {q : Nat} {s : Batcher α} (item : α)
    (reached : Reached size async items q s) (room : s.filling.length + 1 < size) :
    expected size async (items ++ [item]) items.length = none := by
  have count := congrArg List.length reached.filling
  rw [List.length_drop] at count
  have low := reached.low
  have between : ¬size ∣ items.length + 1 := by
    rintro ⟨quotient,same⟩
    have above : size * q < size * quotient := by omega
    have below : size * quotient < size * (q + 1) := by rw [Nat.mul_succ]; omega
    have quotient_above := Nat.lt_of_mul_lt_mul_left above
    have quotient_below := Nat.lt_of_mul_lt_mul_left below
    omega
  unfold expected
  simp [between]

private theorem reached_insert {items : List α} {q : Nat} {s : Batcher α} (item : α)
    (reached : Reached size async items q s) :
    ∃ next q', (batching size).step s (.insert item true) =
      some (next,[expected size async (items ++ [item]) items.length]) ∧
        Reached size async (items ++ [item]) q' next := by
  have inserted := inStep_insert item reached.inStep
  simp only [batching]
  have low := reached.low
  have count := congrArg List.length reached.filling
  rw [List.length_drop] at count
  generalize s.insert size item true = result at inserted ⊢
  cases inserted with
  | filled next room same filling current kept =>
    refine ⟨next,q,by rw [expected_none item reached room],kept,same.trans reached.mode,?_,?_,?_⟩
    · simp only [List.length_append,List.length_singleton]
      omega
    · rw [filling,reached.filling,List.drop_append_of_le_length low]
    · rw [current,reached.current]
      split
      · rfl
      · next later =>
        congr 1
        symm
        apply take_drop_append
        have earlier : size * (q - 1) + size = size * q := by
          rw [← Nat.mul_succ]
          congr 1
          omega
        omega
  | completed next full same filling current kept =>
    have next_low : size * (q + 1) = items.length + 1 := by
      rw [Nat.mul_succ]
      omega
    refine ⟨next,q + 1,by rw [expected_due item reached full],kept,same.trans reached.mode,?_,?_,?_⟩
    · simp [next_low]
    · rw [filling,List.drop_of_length_le (by simp [next_low])]
    · rw [current,if_neg (Nat.succ_ne_zero q),Nat.add_sub_cancel,
        List.drop_append_of_le_length low,← reached.filling,List.take_of_length_le]
      simp [full]

/-- Without failures and switches every item is delivered once, in order, and
with the batch it was in. -/
theorem run_insertions (items : List α) (positive : 0 < size) :
    ∃ s q, (batching size).run (Batcher.empty async) (items.map fun item => .insert item true) =
      some (s,(List.range items.length).map (expected size async items)) ∧
        Reached size async items q s := by
  induction items using List.reverseRecOn with
  | nil => exact ⟨_,0,rfl,inStep_empty async positive,rfl,Nat.le_refl _,rfl,rfl⟩
  | append_singleton items item ih =>
    obtain ⟨s,q,ran,reached⟩ := ih
    obtain ⟨next,q',stepped,after⟩ := reached_insert item reached
    refine ⟨next,q',?_,after⟩
    have earlier : (List.range items.length).map (expected size async (items ++ [item])) =
        (List.range items.length).map (expected size async items) := by
      apply List.map_congr_left
      intro k member
      exact expected_append items item (List.mem_range.mp member)
    rw [List.map_append,List.length_append,List.length_singleton,List.range_succ,List.map_append,
      earlier]
    exact Machine.run_snoc ran stepped

end Schedule

end Batching
