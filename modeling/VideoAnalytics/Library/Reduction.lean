import VideoAnalytics.Library.Machine
import VideoAnalytics.Library.ParallelLoop
import Mathlib.Algebra.Order.BigOperators.Group.Finset

/-! Sums that threads reduce: each adds up its share on its own and then adds that to the
total. The threads take turns in any order. -/
namespace Reduction

variable {M : Type} [AddCommMonoid M]

inductive Stage (M : Type)
  | adding (sum : M) (left : List Nat)
  | added

structure State (M : Type) where
  total : M
  stages : Nat → Stage M

/-- An action is the thread whose turn it is, an event the place whose value it adds. -/
def turns (threads : Nat) (value : Nat → M) : Machine.System (State M) Nat Nat where
  step state thread :=
    if thread < threads then
      match state.stages thread with
      | .adding sum (place :: left) =>
        some (⟨state.total,
          Function.update state.stages thread (.adding (sum + value place) left)⟩,[place])
      | .adding sum [] =>
        some (⟨state.total + sum,Function.update state.stages thread .added⟩,[])
      | .added => none
    else none

def start (shares : List (List Nat)) (total : M) : State M where
  total := total
  stages thread := .adding 0 (shares.getD thread [])

def Stage.Added : Stage M → Prop
  | .adding _ _ => False
  | .added => True

instance (stage : Stage M) : Decidable stage.Added :=
  match stage with
  | .adding _ _ => .isFalse id
  | .added => .isTrue trivial

def State.Added (threads : Nat) (state : State M) : Prop :=
  ∀ thread < threads, (state.stages thread).Added

instance (threads : Nat) (state : State M) : Decidable (state.Added threads) :=
  inferInstanceAs (Decidable (∀ thread < threads, (state.stages thread).Added))

/-- The total of the values in all shares. -/
def reduce (value : Nat → M) (shares : List (List Nat)) (schedule : List Nat) (total : M) :
    Except ParallelLoop.Refused M :=
  match (turns shares.length value).run (start shares total) schedule with
  | some (final,_) =>
    if final.Added shares.length then .ok final.total else .error .schedule
  | none => .error .schedule

/-- What a thread has still to add to the total. -/
def Stage.pending (value : Nat → M) : Stage M → M
  | .adding sum left => sum + (left.map value).sum
  | .added => 0

private theorem turn_total {threads thread : Nat} {value : Nat → M} {state next : State M}
    {places : List Nat}
    (stepped : (turns threads value).step state thread = some (next,places)) :
    next.total + ∑ t ∈ Finset.range threads, (next.stages t).pending value =
      state.total + ∑ t ∈ Finset.range threads, (state.stages t).pending value := by
  simp only [turns] at stepped
  split_ifs at stepped with low
  have member := Finset.mem_range.mpr low
  have split (stages : Nat → Stage M) := Finset.add_sum_erase (Finset.range threads)
    (fun t => (stages t).pending value) member
  have others (stage : Stage M) :
      ∑ t ∈ (Finset.range threads).erase thread,
          (Function.update state.stages thread stage t).pending value =
        ∑ t ∈ (Finset.range threads).erase thread, (state.stages t).pending value := by
    apply Finset.sum_congr rfl
    intro t rest
    rw [Function.update_of_ne (Finset.ne_of_mem_erase rest)]
  cases stage : state.stages thread with
  | added => simp [stage] at stepped
  | adding sum left =>
    rw [← split state.stages]
    cases left with
    | nil =>
      simp only [stage,Option.some.injEq,Prod.mk.injEq] at stepped
      obtain ⟨rfl,-⟩ := stepped
      rw [← split]
      dsimp only
      rw [others,Function.update_self,stage]
      simp [Stage.pending,add_assoc]
    | cons place left =>
      simp only [stage,Option.some.injEq,Prod.mk.injEq] at stepped
      obtain ⟨rfl,-⟩ := stepped
      rw [← split]
      dsimp only
      rw [others,Function.update_self,stage]
      simp [Stage.pending,add_assoc]

theorem foldl_add (value : Nat → M) (places : List Nat) (total : M) :
    places.foldl (fun sum place => sum + value place) total = total + (places.map value).sum := by
  induction places generalizing total with
  | nil => simp
  | cons place places ih => rw [List.foldl_cons,ih,List.map_cons,List.sum_cons,add_assoc]

theorem sum_range' (value : Nat → M) (base count : Nat) :
    ((List.range' base count).map value).sum = ∑ i ∈ Finset.range count, value (base + i) := by
  induction count with
  | zero => rfl
  | succ count ih =>
    rw [List.range'_1_concat,List.map_append,List.sum_append,ih,Finset.sum_range_succ]
    simp

private theorem sum_shares (value : Nat → M) (shares : List (List Nat)) :
    ∑ t ∈ Finset.range shares.length, ((shares.getD t []).map value).sum =
      (shares.flatten.map value).sum := by
  induction shares with
  | nil => rfl
  | cons share shares ih =>
    rw [List.length_cons,Finset.sum_range_succ',List.flatten_cons,List.map_append,List.sum_append,
      ← ih,add_comm]
    rfl

/-- In whatever order the threads take their turns, the total grows by the values of all. -/
theorem reduce_sum {value : Nat → M} {shares : List (List Nat)} {schedule : List Nat}
    {total sum : M}
    (ran : reduce value shares schedule total = .ok sum) :
    sum = total + (shares.flatten.map value).sum := by
  unfold reduce at ran
  split at ran
  · next final trace turned =>
    split_ifs at ran with added
    obtain rfl := Except.ok.inj ran
    have kept := Machine.run_invariant (fun state _ =>
      state.total + ∑ t ∈ Finset.range shares.length, (state.stages t).pending value =
        total + ∑ t ∈ Finset.range shares.length, ((shares.getD t []).map value).sum)
      (fun state _ thread next places holds stepped => (turn_total stepped).trans holds)
      (by simp [start,Stage.pending]) turned
    have nothing : ∑ t ∈ Finset.range shares.length, (final.stages t).pending value = 0 := by
      apply Finset.sum_eq_zero
      intro t member
      have ended := added t (Finset.mem_range.mp member)
      cases stage : final.stages t with
      | adding sum left => simp [stage,Stage.Added] at ended
      | added => rfl
    rw [nothing,add_zero,sum_shares] at kept
    exact kept
  · contradiction

/-- The turns that are left to a thread. -/
def Stage.left : Stage M → Nat
  | .adding _ left => left.length + 1
  | .added => 0

private theorem turn_left (threads : Nat) (value : Nat → M) {state : State M} {thread : Nat}
    (low : thread < threads) (unfinished : ¬(state.stages thread).Added) :
    ∃ total stage places, (turns threads value).step state thread =
        some (⟨total,Function.update state.stages thread stage⟩,places) ∧
      stage.left < (state.stages thread).left := by
  cases stage : state.stages thread with
  | added => exact absurd (by rw [stage]; trivial) unfinished
  | adding sum left =>
    cases left with
    | nil =>
      exact ⟨state.total + sum,.added,[],by simp [turns,low,stage],by simp [Stage.left]⟩
    | cons place left =>
      exact ⟨state.total,.adding (sum + value place) left,[place],by simp [turns,low,stage],
        by simp [Stage.left]⟩

private theorem exists_finish (threads : Nat) (value : Nat → M) (state : State M) :
    ∃ schedule final trace, (turns threads value).run state schedule = some (final,trace) ∧
      final.Added threads := by
  apply Machine.exists_finish (State.Added threads) fun state : State M =>
    ∑ t ∈ Finset.range threads, (state.stages t).left
  intro state unfinished
  simp only [State.Added,not_forall] at unfinished
  obtain ⟨thread,low,unfinished⟩ := unfinished
  obtain ⟨total,stage,places,stepped,fewer⟩ := turn_left threads value low unfinished
  refine ⟨thread,_,places,stepped,?_⟩
  apply Finset.sum_lt_sum
  · intro t _
    dsimp only
    by_cases here : t = thread
    · subst here
      rw [Function.update_self]
      exact fewer.le
    · rw [Function.update_of_ne here]
  · exact ⟨thread,Finset.mem_range.mpr low,by dsimp only; rwa [Function.update_self]⟩

theorem exists_reduce (value : Nat → M) (shares : List (List Nat)) (total : M) :
    ∃ schedule sum, reduce value shares schedule total = .ok sum := by
  obtain ⟨schedule,final,trace,ran,added⟩ := exists_finish shares.length value (start shares total)
  exact ⟨schedule,final.total,by simp [reduce,ran,added]⟩

end Reduction
