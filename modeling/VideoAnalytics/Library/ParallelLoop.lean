import VideoAnalytics.Library.InPlace
import VideoAnalytics.Library.Machine
import Mathlib.Algebra.Order.BigOperators.Group.Finset

/-! Parallel loops whose iterations each gather over cells of their own and then rewrite
these, from one area of memory to another or in place. The iterations take turns access by
access, in any order. -/
namespace ParallelLoop
open Memory InPlace

inductive Refused
  | schedule
  deriving DecidableEq, Repr

inductive Access
  | load (address : Nat)
  | store (address : Nat)
  deriving DecidableEq, Repr

/-- The cells of an iteration are offsets into both areas. -/
structure Region (σ α : Type) where
  count : Nat
  gathered : Nat → List Nat
  cells : Nat → List Nat
  first : σ
  gather : σ → α → σ
  finish : σ → σ
  rewrite : σ → α → α

/-- How far an iteration has come, with what it keeps in registers. -/
inductive Stage (σ α : Type)
  | gathering (sum : σ) (left : List Nat)
  | loading (summary : σ) (left : List Nat)
  | storing (summary : σ) (cell : Nat) (value : α) (left : List Nat)

structure State (σ α : Type) where
  memory : Memory α
  stages : Nat → Stage σ α

section Runs

variable {σ α : Type} (region : Region σ α) (src dst : Nat)

def advance (memory : Memory α) (iteration : Nat) :
    Stage σ α → Option (Stage σ α × Memory α × List Access)
  | .gathering sum (cell :: left) =>
    some (.gathering (region.gather sum (memory (src + cell))) left,memory,[.load (src + cell)])
  | .gathering sum [] => some (.loading (region.finish sum) (region.cells iteration),memory,[])
  | .loading summary (cell :: left) =>
    some (.storing summary cell (region.rewrite summary (memory (src + cell))) left,memory,
      [.load (src + cell)])
  | .loading _ [] => none
  | .storing summary cell value left =>
    some (.loading summary left,memory.write (dst + cell) value,[.store (dst + cell)])

/-- An action is the iteration whose turn it is. -/
def turns : Machine.System (State σ α) Nat Access where
  step state iteration :=
    if iteration < region.count then
      (advance region src dst state.memory iteration (state.stages iteration)).map
        fun (stage,memory,accesses) =>
          (⟨memory,Function.update state.stages iteration stage⟩,accesses)
    else none

def start (memory : Memory α) : State σ α where
  memory := memory
  stages iteration := .gathering region.first (region.gathered iteration)

def Stage.Finished : Stage σ α → Prop
  | .loading _ [] => True
  | _ => False

instance (stage : Stage σ α) : Decidable stage.Finished :=
  match stage with
  | .loading _ [] => .isTrue trivial
  | .loading _ (_ :: _) => .isFalse id
  | .gathering _ _ => .isFalse id
  | .storing _ _ _ _ => .isFalse id

def State.Finished (state : State σ α) : Prop :=
  ∀ iteration < region.count, (state.stages iteration).Finished

instance (state : State σ α) : Decidable (state.Finished region) :=
  inferInstanceAs (Decidable (∀ iteration < region.count, (state.stages iteration).Finished))

/-- The memory behind the loop when its iterations have taken their turns. -/
def run (schedule : List Nat) (memory : Memory α) : Except Refused (Memory α) :=
  match (turns region src dst).run (start region memory) schedule with
  | some (final,_) => if final.Finished region then .ok final.memory else .error .schedule
  | none => .error .schedule

/-- No cell belongs to two iterations, and the areas are one or apart. -/
structure Separate (size : Nat) : Prop where
  apart : ∀ i j cell, i < region.count → j < region.count → cell ∈ region.cells i →
    cell ∈ region.cells j → i = j
  once : ∀ i < region.count, (region.cells i).Nodup
  own : ∀ i < region.count, region.gathered i ⊆ region.cells i
  within : ∀ i < region.count, ∀ cell ∈ region.cells i, cell < size
  placed : Placed src dst size

variable {region src dst}

/-- What an iteration gathers, were it alone. -/
def summary (region : Region σ α) (src : Nat) (before : Memory α) (iteration : Nat) : σ :=
  region.finish ((region.gathered iteration).foldl
    (fun sum cell => region.gather sum (before (src + cell))) region.first)

def image (region : Region σ α) (src : Nat) (before : Memory α) (iteration cell : Nat) : α :=
  region.rewrite (summary region src before iteration) (before (src + cell))

/-- The first cells of an iteration are rewritten, the others still as before. -/
structure Rewritten (region : Region σ α) (src dst : Nat) (before memory : Memory α) (iteration : Nat)
    (done left : List Nat) : Prop where
  split : region.cells iteration = done ++ left
  done : ∀ cell ∈ done, memory (dst + cell) = image region src before iteration cell
  left : ∀ cell ∈ left, memory (dst + cell) = before (dst + cell)

def Stage.Right (region : Region σ α) (src dst : Nat) (before memory : Memory α) (iteration : Nat) :
    Stage σ α → Prop
  | .gathering sum left =>
    (∃ done, region.gathered iteration = done ++ left ∧
      sum = done.foldl (fun sum cell => region.gather sum (before (src + cell))) region.first) ∧
    Rewritten region src dst before memory iteration [] (region.cells iteration)
  | .loading found left =>
    found = summary region src before iteration ∧
      ∃ done, Rewritten region src dst before memory iteration done left
  | .storing found cell value left =>
    found = summary region src before iteration ∧ value = image region src before iteration cell ∧
      ∃ done, Rewritten region src dst before memory iteration done (cell :: left)

structure Holds (region : Region σ α) (src dst : Nat) (before : Memory α) (state : State σ α) :
    Prop where
  stages : ∀ i < region.count, (state.stages i).Right region src dst before state.memory i
  others : ∀ address, (∀ i < region.count, ∀ cell ∈ region.cells i, address ≠ dst + cell) →
    state.memory address = before address

def Access.Within (src dst size : Nat) : Access → Prop
  | .load address => src ≤ address ∧ address < src + size
  | .store address => dst ≤ address ∧ address < dst + size

/-- A cell that has not been rewritten is loaded as it was. -/
theorem load_unchanged {size i cell : Nat} {before memory : Memory α}
    (separate : Separate region src dst size) (low : i < region.count) (member : cell ∈ region.cells i)
    (others : ∀ address, (∀ i < region.count, ∀ cell ∈ region.cells i, address ≠ dst + cell) →
      memory address = before address)
    (left : memory (dst + cell) = before (dst + cell)) :
    memory (src + cell) = before (src + cell) := by
  rcases separate.placed with same | apart
  · rwa [same]
  · apply others
    intro j below other belongs
    have inside := separate.within i low cell member
    have outside := separate.within j below other belongs
    omega

/-- A store to a cell of one iteration leaves the others as they are. -/
theorem Stage.Right.store {size i j cell : Nat} {before memory : Memory α} {value : α}
    {stage : Stage σ α} (separate : Separate region src dst size) (low : i < region.count)
    (below : j < region.count) (different : j ≠ i) (member : cell ∈ region.cells i)
    (right : stage.Right region src dst before memory j) :
    stage.Right region src dst before (memory.write (dst + cell) value) j := by
  have kept (other : Nat) (belongs : other ∈ region.cells j) :
      memory.write (dst + cell) value (dst + other) = memory (dst + other) := by
    apply write_other
    intro same
    have equal : other = cell := by omega
    exact different (separate.apart j i other below low belongs (equal ▸ member))
  have frame {done left : List Nat} (rewritten : Rewritten region src dst before memory j done left) :
      Rewritten region src dst before (memory.write (dst + cell) value) j done left := by
    refine ⟨rewritten.split,?_,?_⟩
    · intro other belongs
      rw [kept other (by rw [rewritten.split]; exact List.mem_append_left _ belongs)]
      exact rewritten.done other belongs
    · intro other belongs
      rw [kept other (by rw [rewritten.split]; exact List.mem_append_right _ belongs)]
      exact rewritten.left other belongs
  cases stage with
  | gathering sum left => exact ⟨right.1,frame right.2⟩
  | loading found left =>
    obtain ⟨same,done,rewritten⟩ := right
    exact ⟨same,done,frame rewritten⟩
  | storing found other loaded left =>
    obtain ⟨same,right,done,rewritten⟩ := right
    exact ⟨same,right,done,frame rewritten⟩

private theorem start_holds (before : Memory α) : Holds region src dst before
    (start region before) where
  stages i _ := ⟨⟨[],rfl,rfl⟩,rfl,by simp,fun _ _ => rfl⟩
  others _ _ := rfl

/-- One turn of an iteration. -/
theorem advance_right {size i : Nat} {before : Memory α} {state : State σ α} {next : Stage σ α}
    {memory : Memory α} {accesses : List Access} (separate : Separate region src dst size)
    (low : i < region.count) (holds : Holds region src dst before state)
    (advanced : advance region src dst state.memory i (state.stages i) = some (next,memory,accesses)) :
    next.Right region src dst before memory i ∧ (∀ access ∈ accesses, access.Within src dst size) ∧
      (memory = state.memory ∨
        ∃ cell ∈ region.cells i, ∃ value, memory = state.memory.write (dst + cell) value) := by
  have right := holds.stages i low
  have loads {cell : Nat} (member : cell ∈ region.cells i) :
      ∀ access ∈ [Access.load (src + cell)], access.Within src dst size := by
    have inside := separate.within i low cell member
    intro access same
    rw [List.mem_singleton.mp same]
    exact ⟨Nat.le_add_right _ _,by omega⟩
  cases stage : state.stages i with
  | gathering sum left =>
    rw [stage] at right advanced
    obtain ⟨⟨done,split,sums⟩,rewritten⟩ := right
    cases left with
    | nil =>
      simp only [advance,Option.some.injEq,Prod.mk.injEq] at advanced
      obtain ⟨rfl,rfl,rfl⟩ := advanced
      refine ⟨⟨?_,[],rewritten⟩,by simp,.inl rfl⟩
      rw [summary,split,List.append_nil,sums]
    | cons cell left =>
      simp only [advance,Option.some.injEq,Prod.mk.injEq] at advanced
      obtain ⟨rfl,rfl,rfl⟩ := advanced
      have member : cell ∈ region.cells i := separate.own i low (by simp [split])
      have loaded := load_unchanged separate low member holds.others (rewritten.left cell member)
      refine ⟨⟨⟨done ++ [cell],by simp [split],?_⟩,rewritten⟩,loads member,.inl rfl⟩
      rw [loaded,List.foldl_append,sums]
      rfl
  | loading found left =>
    rw [stage] at right advanced
    obtain ⟨same,done,rewritten⟩ := right
    cases left with
    | nil => simp [advance] at advanced
    | cons cell left =>
      simp only [advance,Option.some.injEq,Prod.mk.injEq] at advanced
      obtain ⟨rfl,rfl,rfl⟩ := advanced
      have member : cell ∈ region.cells i := by simp [rewritten.split]
      have loaded := load_unchanged separate low member holds.others
        (rewritten.left cell List.mem_cons_self)
      refine ⟨⟨same,?_,done,rewritten⟩,loads member,.inl rfl⟩
      rw [loaded,same,image]
  | storing found cell value left =>
    rw [stage] at right advanced
    obtain ⟨same,computed,done,rewritten⟩ := right
    simp only [advance,Option.some.injEq,Prod.mk.injEq] at advanced
    obtain ⟨rfl,rfl,rfl⟩ := advanced
    have member : cell ∈ region.cells i := by simp [rewritten.split]
    have once := separate.once i low
    rw [rewritten.split] at once
    have fresh : cell ∉ done ∧ cell ∉ left := by
      rw [List.nodup_append,List.nodup_cons] at once
      exact ⟨fun earlier => once.2.2 cell earlier cell List.mem_cons_self rfl,once.2.1.1⟩
    refine ⟨⟨same,done ++ [cell],by simp [rewritten.split],?_,?_⟩,?_,.inr ⟨cell,member,value,rfl⟩⟩
    · intro other belongs
      rcases List.mem_append.mp belongs with earlier | here
      · have different : other ≠ cell := fun equal => fresh.1 (equal ▸ earlier)
        rw [write_other _ _ _ _ (by omega)]
        exact rewritten.done other earlier
      · rw [List.mem_singleton.mp here,write_same,computed]
    · intro other belongs
      have different : other ≠ cell := fun equal => fresh.2 (equal ▸ belongs)
      rw [write_other _ _ _ _ (by omega)]
      exact rewritten.left other (List.mem_cons_of_mem _ belongs)
    · have inside := separate.within i low cell member
      intro access here
      rw [List.mem_singleton.mp here]
      exact ⟨Nat.le_add_right _ _,by omega⟩

private theorem turn_holds {size i : Nat} {before : Memory α} {state next : State σ α}
    {accesses : List Access} (separate : Separate region src dst size)
    (holds : Holds region src dst before state)
    (stepped : (turns region src dst).step state i = some (next,accesses)) :
    Holds region src dst before next ∧ ∀ access ∈ accesses, access.Within src dst size := by
  simp only [turns] at stepped
  split_ifs at stepped with low
  rw [Option.map_eq_some_iff] at stepped
  obtain ⟨⟨stage,memory,emitted⟩,advanced,same⟩ := stepped
  obtain ⟨rfl,rfl⟩ := same
  obtain ⟨right,within,changes⟩ := advance_right separate low holds advanced
  refine ⟨⟨?_,?_⟩,within⟩
  · intro j below
    by_cases here : j = i
    · subst here
      simpa using right
    · dsimp only
      rw [Function.update_of_ne here]
      rcases changes with rfl | ⟨cell,member,value,rfl⟩
      · exact holds.stages j below
      · exact (holds.stages j below).store separate low below here member
  · intro address outside
    rcases changes with rfl | ⟨cell,member,value,rfl⟩
    · exact holds.others address outside
    · exact (write_other _ _ _ _ (outside i low cell member)).trans (holds.others address outside)

/-- In whatever order the iterations take their turns, each access lies within its area. -/
theorem accesses_within {size : Nat} {before : Memory α} {final : State σ α} {schedule : List Nat}
    {trace : List Access} (separate : Separate region src dst size)
    (ran : (turns region src dst).run (start region before) schedule = some (final,trace)) :
    Holds region src dst before final ∧ ∀ access ∈ trace, access.Within src dst size := by
  apply Machine.run_invariant (fun state trace => Holds region src dst before state ∧
    ∀ access ∈ trace, access.Within src dst size) _ ⟨start_holds before,by simp⟩ ran
  rintro state trace i next accesses ⟨holds,within⟩ stepped
  obtain ⟨kept,also⟩ := turn_holds separate holds stepped
  refine ⟨kept,?_⟩
  intro access member
  rcases List.mem_append.mp member with earlier | now
  · exact within access earlier
  · exact also access now

/-- In whatever order the iterations take their turns, each cell becomes what its iteration
alone makes of it, and nothing else changes. -/
theorem run_image {size : Nat} {schedule : List Nat} {before after : Memory α}
    (separate : Separate region src dst size) (ran : run region src dst schedule before = .ok after) :
    (∀ i < region.count, ∀ cell ∈ region.cells i, after (dst + cell) = image region src before i cell) ∧
      ∀ address, (∀ i < region.count, ∀ cell ∈ region.cells i, address ≠ dst + cell) →
        after address = before address := by
  unfold run at ran
  split at ran
  · next final trace turned =>
    split_ifs at ran with finished
    obtain rfl := Except.ok.inj ran
    obtain ⟨holds,-⟩ := accesses_within separate turned
    refine ⟨?_,holds.others⟩
    intro i low cell member
    have right := holds.stages i low
    have ended := finished i low
    cases stage : final.stages i with
    | gathering sum left => simp [stage,Stage.Finished] at ended
    | storing found other value left => simp [stage,Stage.Finished] at ended
    | loading found left =>
      cases left with
      | cons other left => simp [stage,Stage.Finished] at ended
      | nil =>
        rw [stage] at right
        obtain ⟨-,done,rewritten⟩ := right
        rw [rewritten.split,List.append_nil] at member
        exact rewritten.done cell member
  · contradiction

theorem run_rewrites {size : Nat} {schedule : List Nat} {before after : Memory α}
    {result : (Nat → α) → Nat → α} (separate : Separate region src dst size)
    (ran : run region src dst schedule before = .ok after)
    (right : ∀ i < region.count, ∀ cell ∈ region.cells i,
      image region src before i cell = result (before.offset src) cell) :
    Partly src dst size result before after fun cell => ∃ i < region.count, cell ∈ region.cells i where
  cells cell _ here := by
    obtain ⟨i,low,member⟩ := here
    rw [(run_image separate ran).1 i low cell member]
    exact right i low cell member
  only address outside := by
    apply (run_image separate ran).2
    intro i low cell member
    exact outside cell (separate.within i low cell member) ⟨i,low,member⟩

/-- The turns that are left to an iteration. -/
def Stage.left (cells : List Nat) : Stage σ α → Nat
  | .gathering _ left => left.length + 1 + 2 * cells.length
  | .loading _ left => 2 * left.length
  | .storing _ _ _ left => 2 * left.length + 1

private theorem advance_left (region : Region σ α) (src dst : Nat) (memory : Memory α) (i : Nat)
    {stage : Stage σ α} (unfinished : ¬stage.Finished) :
    ∃ next after accesses, advance region src dst memory i stage = some (next,after,accesses) ∧
      next.left (region.cells i) < stage.left (region.cells i) := by
  cases stage with
  | gathering sum left =>
    cases left with
    | nil => exact ⟨_,_,_,rfl,by simp [Stage.left]⟩
    | cons cell left => exact ⟨_,_,_,rfl,by simp [Stage.left]⟩
  | loading found left =>
    cases left with
    | nil => exact absurd trivial unfinished
    | cons cell left => exact ⟨_,_,_,rfl,by simp [Stage.left]; omega⟩
  | storing found cell value left => exact ⟨_,_,_,rfl,by simp [Stage.left]⟩

/-- From any state the iterations can take their turns to the end. -/
theorem exists_finish (region : Region σ α) (src dst : Nat) (state : State σ α) :
    ∃ schedule final trace, (turns region src dst).run state schedule = some (final,trace) ∧
      final.Finished region := by
  apply Machine.exists_finish (State.Finished region) fun state =>
    ∑ i ∈ Finset.range region.count, (state.stages i).left (region.cells i)
  intro state unfinished
  simp only [State.Finished,not_forall] at unfinished
  obtain ⟨i,low,unfinished⟩ := unfinished
  obtain ⟨stage,after,accesses,advanced,fewer⟩ :=
    advance_left region src dst state.memory i unfinished
  refine ⟨i,⟨after,Function.update state.stages i stage⟩,accesses,by simp [turns,low,advanced],?_⟩
  apply Finset.sum_lt_sum
  · intro j _
    dsimp only
    by_cases here : j = i
    · subst here
      rw [Function.update_self]
      exact fewer.le
    · rw [Function.update_of_ne here]
  · exact ⟨i,Finset.mem_range.mpr low,by dsimp only; rwa [Function.update_self]⟩

theorem exists_run (region : Region σ α) (src dst : Nat) (memory : Memory α) :
    ∃ schedule after, run region src dst schedule memory = .ok after := by
  obtain ⟨schedule,final,trace,ran,finished⟩ :=
    exists_finish region src dst (start region memory)
  exact ⟨schedule,final.memory,by simp [run,ran,finished]⟩

end Runs

end ParallelLoop
