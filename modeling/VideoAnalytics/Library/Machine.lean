import Mathlib.Data.List.Basic

/-! Partial deterministic machines with an event trace. A step is refused or
yields the next state together with the events it emits; a run concatenates
the events of its steps. Nothing here depends on a particular program. -/
namespace Machine

structure System (State Action Event : Type) where
  step : State → Action → Option (State × List Event)

variable {State Action Event : Type} (system : System State Action Event)

def System.run : State → List Action → Option (State × List Event)
  | state, [] => some (state,[])
  | state, action :: rest =>
    (system.step state action).bind fun (next,emitted) =>
      (System.run next rest).map fun (final,trace) => (final,emitted ++ trace)

/-- Every step taken along the actions starts in a state where the condition
holds of the action. -/
def System.Along (condition : State → Action → Prop) : State → List Action → Prop
  | _, [] => True
  | state, action :: rest => ∀ next emitted, system.step state action = some (next,emitted) →
      condition state action ∧ System.Along condition next rest

/-- Every event of a trace is good after the events before it. -/
def Each (good : List Event → Event → Prop) (trace : List Event) : Prop :=
  ∀ before event after, trace = before ++ event :: after → good before event

theorem each_nil (good : List Event → Event → Prop) : Each good [] := by
  intro before event after same
  simp at same

theorem each_snoc {good : List Event → Event → Prop} {trace : List Event} {last : Event}
    (each : Each good trace) (now : good trace last) : Each good (trace ++ [last]) := by
  intro before event after same
  rcases List.eq_nil_or_concat after with rfl | ⟨middle,final,rfl⟩
  · obtain ⟨rfl,rest⟩ := List.append_inj' same rfl
    obtain rfl := List.head_eq_of_cons_eq rest
    exact now
  · have split : trace ++ [last] = (before ++ event :: middle) ++ [final] := by
      rw [same,List.concat_eq_append]
      simp
    exact each before event middle (List.append_inj' split rfl).1

variable {system}

@[simp] theorem run_nil (state : State) : system.run state [] = some (state,[]) := rfl

theorem run_cons {state final : State} {action : Action} {rest : List Action}
    {trace : List Event} :
    system.run state (action :: rest) = some (final,trace) ↔
      ∃ next emitted tail, system.step state action = some (next,emitted) ∧
        system.run next rest = some (final,tail) ∧ trace = emitted ++ tail := by
  simp only [System.run,Option.bind_eq_some_iff,Option.map_eq_some_iff,Prod.exists,Prod.mk.injEq]
  constructor
  · rintro ⟨next,emitted,stepped,last,tail,ran,rfl,rfl⟩
    exact ⟨next,emitted,tail,stepped,ran,rfl⟩
  · rintro ⟨next,emitted,tail,stepped,ran,rfl⟩
    exact ⟨next,emitted,stepped,final,tail,ran,rfl,rfl⟩

theorem run_append {state final : State} {first second : List Action} {trace : List Event} :
    system.run state (first ++ second) = some (final,trace) ↔
      ∃ middle head tail, system.run state first = some (middle,head) ∧
        system.run middle second = some (final,tail) ∧ trace = head ++ tail := by
  induction first generalizing state trace with
  | nil => simp
  | cons action rest ih =>
    simp only [List.cons_append,run_cons,ih]
    constructor
    · rintro ⟨next,emitted,_,stepped,⟨middle,head,tail,ran,last,rfl⟩,rfl⟩
      exact ⟨middle,emitted ++ head,tail,⟨next,emitted,head,stepped,ran,rfl⟩,last,by simp⟩
    · rintro ⟨middle,_,tail,⟨next,emitted,head,stepped,ran,rfl⟩,last,rfl⟩
      exact ⟨next,emitted,head ++ tail,stepped,⟨middle,head,tail,ran,last,rfl⟩,by simp⟩

theorem run_snoc {state middle final : State} {actions : List Action} {action : Action}
    {trace emitted : List Event} (ran : system.run state actions = some (middle,trace))
    (stepped : system.step middle action = some (final,emitted)) :
    system.run state (actions ++ [action]) = some (final,trace ++ emitted) :=
  run_append.mpr ⟨middle,trace,emitted,ran,by simp [System.run,stepped],rfl⟩

/-- An invariant of states and traces that each step preserves, under a
condition that the steps of the run meet, holds after the run. -/
theorem run_invariant_along {condition : State → Action → Prop}
    (invariant : State → List Event → Prop)
    (preserved : ∀ state trace action next emitted, invariant state trace →
      condition state action → system.step state action = some (next,emitted) →
      invariant next (trace ++ emitted))
    {actions : List Action} {state final : State} {before trace : List Event}
    (initially : invariant state before) (along : system.Along condition state actions)
    (ran : system.run state actions = some (final,trace)) :
    invariant final (before ++ trace) := by
  induction actions generalizing state before trace with
  | nil =>
    simp only [run_nil,Option.some.injEq,Prod.mk.injEq] at ran
    obtain ⟨rfl,rfl⟩ := ran
    simpa using initially
  | cons action rest ih =>
    obtain ⟨next,emitted,tail,stepped,later,rfl⟩ := run_cons.mp ran
    obtain ⟨holds,along⟩ := along _ _ stepped
    have kept := preserved _ _ _ _ _ initially holds stepped
    rw [← List.append_assoc]
    exact ih kept along later

theorem along_true (state : State) (actions : List Action) :
    system.Along (fun _ _ => True) state actions := by
  induction actions generalizing state with
  | nil => trivial
  | cons action rest ih => exact fun next _ _ => ⟨trivial,ih next⟩

instance along_decidable {condition : State → Action → Prop}
    [∀ state action, Decidable (condition state action)] :
    ∀ state actions, Decidable (system.Along condition state actions)
  | _, [] => .isTrue trivial
  | state, action :: rest =>
    match stepped : system.step state action with
    | none => .isTrue (by simp [System.Along,stepped])
    | some (next,emitted) =>
      have : Decidable (system.Along condition next rest) := along_decidable next rest
      decidable_of_iff (condition state action ∧ system.Along condition next rest)
        (by simp [System.Along,stepped])

theorem along_actions {condition : Action → Prop} {actions : List Action} {state final : State}
    {trace : List Event} (ran : system.run state actions = some (final,trace)) :
    system.Along (fun _ action => condition action) state actions ↔
      ∀ action ∈ actions, condition action := by
  induction actions generalizing state trace with
  | nil => simp [System.Along]
  | cons action rest ih =>
    obtain ⟨next,emitted,tail,stepped,later,rfl⟩ := run_cons.mp ran
    simp [System.Along,stepped,ih later]

theorem along_congr {first second : State → Action → Prop} (invariant : State → Prop)
    (preserved : ∀ state action next emitted, invariant state →
      system.step state action = some (next,emitted) → invariant next)
    (same : ∀ state action next emitted, invariant state →
      system.step state action = some (next,emitted) →
      (first state action ↔ second state action))
    {state : State} (actions : List Action) (initially : invariant state) :
    system.Along first state actions ↔ system.Along second state actions := by
  induction actions generalizing state with
  | nil => exact Iff.rfl
  | cons action rest ih =>
    constructor
    · intro along next emitted stepped
      obtain ⟨holds,later⟩ := along next emitted stepped
      have kept := preserved _ _ _ _ initially stepped
      exact ⟨(same _ _ _ _ initially stepped).mp holds,(ih kept).mp later⟩
    · intro along next emitted stepped
      obtain ⟨holds,later⟩ := along next emitted stepped
      have kept := preserved _ _ _ _ initially stepped
      exact ⟨(same _ _ _ _ initially stepped).mpr holds,(ih kept).mpr later⟩

/-- A condition that says of a step which events it does not emit says it of the
trace of a run. -/
theorem along_iff_trace {condition : State → Action → Prop} {good : Event → Prop}
    (invariant : State → Prop)
    (preserved : ∀ state action next emitted, invariant state →
      system.step state action = some (next,emitted) → invariant next)
    (steps : ∀ state action next emitted, invariant state →
      system.step state action = some (next,emitted) →
      (condition state action ↔ ∀ event ∈ emitted, good event))
    {actions : List Action} {state final : State} {trace : List Event}
    (initially : invariant state) (ran : system.run state actions = some (final,trace)) :
    system.Along condition state actions ↔ ∀ event ∈ trace, good event := by
  induction actions generalizing state trace with
  | nil =>
    simp only [run_nil,Option.some.injEq,Prod.mk.injEq] at ran
    obtain ⟨-,rfl⟩ := ran
    simp [System.Along]
  | cons action rest ih =>
    obtain ⟨next,emitted,tail,stepped,later,rfl⟩ := run_cons.mp ran
    have here := steps _ _ _ _ initially stepped
    have kept := preserved _ _ _ _ initially stepped
    simp only [System.Along,stepped,Option.some.injEq,Prod.mk.injEq,and_imp,List.mem_append]
    constructor
    · intro along event member
      obtain ⟨holds,after⟩ := along next emitted rfl rfl
      cases member with
      | inl member => exact here.mp holds event member
      | inr member => exact (ih kept later).mp after event member
    · rintro all _ _ rfl rfl
      exact ⟨here.mpr fun event member => all event (.inl member),
        (ih kept later).mpr fun event member => all event (.inr member)⟩

theorem run_invariant (invariant : State → List Event → Prop)
    (preserved : ∀ state trace action next emitted, invariant state trace →
      system.step state action = some (next,emitted) → invariant next (trace ++ emitted))
    {actions : List Action} {state final : State} {trace : List Event}
    (initially : invariant state [])
    (ran : system.run state actions = some (final,trace)) : invariant final trace := by
  have along : system.Along (fun _ _ => True) state actions := along_true state actions
  have kept := run_invariant_along invariant
    (fun state trace action next emitted holds _ stepped =>
      preserved state trace action next emitted holds stepped) initially along ran
  simpa using kept

/-- A system whose steps are never refused in the states of an invariant, and of which
each reports one event about the state it leads to, runs to the end with as many reports
as actions. The last report is about the state that the run ends in. -/
theorem run_reports (invariant : State → Prop) (reports : State → Event → Prop)
    (proceeds : ∀ state action, invariant state → ∃ next event,
      system.step state action = some (next,[event]) ∧ invariant next ∧ reports next event)
    {state : State} (actions : List Action) (initially : invariant state) :
    ∃ final trace, system.run state actions = some (final,trace) ∧
      trace.length = actions.length ∧ (∀ event ∈ trace.getLast?, reports final event) ∧
      ∀ event ∈ trace, ∃ reached, invariant reached ∧ reports reached event := by
  induction actions generalizing state with
  | nil => exact ⟨state,[],rfl,rfl,by simp,by simp⟩
  | cons action rest ih =>
    obtain ⟨next,event,stepped,kept,now⟩ := proceeds state action initially
    obtain ⟨final,trace,ran,long,last,later⟩ := ih kept
    refine ⟨final,event :: trace,run_cons.mpr ⟨next,[event],trace,stepped,ran,rfl⟩,
      congrArg (· + 1) long,?_,?_⟩
    · cases rest with
      | nil =>
        simp only [run_nil,Option.some.injEq,Prod.mk.injEq] at ran
        obtain ⟨rfl,rfl⟩ := ran
        simpa using now
      | cons following others =>
        cases trace with
        | nil => simp at long
        | cons second tail => simpa using last
    · intro other member
      cases member with
      | head => exact ⟨next,kept,now⟩
      | tail _ member => exact later other member

/-- A system in which some step always brings the end nearer can be run to its end. -/
theorem exists_finish (finished : State → Prop) (measure : State → Nat)
    (proceeds : ∀ state, ¬finished state → ∃ action next emitted,
      system.step state action = some (next,emitted) ∧ measure next < measure state)
    (state : State) :
    ∃ actions final trace, system.run state actions = some (final,trace) ∧ finished final := by
  induction counted : measure state using Nat.strongRecOn generalizing state with
  | _ count ih =>
    by_cases ended : finished state
    · exact ⟨[],state,[],rfl,ended⟩
    · obtain ⟨action,next,emitted,stepped,nearer⟩ := proceeds state ended
      obtain ⟨actions,final,trace,ran,last⟩ := ih (measure next) (counted ▸ nearer) next rfl
      exact ⟨action :: actions,final,emitted ++ trace,
        run_cons.mpr ⟨next,emitted,trace,stepped,ran,rfl⟩,last⟩

end Machine
