import Mathlib.Data.List.Basic

/-! Straight-line programs whose instructions may return early or have no defined
effect: how they execute, and the rule that carries an invariant about what has
been executed so far. -/
namespace EarlyReturn

inductive Stop
  | returned
  | undefined
  deriving DecidableEq, Repr

structure Outcome (σ ε : Type) where
  state : σ
  events : List ε
  stop : Option Stop

variable {σ ε Instr : Type}

def proceed (state : σ) : Outcome σ ε := ⟨state,[],none⟩

def emit (events : List ε) (state : σ) : Outcome σ ε := ⟨state,events,none⟩

def stopped (stop : Stop) (state : σ) : Outcome σ ε := ⟨state,[],some stop⟩

def Outcome.andThen (first : Outcome σ ε) (second : σ → Outcome σ ε) : Outcome σ ε :=
  match first.stop with
  | some _ => first
  | none =>
    let last := second first.state
    ⟨last.state,first.events ++ last.events,last.stop⟩

/-- A caller that ignores whether its callee has returned early. -/
def Outcome.resume (outcome : Outcome σ ε) : Outcome σ ε :=
  {outcome with stop := if outcome.stop = some .returned then none else outcome.stop}

def performAll (perform : Instr → σ → Outcome σ ε) : List Instr → σ → Outcome σ ε
  | [], state => proceed state
  | instr :: rest, state => (perform instr state).andThen (performAll perform rest)

/-- Each instruction is allowed after those before it. -/
def Ordered (allowed : List Instr → Instr → Prop) : List Instr → List Instr → Prop
  | _, [] => True
  | done, instr :: rest => allowed done instr ∧ Ordered allowed (done ++ [instr]) rest

instance ordered_decidable (allowed : List Instr → Instr → Prop)
    [∀ done instr, Decidable (allowed done instr)] :
    ∀ done instrs, Decidable (Ordered allowed done instrs)
  | _, [] => .isTrue trivial
  | done, instr :: rest =>
    have := ordered_decidable allowed (done ++ [instr]) rest
    inferInstanceAs (Decidable (allowed done instr ∧ Ordered allowed (done ++ [instr]) rest))

/-- The events are good, and the state is as it should be after the end and after
an early return. -/
structure Meets (good : ε → Prop) (ended returned : σ → Prop) (outcome : Outcome σ ε) : Prop where
  events : ∀ event ∈ outcome.events, good event
  ended : outcome.stop = none → ended outcome.state
  returned : outcome.stop = some .returned → returned outcome.state

theorem Meets.proceed {good : ε → Prop} {ended returned : σ → Prop} {state : σ}
    (holds : ended state) : Meets good ended returned (proceed state) :=
  ⟨by simp [EarlyReturn.proceed],fun _ => holds,by simp [EarlyReturn.proceed]⟩

theorem Meets.stopped {good : ε → Prop} {ended returned : σ → Prop} {state : σ}
    (holds : returned state) : Meets good ended returned (stopped .returned state) :=
  ⟨by simp [EarlyReturn.stopped],by simp [EarlyReturn.stopped],fun _ => holds⟩

theorem Meets.undefined (good : ε → Prop) (ended returned : σ → Prop) (state : σ) :
    Meets good ended returned (EarlyReturn.stopped .undefined state) :=
  ⟨by simp [EarlyReturn.stopped],by simp [EarlyReturn.stopped],by simp [EarlyReturn.stopped]⟩

theorem Meets.weaken {good : ε → Prop} {ended returned after early : σ → Prop}
    {outcome : Outcome σ ε} (meets : Meets good ended returned outcome)
    (after_of : ∀ state, ended state → after state)
    (early_of : ∀ state, returned state → early state) : Meets good after early outcome :=
  ⟨meets.events,fun none => after_of _ (meets.ended none),
    fun stop => early_of _ (meets.returned stop)⟩

theorem Meets.andThen {good : ε → Prop} {between ended returned : σ → Prop}
    {first : Outcome σ ε} {second : σ → Outcome σ ε} (begins : Meets good between returned first)
    (continues : ∀ state, between state → Meets good ended returned (second state)) :
    Meets good ended returned (first.andThen second) := by
  unfold Outcome.andThen
  cases stop : first.stop with
  | some reason =>
    refine ⟨begins.events,?_,begins.returned⟩
    simp [stop]
  | none =>
    have rest := continues _ (begins.ended stop)
    refine ⟨?_,rest.ended,rest.returned⟩
    intro event member
    rcases List.mem_append.mp member with earlier | later
    · exact begins.events event earlier
    · exact rest.events event later

theorem Meets.resume {good : ε → Prop} {ended returned : σ → Prop} {outcome : Outcome σ ε}
    (meets : Meets good ended ended outcome) : Meets good ended returned outcome.resume := by
  refine ⟨meets.events,?_,?_⟩
  · intro none
    unfold Outcome.resume at none ⊢
    by_cases stop : outcome.stop = some .returned
    · exact meets.returned stop
    · rw [if_neg stop] at none
      exact meets.ended none
  · intro stop
    unfold Outcome.resume at stop
    split at stop
    · contradiction
    · next other => exact absurd stop other

/-- An invariant that each allowed instruction preserves, also when it returns
early, holds after an ordered program. -/
theorem performAll_rule {perform : Instr → σ → Outcome σ ε}
    {allowed : List Instr → Instr → Prop} (invariant : List Instr → σ → Prop) (good : ε → Prop)
    (steps : ∀ done instr state, allowed done instr → invariant done state →
      Meets good (invariant (done ++ [instr])) (invariant (done ++ [instr])) (perform instr state))
    {done : List Instr} {instrs : List Instr} {state : σ} (ordered : Ordered allowed done instrs)
    (holds : invariant done state) :
    Meets good (invariant (done ++ instrs))
      (fun final => ∃ performed, performed <+: instrs ∧ invariant (done ++ performed) final)
      (performAll perform instrs state) := by
  induction instrs generalizing done state with
  | nil => exact .proceed (by simpa using holds)
  | cons instr rest ih =>
    obtain ⟨here,later⟩ := ordered
    have begins := steps done instr state here holds
    apply Meets.andThen (begins.weaken (fun _ kept => kept) fun final kept =>
      ⟨[instr],⟨rest,rfl⟩,kept⟩)
    intro next kept
    apply (ih later kept).weaken
    · intro final ended
      simpa using ended
    · intro final early
      obtain ⟨performed,⟨others,rfl⟩,kept⟩ := early
      exact ⟨instr :: performed,⟨others,rfl⟩,by simpa using kept⟩

theorem Meets.emit {good : ε → Prop} {ended returned : σ → Prop} {events : List ε} {state : σ}
    (now : ∀ event ∈ events, good event) (holds : ended state) :
    Meets good ended returned (emit events state) :=
  ⟨now,fun _ => holds,by simp [EarlyReturn.emit]⟩

theorem Meets.emit_andThen {good : ε → Prop} {ended returned : σ → Prop} {events : List ε}
    {state : σ} {second : σ → Outcome σ ε} (now : ∀ event ∈ events, good event)
    (continues : Meets good ended returned (second state)) :
    Meets good ended returned ((EarlyReturn.emit events state).andThen second) := by
  refine ⟨?_,continues.ended,continues.returned⟩
  intro event member
  rcases List.mem_append.mp member with here | later
  · exact now event here
  · exact continues.events event later

/-- What held of the events before and of the state still does, however it stops. -/
def Keeps (invariant : List ε → σ → Prop) (before : List ε) (outcome : Outcome σ ε) : Prop :=
  invariant (before ++ outcome.events) outcome.state

section Keeps

variable {invariant : List ε → σ → Prop} {before : List ε} {state : σ}

theorem Keeps.proceed (holds : invariant before state) : Keeps invariant before (proceed state) := by
  simpa [Keeps,EarlyReturn.proceed] using holds

theorem Keeps.stopped (stop : Stop) (holds : invariant before state) :
    Keeps invariant before (stopped stop state) := by
  simpa [Keeps,EarlyReturn.stopped] using holds

theorem Keeps.andThen {first : Outcome σ ε} {second : σ → Outcome σ ε}
    (begins : Keeps invariant before first)
    (continues : ∀ events state, invariant events state → Keeps invariant events (second state)) :
    Keeps invariant before (first.andThen second) := by
  unfold Outcome.andThen
  cases first.stop with
  | some reason => exact begins
  | none =>
    unfold Keeps
    rw [← List.append_assoc]
    exact continues _ _ begins

theorem Keeps.emit_andThen {events : List ε} {second : σ → Outcome σ ε}
    (continues : Keeps invariant (before ++ events) (second state)) :
    Keeps invariant before ((emit events state).andThen second) := by
  unfold Keeps at continues
  rw [List.append_assoc] at continues
  exact continues

theorem Keeps.resume {outcome : Outcome σ ε} (keeps : Keeps invariant before outcome) :
    Keeps invariant before outcome.resume := keeps

theorem Keeps.performAll {perform : Instr → σ → Outcome σ ε}
    (steps : ∀ instr events state, invariant events state →
      Keeps invariant events (perform instr state)) (instrs : List Instr)
    (holds : invariant before state) : Keeps invariant before (performAll perform instrs state) := by
  induction instrs generalizing before state with
  | nil => exact .proceed holds
  | cons instr rest ih =>
    apply Keeps.andThen (steps instr before state holds)
    intro events next kept
    exact ih kept

end Keeps

/-- It meets its conditions and does nothing that has no defined effect. -/
structure Safe (good : ε → Prop) (ended returned : σ → Prop) (outcome : Outcome σ ε) : Prop extends
    Meets good ended returned outcome where
  defined : outcome.stop ≠ some .undefined

theorem Safe.proceed {good : ε → Prop} {ended returned : σ → Prop} {state : σ}
    (holds : ended state) : Safe good ended returned (proceed state) :=
  ⟨.proceed holds,by simp [EarlyReturn.proceed]⟩

theorem Safe.stopped {good : ε → Prop} {ended returned : σ → Prop} {state : σ}
    (holds : returned state) : Safe good ended returned (stopped .returned state) :=
  ⟨.stopped holds,by simp [EarlyReturn.stopped]⟩

theorem Safe.weaken {good : ε → Prop} {ended returned after : σ → Prop} {outcome : Outcome σ ε}
    (safe : Safe good ended returned outcome) (after_of : ∀ state, ended state → after state) :
    Safe good after returned outcome :=
  ⟨safe.toMeets.weaken after_of fun _ holds => holds,safe.defined⟩

theorem Safe.andThen {good : ε → Prop} {between ended returned : σ → Prop}
    {first : Outcome σ ε} {second : σ → Outcome σ ε} (begins : Safe good between returned first)
    (continues : ∀ state, between state → Safe good ended returned (second state)) :
    Safe good ended returned (first.andThen second) := by
  refine ⟨begins.toMeets.andThen fun state holds => (continues state holds).toMeets,?_⟩
  unfold Outcome.andThen
  cases stop : first.stop with
  | some reason => exact begins.defined
  | none => exact (continues _ (begins.ended stop)).defined

/-- An invariant of what has been executed that each instruction keeps holds after all
of them. -/
theorem Safe.performAll {perform : Instr → σ → Outcome σ ε} {good : ε → Prop}
    {returned : σ → Prop} (invariant : List Instr → σ → Prop)
    (steps : ∀ done instr state, invariant done state →
      Safe good (invariant (done ++ [instr])) returned (perform instr state))
    {done instrs : List Instr} {state : σ} (holds : invariant done state) :
    Safe good (invariant (done ++ instrs)) returned (performAll perform instrs state) := by
  induction instrs generalizing done state with
  | nil => exact .proceed (by simpa using holds)
  | cons instr rest ih =>
    apply Safe.andThen (steps done instr state holds)
    intro next kept
    apply (ih kept).weaken
    intro final ended
    simpa using ended

end EarlyReturn
