import Mathlib.Algebra.BigOperators.Group.List.Basic
import Mathlib.Algebra.GroupWithZero.Nat
import Mathlib.Logic.Function.Basic
import Mathlib.Tactic.Ring

/-! Counting loops over a state, with and without failure, and the rule that
carries an invariant from the first pass to the end. -/
namespace Loop

variable {σ α ε : Type}

/-- The passes 0, 1, … in order, each on the state that the last one left. -/
def forLoop : Nat → (Nat → σ → σ) → σ → σ
  | 0, _, initial => initial
  | count + 1, body, initial => body count (forLoop count body initial)

def tryLoop : Nat → (Nat → σ → Except ε σ) → σ → Except ε σ
  | 0, _, initial => .ok initial
  | count + 1, body, initial => do
    let state ← tryLoop count body initial
    body count state

/-- A loop that goes on in steps from a position as long as the position allows it, with so
much fuel. -/
def stepLoop (unfinished : ε) (goesOn : Nat → Bool) (step : Nat) (body : Nat → σ → Except ε σ) :
    Nat → Nat → σ → Except ε (Nat × σ)
  | 0, _, _ => .error unfinished
  | fuel + 1, position, state =>
    if goesOn position then do
      let state ← body position state
      stepLoop unfinished goesOn step body fuel (position + step) state
    else .ok (position,state)

/-- The first index from one on that stops the search, within so many passes. -/
def scan (stops : Nat → Bool) : Nat → Nat → Nat
  | 0, i => i
  | remaining + 1, i => if stops i then i else scan stops remaining (i + 1)

theorem scan_le (stops : Nat → Bool) (remaining start : Nat) :
    scan stops remaining start ≤ start + remaining := by
  induction remaining generalizing start with
  | zero => exact Nat.le_refl _
  | succ remaining ih =>
    unfold scan
    split
    · omega
    · have later := ih (start + 1)
      omega

theorem scan_eq {stops : Nat → Bool} {remaining start finish : Nat}
    (passes : ∀ i, start ≤ i → i < finish → stops i = false)
    (within : start ≤ finish) (reached : finish ≤ start + remaining)
    (stopped : finish = start + remaining ∨ stops finish) : scan stops remaining start = finish := by
  induction remaining generalizing start with
  | zero =>
    unfold scan
    omega
  | succ remaining ih =>
    unfold scan
    by_cases here : start = finish
    · subst here
      rcases stopped with last | last
      · omega
      · rw [if_pos last]
    · rw [passes start (Nat.le_refl _) (by omega),if_neg Bool.false_ne_true]
      apply ih
      · intro i low high
        exact passes i (by omega) high
      · omega
      · omega
      · exact stopped.imp_left (by omega)

theorem forLoop_induct {count : Nat} {body : Nat → σ → σ} (holds : Nat → σ → Prop) (initial : σ)
    (starts : holds 0 initial)
    (steps : ∀ i state, i < count → holds i state → holds (i + 1) (body i state)) :
    holds count (forLoop count body initial) := by
  induction count with
  | zero => exact starts
  | succ count ih =>
    apply steps count _ (Nat.lt_succ_self count)
    apply ih
    intro i state within before
    exact steps i state (by omega) before

theorem tryLoop_induct {count : Nat} {body : Nat → σ → Except ε σ} (holds : Nat → σ → Prop)
    (initial : σ) (starts : holds 0 initial)
    (steps : ∀ i state, i < count → holds i state →
      ∃ after, body i state = .ok after ∧ holds (i + 1) after) :
    ∃ after, tryLoop count body initial = .ok after ∧ holds count after := by
  induction count with
  | zero => exact ⟨initial,rfl,starts⟩
  | succ count ih =>
    obtain ⟨state,passed,before⟩ := ih fun i state within => steps i state (by omega)
    obtain ⟨after,last,final⟩ := steps count state (Nat.lt_succ_self count) before
    refine ⟨after,?_,final⟩
    unfold tryLoop
    rw [passed]
    exact last

theorem forLoop_congr (count : Nat) (body other : Nat → σ → σ) (initial : σ)
    (same : ∀ i state, i < count → body i state = other i state) :
    forLoop count body initial = forLoop count other initial := by
  induction count with
  | zero => rfl
  | succ count ih =>
    unfold forLoop
    rw [ih fun i state within => same i state (by omega)]
    exact same count _ (Nat.lt_succ_self count)

/-- A loop whose passes all succeed. -/
theorem tryLoop_forLoop (count : Nat) {body : Nat → σ → Except ε σ} {other : Nat → σ → σ}
    (initial : σ) (same : ∀ i state, i < count → body i state = .ok (other i state)) :
    tryLoop count body initial = .ok (forLoop count other initial) := by
  induction count with
  | zero => rfl
  | succ count ih =>
    unfold tryLoop
    rw [ih fun i state within => same i state (by omega)]
    exact same count _ (Nat.lt_succ_self count)

private theorem tryLoop_front (count : Nat) (body : Nat → σ → Except ε σ) (initial : σ) :
    tryLoop (count + 1) body initial =
      body 0 initial >>= tryLoop count fun i => body (i + 1) := by
  induction count with
  | zero =>
    show body 0 initial = body 0 initial >>= Except.ok
    cases body 0 initial with
    | error failure => rfl
    | ok state => rfl
  | succ count ih =>
    have unfolded : tryLoop (count + 1 + 1) body initial =
        tryLoop (count + 1) body initial >>= body (count + 1) := rfl
    rw [unfolded,ih]
    cases body 0 initial with
    | error failure => rfl
    | ok state => rfl

theorem bind_passed {τ : Type} {first : Except ε σ} {next : σ → Except ε τ} {after : τ}
    (passed : first >>= next = .ok after) : ∃ state, first = .ok state ∧ next state = .ok after := by
  cases first with
  | error failure => cases passed
  | ok state => exact ⟨state,rfl,passed⟩

/-- A loop that succeeds has succeeded in each pass. -/
theorem tryLoop_passed {count : Nat} {body : Nat → σ → Except ε σ} {initial after : σ}
    (passed : tryLoop count body initial = .ok after) {i : Nat} (low : i < count) :
    ∃ state next, body i state = .ok next := by
  induction count generalizing after with
  | zero => omega
  | succ count ih =>
    obtain ⟨state,earlier,last⟩ := bind_passed passed
    by_cases here : i = count
    · subst here
      exact ⟨state,after,last⟩
    · exact ih earlier (by omega)

private theorem tryLoop_congr (count : Nat) (body other : Nat → σ → Except ε σ) (initial : σ)
    (same : ∀ i state, i < count → body i state = other i state) :
    tryLoop count body initial = tryLoop count other initial := by
  induction count with
  | zero => rfl
  | succ count ih =>
    unfold tryLoop
    rw [ih fun i state within => same i state (by omega)]
    cases tryLoop count other initial with
    | error failure => rfl
    | ok state => exact same count state (Nat.lt_succ_self count)

/-- A loop each of whose passes succeeds for some choice. -/
theorem tryLoop_choose {τ : Type} (count : Nat) {body : τ → Nat → σ → Except ε σ} (initial : σ)
    (succeeds : ∀ i state, ∃ choice after, body choice i state = .ok after) :
    ∃ (choices : Nat → τ) (after : σ), tryLoop count (fun i => body (choices i) i) initial =
      .ok after := by
  induction count with
  | zero =>
    obtain ⟨choice,-⟩ := succeeds 0 initial
    exact ⟨fun _ => choice,initial,rfl⟩
  | succ count ih =>
    obtain ⟨choices,state,earlier⟩ := ih
    obtain ⟨choice,after,last⟩ := succeeds count state
    refine ⟨Function.update choices count choice,after,?_⟩
    have kept := tryLoop_congr count (fun i => body (Function.update choices count choice i) i)
      (fun i => body (choices i) i) initial fun i state low => by
        simp [Function.update_of_ne (Nat.ne_of_lt low)]
    unfold tryLoop
    rw [kept,earlier]
    show body (Function.update choices count choice count) count state = _
    rw [Function.update_self,last]

/-- What the passes that succeed keep holds after a loop that succeeds. -/
theorem tryLoop_rule {count : Nat} {body : Nat → σ → Except ε σ} (holds : Nat → σ → Prop)
    {initial after : σ} (passed : tryLoop count body initial = .ok after)
    (starts : holds 0 initial)
    (steps : ∀ i state next, i < count → holds i state → body i state = .ok next →
      holds (i + 1) next) : holds count after := by
  induction count generalizing after with
  | zero => exact Except.ok.inj passed ▸ starts
  | succ count ih =>
    obtain ⟨state,earlier,last⟩ := bind_passed passed
    have before := ih earlier fun i state next low => steps i state next (by omega)
    exact steps count state after (Nat.lt_succ_self count) before last

/-- What a loop that succeeds returns, from what its passes return. -/
theorem tryLoop_value {count : Nat} {body : Nat → σ → Except ε σ} {other : Nat → σ → σ}
    {initial after : σ} (passed : tryLoop count body initial = .ok after)
    (same : ∀ i state next, i < count → body i state = .ok next → next = other i state) :
    after = forLoop count other initial := by
  induction count generalizing after with
  | zero => exact (Except.ok.inj passed).symm
  | succ count ih =>
    obtain ⟨state,earlier,last⟩ := bind_passed passed
    have before := ih earlier fun i state next low => same i state next (by omega)
    unfold forLoop
    rw [← before]
    exact same count state after (Nat.lt_succ_self count) last

section StepLoop

variable {unfinished : ε} {goesOn : Nat → Bool} {step : Nat} {body : Nat → σ → Except ε σ}

/-- With enough fuel a loop in steps makes so many passes. -/
theorem stepLoop_eq {passes fuel start : Nat} (enough : passes < fuel)
    (goes : ∀ pass, pass < passes → goesOn (start + pass * step))
    (ends : goesOn (start + passes * step) = false) (state : σ) :
    stepLoop unfinished goesOn step body fuel start state =
      (tryLoop passes (fun pass => body (start + pass * step)) state).map fun after =>
        (start + passes * step,after) := by
  induction passes generalizing fuel start state with
  | zero =>
    obtain ⟨fuel,rfl⟩ := Nat.exists_eq_succ_of_ne_zero enough.ne'
    rw [Nat.zero_mul,Nat.add_zero] at ends ⊢
    unfold stepLoop
    rw [ends]
    rfl
  | succ passes ih =>
    obtain ⟨fuel,rfl⟩ := Nat.exists_eq_succ_of_ne_zero (Nat.ne_zero_of_lt enough)
    have first := goes 0 (Nat.succ_pos passes)
    rw [Nat.zero_mul,Nat.add_zero] at first
    have shift : ∀ pass, start + (pass + 1) * step = start + step + pass * step := by
      intro pass
      ring
    have rest : ∀ state, stepLoop unfinished goesOn step body fuel (start + step) state =
        (tryLoop passes (fun pass => body (start + step + pass * step)) state).map fun after =>
          (start + step + passes * step,after) := by
      intro state
      apply ih (by omega)
      · intro pass low
        rw [← shift]
        exact goes (pass + 1) (by omega)
      · rwa [← shift]
    unfold stepLoop
    rw [if_pos first,tryLoop_front,shift,Nat.zero_mul,Nat.add_zero]
    simp only [rest,shift]
    cases body start state with
    | error failure => rfl
    | ok state => rfl

/-- A loop that always goes on never returns. -/
theorem stepLoop_endless (endless : ∀ position, goesOn position) (fuel position : Nat) (state : σ)
    (result : Nat × σ) :
    stepLoop unfinished goesOn step body fuel position state ≠ .ok result := by
  induction fuel generalizing position state with
  | zero => exact nofun
  | succ fuel ih =>
    unfold stepLoop
    rw [if_pos (endless position)]
    cases body position state with
    | error failure => exact nofun
    | ok state => exact ih (position + step) state

end StepLoop

theorem forLoop_map {τ : Type} (f : σ → τ) (count : Nat) (body : Nat → σ → σ)
    (other : Nat → τ → τ) (initial : σ) (same : ∀ i state, f (body i state) = other i (f state)) :
    f (forLoop count body initial) = forLoop count other (f initial) := by
  induction count with
  | zero => rfl
  | succ count ih =>
    unfold forLoop
    rw [same,ih]

theorem forLoop_add (count more : Nat) (body : Nat → σ → σ) (initial : σ) :
    forLoop (count + more) body initial =
      forLoop more (fun i => body (count + i)) (forLoop count body initial) := by
  induction more with
  | zero => rfl
  | succ more ih =>
    rw [← Nat.add_assoc]
    unfold forLoop
    rw [ih]

theorem cell_row {cols j : Nat} (i : Nat) (inside : j < cols) : (i * cols + j) / cols = i := by
  rw [Nat.add_comm,Nat.add_mul_div_right _ _ (by omega),Nat.div_eq_of_lt inside,Nat.zero_add]

theorem cell_col {cols j : Nat} (i : Nat) (inside : j < cols) : (i * cols + j) % cols = j := by
  rw [Nat.add_comm,Nat.add_mul_mod_self_right,Nat.mod_eq_of_lt inside]

theorem cell_inj {cols j l : Nat} (i k : Nat) (inside : j < cols) (within : l < cols) :
    i * cols + j = k * cols + l ↔ i = k ∧ j = l := by
  constructor
  · intro same
    have row := cell_row i inside
    have col := cell_col i inside
    rw [same,cell_row k within] at row
    rw [same,cell_col k within] at col
    exact ⟨row.symm,col.symm⟩
  · rintro ⟨rfl,rfl⟩
    rfl

/-- A loop of rows is one loop over their cells. -/
theorem forLoop_nested (rows cols : Nat) (body : Nat → Nat → σ → σ) (initial : σ) :
    forLoop rows (fun i => forLoop cols (body i)) initial =
      forLoop (rows * cols) (fun n => body (n / cols) (n % cols)) initial := by
  induction rows with
  | zero => simp [forLoop]
  | succ rows ih =>
    rw [Nat.succ_mul,forLoop_add (rows * cols),← ih]
    apply forLoop_congr cols (body rows)
    intro j state within
    rw [cell_row rows within,cell_col rows within]

theorem forLoop_planes (planes rows cols : Nat) (body : Nat → Nat → Nat → σ → σ) (initial : σ) :
    forLoop planes (fun i => forLoop rows fun j => forLoop cols (body i j)) initial =
      forLoop (planes * (rows * cols)) (fun n => body (n / (rows * cols)) (n % (rows * cols) / cols)
        (n % (rows * cols) % cols)) initial := by
  rw [← forLoop_nested planes (rows * cols) fun i n => body i (n / cols) (n % cols)]
  apply forLoop_congr
  intro i state _
  exact forLoop_nested rows cols (body i) state

theorem forLoop_blocks (blocks planes rows cols : Nat) (body : Nat → Nat → Nat → Nat → σ → σ)
    (initial : σ) :
    forLoop blocks (fun b => forLoop planes fun c => forLoop rows fun i => forLoop cols (body b c i))
        initial =
      forLoop (blocks * (planes * (rows * cols))) (fun n => body (n / (planes * (rows * cols)))
        (n % (planes * (rows * cols)) / (rows * cols))
        (n % (planes * (rows * cols)) % (rows * cols) / cols)
        (n % (planes * (rows * cols)) % (rows * cols) % cols)) initial := by
  rw [← forLoop_planes blocks planes (rows * cols) fun b c n => body b c (n / cols) (n % cols)]
  apply forLoop_congr
  intro b state _
  apply forLoop_congr
  intro c state _
  exact forLoop_nested rows cols (body b c) state

/-- A loop that appends what each pass yields. -/
theorem forLoop_append (count : Nat) (pieces : Nat → List α) (before : List α) :
    forLoop count (fun i done => done ++ pieces i) before =
      before ++ (List.range count).flatMap pieces := by
  induction count with
  | zero => simp [forLoop]
  | succ count ih =>
    unfold forLoop
    simp only [ih,List.range_succ,List.flatMap_append,List.append_assoc]
    simp

theorem tryLoop_appends {count : Nat} {body : Nat → List α → Except ε (List α)}
    {pieces : Nat → List α} (appends : ∀ i, i < count → ∀ done, body i done = .ok (done ++ pieces i))
    (before : List α) :
    tryLoop count body before = .ok (before ++ (List.range count).flatMap pieces) := by
  rw [← forLoop_append]
  exact tryLoop_forLoop count before fun i done low => appends i low done

theorem stepLoop_appends {unfinished : ε} {goesOn : Nat → Bool} {step passes fuel start : Nat}
    {body : Nat → List α → Except ε (List α)} {pieces : Nat → List α} (enough : passes < fuel)
    (goes : ∀ pass, pass < passes → goesOn (start + pass * step))
    (ends : goesOn (start + passes * step) = false)
    (appends : ∀ pass, pass < passes → ∀ done,
      body (start + pass * step) done = .ok (done ++ pieces pass)) (before : List α) :
    stepLoop unfinished goesOn step body fuel start before =
      .ok (start + passes * step,before ++ (List.range passes).flatMap pieces) := by
  rw [stepLoop_eq enough goes ends,tryLoop_appends appends]
  rfl

theorem forLoop_records (base count : Nat) (before : List Nat) :
    forLoop count (fun i log => log ++ [base + i]) before = before ++ List.range' base count := by
  rw [forLoop_append count (fun i => [base + i]),List.range'_eq_map_range,List.map_eq_flatMap]

/-- So many further addresses have been used, one behind the other. -/
structure Grows (next : σ → Nat) (log : σ → List Nat) (before after : σ) (count : Nat) : Prop where
  forward : next after = next before + count
  recorded : log after = log before ++ List.range' (next before) count

section Grows

variable {next : σ → Nat} {log : σ → List Nat}

theorem Grows.refl (state : σ) : Grows next log state state 0 := ⟨rfl,by simp⟩

theorem Grows.trans {first second third : σ} {n m : Nat} (grows : Grows next log first second n)
    (more : Grows next log second third m) : Grows next log first third (n + m) where
  forward := by rw [more.forward,grows.forward,Nat.add_assoc]
  recorded := by
    rw [more.recorded,grows.recorded,grows.forward,List.append_assoc,List.range'_append_1]

theorem forLoop_grows (count : Nat) {body : Nat → σ → σ} (counts : Nat → Nat)
    (steps : ∀ i state, Grows next log state (body i state) (counts i)) (state : σ) :
    Grows next log state (forLoop count body state) ((List.range count).map counts).sum := by
  induction count with
  | zero => exact Grows.refl state
  | succ count ih =>
    have last := steps count (forLoop count body state)
    rw [List.range_succ,List.map_append,List.sum_append,List.map_singleton,List.sum_singleton]
    exact ih.trans last

theorem forLoop_grows_evenly (count : Nat) {each : Nat} {body : Nat → σ → σ}
    (steps : ∀ i state, Grows next log state (body i state) each) (state : σ) :
    Grows next log state (forLoop count body state) (count * each) := by
  have grows : Grows next log state (forLoop count body state) _ :=
    forLoop_grows count (fun _ => each) steps state
  rwa [List.map_const',List.sum_replicate_nat,List.length_range] at grows

end Grows

theorem forLoop_sum (count : Nat) (summand : Nat → Nat) :
    forLoop count (fun i total => total + summand i) 0 = ((List.range count).map summand).sum := by
  induction count with
  | zero => rfl
  | succ count ih =>
    unfold forLoop
    simp only [ih,List.range_succ,List.map_append,List.sum_append]
    simp

/-- A loop whose passes each handle a list handles all of them in order. -/
theorem tryLoop_flatMap (count : Nat) (body : Nat → σ → Except ε σ) (pieces : Nat → List α)
    (handle : σ → α → Except ε σ) (initial : σ)
    (same : ∀ i state, i < count → body i state = (pieces i).foldlM handle state) :
    tryLoop count body initial = ((List.range count).flatMap pieces).foldlM handle initial := by
  induction count with
  | zero => rfl
  | succ count ih =>
    rw [List.range_succ,List.flatMap_append,List.foldlM_append]
    unfold tryLoop
    rw [ih fun i state within => same i state (by omega)]
    congr 1
    ext1 state
    rw [same count state (Nat.lt_succ_self count)]
    simp

theorem tryLoop_list (values : List α) (body : Nat → σ → Except ε σ)
    (handle : σ → α → Except ε σ) (initial : σ)
    (same : ∀ i state (within : i < values.length), body i state = handle state values[i]) :
    tryLoop values.length body initial = values.foldlM handle initial := by
  have prefixes : ∀ count, count ≤ values.length →
      tryLoop count body initial = (values.take count).foldlM handle initial := by
    intro count
    induction count with
    | zero => intro _; rfl
    | succ count ih =>
      intro within
      rw [List.take_succ_eq_append_getElem within,List.foldlM_append]
      unfold tryLoop
      rw [ih (by omega)]
      congr 1
      ext1 state
      rw [same count state within]
      simp
  simpa using prefixes values.length (Nat.le_refl _)

end Loop
