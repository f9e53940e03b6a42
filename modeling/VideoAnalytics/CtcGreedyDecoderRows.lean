import VideoAnalytics.CtcGreedyDecoder
import Mathlib.Data.List.Destutter
import Mathlib.Data.List.GetD
import Mathlib.Order.Nat

/-! Each row of the output of CTCGreedyDecoder: runs of equal classes collapsed and
blanks dropped. -/
namespace VideoAnalytics.CtcGreedyDecoder
open Loop Memory

variable {F : Type}

/-- The labels of a sequence of classes: one for each run, without the blank. -/
def labels (blank : Nat) (classes : List Nat) : List Nat :=
  (classes.destutter (· ≠ ·)).filter (· ≠ blank)

/-- What the loop over the steps emits behind a class. -/
def emitted (blank : Nat) : Int → List Nat → List Nat
  | _, [] => []
  | prev, maxClassIdx :: classes =>
    if maxClassIdx < blank ∧ (maxClassIdx : Int) ≠ prev then
      maxClassIdx :: emitted blank maxClassIdx classes
    else emitted blank maxClassIdx classes

private theorem emitted_cons {blank c : Nat} {prev : Int} (classes : List Nat) (low : c ≤ blank)
    (new : (c : Int) ≠ prev) :
    emitted blank prev (c :: classes) = [c].filter (· ≠ blank) ++ emitted blank c classes := by
  by_cases blanked : c = blank
  · have kept : ¬(c < blank ∧ (c : Int) ≠ prev) := by omega
    rw [emitted,if_neg kept]
    simp [blanked]
  · have pushed : c < blank ∧ (c : Int) ≠ prev := by omega
    rw [emitted,if_pos pushed]
    simp [blanked]

private theorem destutter'_emitted {blank : Nat} (classes : List Nat) (prev : Nat)
    (within : ∀ c ∈ classes, c ≤ blank) :
    (List.destutter' (· ≠ ·) prev classes).filter (· ≠ blank) =
      [prev].filter (· ≠ blank) ++ emitted blank prev classes := by
  induction classes generalizing prev with
  | nil => simp [emitted]
  | cons c classes ih =>
    have later := ih c fun other inside => within other (List.mem_cons_of_mem c inside)
    by_cases same : prev = c
    · subst same
      have repeated : emitted blank prev (prev :: classes) = emitted blank prev classes := by
        simp [emitted]
      rw [List.destutter'_cons_neg _ (not_not_intro rfl),later,repeated]
    · have new : (c : Int) ≠ prev := by omega
      rw [List.destutter'_cons_pos _ same,← List.singleton_append,List.filter_append,later,
        emitted_cons classes (within c List.mem_cons_self) new]

private theorem labels_emitted {blank : Nat} (classes : List Nat)
    (within : ∀ c ∈ classes, c ≤ blank) : labels blank classes = emitted blank (-1) classes := by
  cases classes with
  | nil => rfl
  | cons c classes =>
    have later := destutter'_emitted classes c fun other inside =>
      within other (List.mem_cons_of_mem c inside)
    unfold labels
    rw [List.destutter_cons',later,emitted_cons classes (within c List.mem_cons_self) (by omega)]

private theorem emitted_length (blank : Nat) (prev : Int) (classes : List Nat) :
    (emitted blank prev classes).length ≤ classes.length := by
  induction classes generalizing prev with
  | nil => exact le_rfl
  | cons c classes ih =>
    have later := ih c
    unfold emitted
    split
    · exact Nat.succ_le_succ later
    · exact Nat.le_succ_of_le later

section Sequence

variable [FloatType F] {probabilities indicators : ExtBlob F} {T N C : Nat}

def stepClass (probabilities : ExtBlob F) (n t : Nat) : Nat :=
  let N := probabilities.dim 1
  let C := probabilities.dim 2
  bestClass (probabilities.data.offset (t * C * N + n * C)) C

/-- The lengths at which a sequence may end. -/
def Ends (indicators : ExtBlob F) (T N n : Nat) : Set Nat :=
  {length | 0 < length ∧
    (length = T ∨ (indicators.data (length * N + n) == ((0 : Int) : F)) = true)}

private theorem step_inside {n t : Nat} (sequence : n < N) (step : t < T) :
    t * C * N + n * C + C ≤ T * (N * C) :=
  calc t * C * N + n * C + C = (t * N + n + 1) * C := by ring
    _ ≤ T * N * C := Nat.mul_le_mul_right C (cell_within step sequence)
    _ = T * (N * C) := Nat.mul_assoc ..

def stepped (probabilities : ExtBlob F) (n t : Nat) (decoding : Decoding F) : Decoding F :=
  let maxClassIdx := stepClass probabilities n t
  ⟨if maxClassIdx < probabilities.dim 2 - 1 ∧ (maxClassIdx : Int) ≠ decoding.prevClassIdx then
      decoding.output.push ((maxClassIdx : Int) : F)
    else decoding.output,maxClassIdx⟩

private theorem decodeStep_ok (dims : probabilities.dims = [T,N,C]) (nonempty : 1 ≤ C) {n t : Nat}
    (sequence : n < N) (step : t < T) (decoding : Decoding F) :
    decodeStep probabilities n t decoding = .ok (stepped probabilities n t decoding) := by
  have columns : probabilities.dim 1 = N := by simp [ExtBlob.dim,dims]
  have depth : probabilities.dim 2 = C := by simp [ExtBlob.dim,dims]
  have inside : t * C * N + n * C + C ≤ probabilities.dims.prod := by
    have low := step_inside (C := C) sequence step
    simpa [dims] using low
  obtain ⟨prob,found⟩ := maxClass_ok nonempty inside
  unfold decodeStep stepped stepClass
  rw [columns,depth]
  dsimp only
  rw [found]
  rfl

private theorem decodeSteps_succ (dims : probabilities.dims = [T,N,C]) (nonempty : 1 ≤ C)
    (rows : indicators.dims = [T,N]) {n t : Nat} (sequence : n < N) (step : t < T) (fuel : Nat)
    (decoding : Decoding F) :
    decodeSteps probabilities indicators n (fuel + 1) t decoding =
      if t + 1 = T ∨ (indicators.data ((t + 1) * N + n) == ((0 : Int) : F)) = true then
        .ok (stepped probabilities n t decoding)
      else decodeSteps probabilities indicators n fuel (t + 1)
        (stepped probabilities n t decoding) := by
  have columns : probabilities.dim 1 = N := by simp [ExtBlob.dim,dims]
  have steps : probabilities.dim 0 = T := by simp [ExtBlob.dim,dims]
  rw [decodeSteps,decodeStep_ok dims nonempty sequence step,columns,steps]
  change (if t + 1 = T then _ else _) = _
  by_cases final : t + 1 = T
  · rw [if_pos final,if_pos (.inl final)]
  · have inside : (t + 1) * N + n < indicators.dims.prod := by
      have low := cell_within (show t + 1 < T by omega) sequence
      simpa [rows] using low
    rw [if_neg final,read_inside inside]
    change (if _ then _ else _) = _
    simp only [final,false_or]

/-- The loop leaves a sequence at its end, and has then pushed what it emits. -/
theorem decodeSteps_ok (dims : probabilities.dims = [T,N,C]) (nonempty : 1 ≤ C)
    (rows : indicators.dims = [T,N]) {n length : Nat} (sequence : n < N)
    (ends : IsLeast (Ends indicators T N n) length) (within : length ≤ T) (fuel t : Nat)
    (inside : t < length) (enough : length ≤ fuel + t) (decoding : Decoding F) :
    ∃ last, decodeSteps probabilities indicators n fuel t decoding = .ok
      ⟨((emitted (C - 1) decoding.prevClassIdx
          ((List.range' t (length - t)).map (stepClass probabilities n))).map
            fun maxClassIdx : Nat => ((maxClassIdx : Int) : F)).foldl Cursor.push
              decoding.output,last⟩ := by
  have depth : probabilities.dim 2 = C := by simp [ExtBlob.dim,dims]
  induction fuel generalizing t decoding with
  | zero => omega
  | succ fuel ih =>
    have ending : t + 1 = T ∨ (indicators.data ((t + 1) * N + n) == ((0 : Int) : F)) = true ↔
        t + 1 = length := by
      constructor
      · intro left
        have least := ends.2 ⟨Nat.succ_pos t,left⟩
        omega
      · rintro rfl
        exact ends.1.2
    have pushed (classes : List Nat) :
        ((emitted (C - 1) decoding.prevClassIdx (stepClass probabilities n t :: classes)).map
          fun maxClassIdx : Nat => ((maxClassIdx : Int) : F)).foldl Cursor.push decoding.output =
        ((emitted (C - 1) (stepped probabilities n t decoding).prevClassIdx classes).map
          fun maxClassIdx : Nat => ((maxClassIdx : Int) : F)).foldl Cursor.push
            (stepped probabilities n t decoding).output := by
      unfold stepped
      rw [emitted,depth]
      dsimp only
      split
      · rfl
      · rfl
    rw [decodeSteps_succ dims nonempty rows sequence (by omega)]
    rw [show length - t = (length - (t + 1)) + 1 by omega,List.range'_succ,List.map_cons,pushed]
    by_cases last : t + 1 = length
    · rw [if_pos (ending.mpr last),last,Nat.sub_self]
      exact ⟨_,rfl⟩
    · rw [if_neg (mt ending.mp last)]
      exact ih (t + 1) (by omega) (by omega) (stepped probabilities n t decoding)

def rowValues (blank : Nat) (classes : List Nat) : List F :=
  (labels blank classes).map fun maxClassIdx : Nat => ((maxClassIdx : Int) : F)

private theorem stepClass_le (dims : probabilities.dims = [T,N,C]) (nonempty : 1 ≤ C) (n t : Nat) :
    stepClass probabilities n t ≤ C - 1 := by
  have depth : probabilities.dim 2 = C := by simp [ExtBlob.dim,dims]
  have low := bestClass_lt (probabilities.data.offset (t * C * probabilities.dim 1 + n * C)) nonempty
  unfold stepClass
  rw [depth]
  exact Nat.le_sub_one_of_lt low

private theorem rowValues_length (blank : Nat) {classes : List Nat}
    (within : ∀ c ∈ classes, c ≤ blank) :
    (rowValues blank classes : List F).length ≤ classes.length := by
  unfold rowValues
  rw [List.length_map,labels_emitted classes within]
  exact emitted_length blank (-1) classes

def sequenceRow (probabilities : ExtBlob F) (n length : Nat) : List F :=
  rowValues (probabilities.dim 2 - 1) ((List.range length).map (stepClass probabilities n))

private theorem stepClasses_le (dims : probabilities.dims = [T,N,C]) (nonempty : 1 ≤ C)
    (n length : Nat) : ∀ c ∈ (List.range length).map (stepClass probabilities n), c ≤ C - 1 := by
  intro c inside
  obtain ⟨t,-,rfl⟩ := List.mem_map.mp inside
  exact stepClass_le dims nonempty n t

private theorem sequenceRow_length (dims : probabilities.dims = [T,N,C]) (nonempty : 1 ≤ C)
    (n length : Nat) : (sequenceRow probabilities n length).length ≤ length := by
  have depth : probabilities.dim 2 = C := by simp [ExtBlob.dim,dims]
  have few := rowValues_length (F := F) (C - 1) (stepClasses_le dims nonempty n length)
  unfold sequenceRow
  rw [depth]
  simpa using few

/-- A sequence is decoded into its own row, over what the row holds. -/
theorem decodeSequence_ok (dims : probabilities.dims = [T,N,C]) (nonempty : 1 ≤ C)
    (rows : indicators.dims = [T,N]) {n length fuel : Nat} (sequence : n < N)
    (ends : IsLeast (Ends indicators T N n) length) (within : length ≤ T) (enough : T ≤ fuel)
    (before : Memory F) :
    ∃ cursor, decodeSequence fuel probabilities indicators n before = .ok cursor ∧
      (∀ address ∈ cursor.written, n * T ≤ address ∧ address < n * T + T) ∧
      ∀ m i, i < T → cursor.memory (m * T + i) =
        if m = n then (sequenceRow probabilities n length).getD i (before (m * T + i))
        else before (m * T + i) := by
  have height : probabilities.dim 0 = T := by simp [ExtBlob.dim,dims]
  have depth : probabilities.dim 2 = C := by simp [ExtBlob.dim,dims]
  have few := sequenceRow_length dims nonempty n length
  obtain ⟨last,decoded⟩ := decodeSteps_ok dims nonempty rows sequence ends within fuel 0 ends.1.1
    (by omega) ⟨⟨before,n * T,[]⟩,-1⟩
  rw [Nat.sub_zero,← List.range_eq_range',
    ← labels_emitted _ (stepClasses_le dims nonempty n length),← depth] at decoded
  obtain ⟨pushes,holds,only⟩ := foldl_push (sequenceRow probabilities n length) ⟨before,n * T,[]⟩
  refine ⟨(sequenceRow probabilities n length).foldl Cursor.push ⟨before,n * T,[]⟩,?_,?_,?_⟩
  · unfold decodeSequence
    rw [height,decoded]
    rfl
  · intro address inside
    rw [pushes.recorded,List.nil_append,List.mem_range'_1] at inside
    dsimp only at inside
    omega
  · intro m i inside
    split
    · next own =>
      subst own
      rcases Nat.lt_or_ge i (sequenceRow probabilities m length).length with low | high
      · rw [List.getD_eq_getElem _ _ low]
        exact holds i low
      · rw [List.getD_eq_default _ _ high]
        exact only _ (.inr (Nat.add_le_add_left high _))
    · next other =>
      have apart := cell_apart T other
      exact only _ (by dsimp only; omega)

/-- Row by row the labels of the most probable classes, with -1 behind them. Each step
up to the end of a sequence takes the greatest of its probabilities, if they are numbers. -/
def DecodesGreedily (fuel T N C : Nat) (probabilities indicators output : ExtBlob F) : Prop :=
  ∃ sequences, execute fuel [probabilities,indicators] [output] = .ok sequences ∧
    ∀ n, n < N → ∃ length classes, IsLeast (Ends indicators T N n) length ∧
      (∀ t, t < length →
        let probs := probabilities.data.offset ((t * N + n) * C)
        (∀ c, c < C → (probs c == probs c) = true) → IsArgMax probs C (classes t)) ∧
      (∀ i, i < T → sequences (n * T + i) =
        (rowValues (C - 1) ((List.range length).map classes)).getD i ((-1 : Int) : F)) ∧
      ∀ before, ∃ cursor, decodeSequence fuel probabilities indicators n before = .ok cursor ∧
        ∀ address ∈ cursor.written, n * T ≤ address ∧ address < n * T + T

private theorem ends_exists (indicators : ExtBlob F) (n : Nat) (positive : 1 ≤ T) :
    ∃ length, IsLeast (Ends indicators T N n) length ∧ length ≤ T := by
  have final : T ∈ Ends indicators T N n := ⟨positive,.inl rfl⟩
  classical
  have least := Set.Nonempty.isLeast_natFind ⟨T,final⟩
  exact ⟨_,least,least.2 final⟩

omit [FloatType F] in
private theorem fill_rows (count : Nat) (value : F) (before : Memory F) (address : Nat) :
    forLoop count (fun ii (sequences : Memory F) => sequences.write ii value) before address =
      if address < count then value else before address := by
  have filled := forLoop_write 0 count (fun _ => value) before address
  simpa using filled

private theorem stepClass_argMax [FloatNumbers F] (nonempty : 1 ≤ C)
    (dims : probabilities.dims = [T,N,C]) (n t : Nat)
    (numbers : ∀ c, c < C → (probabilities.data.offset ((t * N + n) * C) c ==
      probabilities.data.offset ((t * N + n) * C) c) = true) :
    IsArgMax (probabilities.data.offset ((t * N + n) * C)) C (stepClass probabilities n t) := by
  have columns : probabilities.dim 1 = N := by simp [ExtBlob.dim,dims]
  have depth : probabilities.dim 2 = C := by simp [ExtBlob.dim,dims]
  have place : t * C * N + n * C = (t * N + n) * C := by ring
  have best := bestClass_argMax nonempty numbers
  unfold stepClass
  rw [columns,depth]
  dsimp only
  rwa [place]

/-- The loop over the sequences fills the row of each one over the -1 of the first loop. -/
theorem execute_rows (fuel : Nat) (output : ExtBlob F) (nonempty : 1 ≤ C)
    (dims : probabilities.dims = [T,N,C]) (rows : indicators.dims = [T,N]) (enough : T ≤ fuel)
    {length : Nat → Nat} (ends : ∀ n, IsLeast (Ends indicators T N n) (length n))
    (within : ∀ n, length n ≤ T) :
    ∃ sequences, execute fuel [probabilities,indicators] [output] = .ok sequences ∧
      ∀ n i, n < N → i < T → sequences (n * T + i) =
        (sequenceRow probabilities n (length n)).getD i ((-1 : Int) : F) := by
  have height : probabilities.dim 0 = T := by simp [ExtBlob.dim,dims]
  have columns : probabilities.dim 1 = N := by simp [ExtBlob.dim,dims]
  obtain ⟨sequences,executed,values⟩ := @tryLoop_induct _ _ N
    (fun n sequences => do
      let cursor ← decodeSequence fuel probabilities indicators n sequences
      .ok cursor.memory)
    (fun done (sequences : Memory F) => ∀ n i, n < N → i < T → sequences (n * T + i) =
      if n < done then (sequenceRow probabilities n (length n)).getD i ((-1 : Int) : F)
      else ((-1 : Int) : F))
    (forLoop (T * N) (fun ii sequences => sequences.write ii ((-1 : Int) : F)) output.data)
    (by
      intro n i low inside
      have cell := cell_within low inside
      rw [fill_rows,if_pos (by rwa [Nat.mul_comm T]),if_neg (Nat.not_lt_zero n)])
    (by
      intro done sequences low before
      obtain ⟨cursor,passed,-,cells⟩ := decodeSequence_ok dims nonempty rows low (ends done)
        (within done) enough sequences
      refine ⟨cursor.memory,?_,?_⟩
      · rw [passed]
        rfl
      · intro n i sequence inside
        rw [cells n i inside,before n i sequence inside]
        by_cases own : n = done
        · rw [if_pos own,own,if_neg (Nat.lt_irrefl done),if_pos (Nat.lt_succ_self done)]
        · rw [if_neg own]
          exact if_congr (by omega) rfl rfl)
  refine ⟨sequences,?_,?_⟩
  · unfold execute
    dsimp only
    rw [height,columns]
    exact executed
  · intro n i sequence inside
    rw [values n i sequence inside,if_pos sequence]

theorem decodes_greedily [FloatNumbers F] (fuel : Nat) (output : ExtBlob F) (steps : 1 ≤ T)
    (nonempty : 1 ≤ C) (dims : probabilities.dims = [T,N,C]) (rows : indicators.dims = [T,N])
    (enough : T ≤ fuel) : DecodesGreedily fuel T N C probabilities indicators output := by
  have depth : probabilities.dim 2 = C := by simp [ExtBlob.dim,dims]
  choose length ends within using fun n => ends_exists (N := N) indicators n steps
  obtain ⟨sequences,executed,values⟩ := execute_rows fuel output nonempty dims rows enough ends within
  refine ⟨sequences,executed,?_⟩
  intro n sequence
  refine ⟨length n,stepClass probabilities n,ends n,?_,?_,?_⟩
  · intro t before
    exact stepClass_argMax nonempty dims n t
  · intro i inside
    rw [values n i sequence inside]
    unfold sequenceRow
    rw [depth]
  · intro before
    obtain ⟨cursor,passed,addresses,-⟩ := decodeSequence_ok dims nonempty rows sequence (ends n)
      (within n) enough before
    exact ⟨cursor,passed,addresses⟩

end Sequence

/-- Four steps of one sequence with the classes 0, 0, 1 and 0; the last is not part of it. -/
def fourSteps : ExtBlob Rat :=
  ⟨[4,1,3],fun i => [7,2,1,5,4,1,0,9,9,3,3,3].getD i 0⟩

def threeIndicators : ExtBlob Rat := ⟨[4,1],fun i => [0,1,1,0].getD i 0⟩

theorem decodes_greedily_four :
    DecodesGreedily 4 4 1 3 fourSteps threeIndicators ⟨[1,4,1,1],fun _ => 7⟩ :=
  decodes_greedily 4 _ (by decide) (by decide) rfl rfl le_rfl

end VideoAnalytics.CtcGreedyDecoder
