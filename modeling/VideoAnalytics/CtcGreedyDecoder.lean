import VideoAnalytics.ExtLayer

/-! The CTCGreedyDecoder layer of the CPU extension: the most probable class of each
step, without repetitions and blanks. -/
namespace VideoAnalytics.CtcGreedyDecoder
open Loop Memory

variable {F : Type}

inductive Failure
  | layer (failure : ExtFailure)
  | unfinished
  deriving DecidableEq, Repr

structure Decoding (F : Type) where
  output : Cursor F
  prevClassIdx : Int

section Execute

variable [FloatType F]

/-- A read through the pointer to the data of a blob. -/
def read (blob : ExtBlob F) (index : Nat) : Except Failure F :=
  if index < blob.dims.prod then .ok (blob.data index) else .error (.layer (.outside index))

def maxClass (probabilities : ExtBlob F) (probs classes : Nat) : Except Failure (Nat × F) := do
  let first ← read probabilities probs
  tryLoop (classes - 1) (fun i best => do
    let prob ← read probabilities (probs + (i + 1))
    if prob > best.2 then .ok (i + 1,prob) else .ok best) (0,first)

def decodeStep (probabilities : ExtBlob F) (n t : Nat) (decoding : Decoding F) :
    Except Failure (Decoding F) := do
  let N := probabilities.dim 1
  let C := probabilities.dim 2
  let best ← maxClass probabilities (t * C * N + n * C) C
  let maxClassIdx := best.1
  let output :=
    if maxClassIdx < C - 1 ∧ (maxClassIdx : Int) ≠ decoding.prevClassIdx then
      decoding.output.push ((maxClassIdx : Int) : F)
    else decoding.output
  .ok ⟨output,maxClassIdx⟩

/-- The loop over the steps from t on, which has no bound of its own. -/
def decodeSteps (probabilities indicators : ExtBlob F) (n : Nat) :
    Nat → Nat → Decoding F → Except Failure (Decoding F)
  | 0, _, _ => .error .unfinished
  | fuel + 1, t, decoding => do
    let decoding ← decodeStep probabilities n t decoding
    if t + 1 = probabilities.dim 0 then .ok decoding
    else
      let indicator ← read indicators ((t + 1) * probabilities.dim 1 + n)
      if indicator == ((0 : Int) : F) then .ok decoding
      else decodeSteps probabilities indicators n fuel (t + 1) decoding

def decodeSequence (fuel : Nat) (probabilities indicators : ExtBlob F) (n : Nat)
    (outputSequences : Memory F) : Except Failure (Cursor F) := do
  let decoding ← decodeSteps probabilities indicators n fuel 0
    ⟨⟨outputSequences,n * probabilities.dim 0,[]⟩,-1⟩
  .ok decoding.output

def execute (fuel : Nat) (inputs outputs : List (ExtBlob F)) : Except Failure (Memory F) :=
  match inputs, outputs with
  | [probabilities,indicators], output :: _ =>
    let filled := forLoop (probabilities.dim 0 * probabilities.dim 1)
      (fun ii sequences => sequences.write ii ((-1 : Int) : F)) output.data
    tryLoop (probabilities.dim 1) (fun n sequences => do
      let cursor ← decodeSequence fuel probabilities indicators n sequences
      .ok cursor.memory) filled
  -- inputs[1] is read although there may be a single input
  | [_], _ :: _ => .error (.layer (.outside 1))
  | _, _ => .error (.layer incorrectEdges)

end Execute

section MaxClass

variable [FloatType F]

/-- The class with the greatest probability, the first of several. -/
structure IsArgMax (probs : Memory F) (classes best : Nat) : Prop where
  within : best < classes
  greatest : ∀ c, c < classes → ¬probs best < probs c
  first : ∀ c, c < best → probs c < probs best

def bestClass (probs : Memory F) (classes : Nat) : Nat :=
  forLoop (classes - 1) (fun i best => if probs (i + 1) > probs best then i + 1 else best) 0

theorem bestClass_lt (probs : Memory F) {classes : Nat} (nonempty : 1 ≤ classes) :
    bestClass probs classes < classes := by
  have within : bestClass probs classes ≤ classes - 1 := by
    apply forLoop_induct fun i best => best ≤ i
    · exact le_rfl
    · intro i best _ low
      split
      · exact le_rfl
      · exact Nat.le_succ_of_le low
  omega

theorem bestClass_argMax [FloatNumbers F] {probs : Memory F} {classes : Nat}
    (nonempty : 1 ≤ classes) (numbers : ∀ c, c < classes → (probs c == probs c) = true) :
    IsArgMax probs classes (bestClass probs classes) := by
  have irrefl := FloatOrder.irrefl (F := F)
  have all : IsArgMax probs (classes - 1 + 1) (bestClass probs classes) := by
    apply forLoop_induct fun i best => IsArgMax probs (i + 1) best
    · refine ⟨Nat.one_pos,?_,?_⟩
      · intro c low
        obtain rfl : c = 0 := by omega
        exact irrefl _
      · intro c low
        exact absurd low (Nat.not_lt_zero c)
    · intro i best low before
      obtain ⟨within,greatest,first⟩ := before
      split
      · next above =>
        have below (c : Nat) (earlier : c < i + 1) : probs c < probs (i + 1) := by
          have compared := FloatNumbers.numbers _ (probs c) _ (numbers best (by omega))
            (numbers c (by omega)) (numbers (i + 1) (by omega)) above
          exact compared.resolve_left (greatest c earlier)
        refine ⟨Nat.lt_succ_self _,?_,below⟩
        intro c low more
        rcases Nat.lt_or_ge c (i + 1) with earlier | last
        · exact irrefl _ (FloatOrder.trans _ _ _ more (below c earlier))
        · obtain rfl : c = i + 1 := by omega
          exact irrefl _ more
      · next kept =>
        refine ⟨by omega,?_,first⟩
        intro c low
        rcases Nat.lt_or_ge c (i + 1) with earlier | last
        · exact greatest c earlier
        · obtain rfl : c = i + 1 := by omega
          exact kept
  rwa [Nat.sub_add_cancel nonempty] at all

omit [FloatType F] in
theorem read_inside {blob : ExtBlob F} {index : Nat} (inside : index < blob.dims.prod) :
    read blob index = .ok (blob.data index) := if_pos inside

theorem maxClass_ok {probabilities : ExtBlob F} {probs classes : Nat} (nonempty : 1 ≤ classes)
    (inside : probs + classes ≤ probabilities.dims.prod) :
    ∃ prob, maxClass probabilities probs classes =
      .ok (bestClass (probabilities.data.offset probs) classes,prob) := by
  let values := probabilities.data.offset probs
  let passes (i : Nat) : Nat :=
    forLoop i (fun i best => if values (i + 1) > values best then i + 1 else best) 0
  obtain ⟨after,passed,best⟩ := @tryLoop_induct _ _ (classes - 1)
    (fun i best => do
      let prob ← read probabilities (probs + (i + 1))
      if prob > best.2 then .ok (i + 1,prob) else .ok best)
    (fun i best => best = (passes i,values (passes i))) (0,probabilities.data probs) rfl (by
      intro i best low before
      subst before
      rw [read_inside (by omega)]
      refine ⟨_,?_,rfl⟩
      change (if values (i + 1) > values (passes i) then _ else _) = Except.ok (
        (if values (i + 1) > values (passes i) then i + 1 else passes i),
        values (if values (i + 1) > values (passes i) then i + 1 else passes i))
      split
      · rfl
      · rfl)
  refine ⟨values (passes (classes - 1)),?_⟩
  unfold maxClass
  rw [read_inside (by omega)]
  exact passed.trans (congrArg _ best)

end MaxClass

end VideoAnalytics.CtcGreedyDecoder
