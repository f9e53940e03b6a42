import VideoAnalytics.Detector

/-! The records of a detection output: which ones the loop of InsertImage reads,
and that each image gets the boxes of its own records. -/
namespace VideoAnalytics

variable {Mat : Type}

def EndsRecords (output : Nat → Rat) (numBatch result : Nat) : Prop :=
  floatToInt (output result) < 0 ∨ output (result + 2) = 0 ∨ floatToInt (output result) > numBatch

instance (output : Nat → Rat) (numBatch result : Nat) :
    Decidable (EndsRecords output numBatch result) := by
  unfold EndsRecords
  infer_instance

/-- The positions of the records that give a box. -/
def records (output : Nat → Rat) (objectSize numBatch : Nat) : Nat → Nat → List Nat
  | 0, _ => []
  | remaining + 1, result =>
    if EndsRecords output numBatch result then []
    else result :: records output objectSize numBatch remaining (result + objectSize)

/-- The boxes among these records that are of image i. -/
def boxesOf (output : Nat → Rat) (positions : List Nat) (i : Nat) (imgsize : Size) :
    List Resultbox :=
  (positions.filter fun result => (floatToInt (output result)).toNat = i).map fun result =>
    resultboxOf output result imgsize

def withBoxes (output : Nat → Rat) (positions : List Nat) (objects : List (DetctorResult Mat)) :
    List (DetctorResult Mat) :=
  objects.mapIdx fun i object =>
    {object with boxs := object.boxs ++ boxesOf output positions i object.imgsize}

private theorem withBoxes_nil (output : Nat → Rat) (objects : List (DetctorResult Mat)) :
    withBoxes output [] objects = objects := by
  apply List.ext_getElem
  · simp [withBoxes]
  · intro i left right
    simp [withBoxes,boxesOf]

private theorem withBoxes_cons (output : Nat → Rat) (result : Nat) (positions : List Nat)
    (objects : List (DetctorResult Mat)) (within : (floatToInt (output result)).toNat < objects.length) :
    withBoxes output (result :: positions) objects =
      withBoxes output positions (objects.set (floatToInt (output result)).toNat
        {objects[(floatToInt (output result)).toNat] with
          boxs := objects[(floatToInt (output result)).toNat].boxs ++
            [resultboxOf output result objects[(floatToInt (output result)).toNat].imgsize]}) := by
  apply List.ext_getElem
  · simp [withBoxes]
  · intro i left right
    simp only [withBoxes,List.getElem_mapIdx,List.getElem_set]
    split
    · next here =>
      subst here
      simp [boxesOf]
    · next elsewhere => simp [boxesOf,elsewhere]

/-- The record loop gives each image the boxes of its records, or faults at a
record of no image. -/
theorem recordLoop_eq (output : Nat → Rat) (objectSize numBatch remaining result : Nat)
    (objects : List (DetctorResult Mat)) (retvalue : InsertImgStatus)
    (within : ∀ position ∈ records output objectSize numBatch remaining result,
      (floatToInt (output position)).toNat < objects.length) :
    recordLoop output objectSize numBatch remaining result objects retvalue =
      .ok (withBoxes output (records output objectSize numBatch remaining result) objects,
        if records output objectSize numBatch remaining result = [] then retvalue else .get) := by
  induction remaining generalizing result objects retvalue with
  | zero => simp [recordLoop,records,withBoxes_nil]
  | succ remaining ih =>
    by_cases ends : EndsRecords output numBatch result
    · have empty : records output objectSize numBatch (remaining + 1) result = [] := by
        simp [records,ends]
      unfold EndsRecords at ends
      simp [recordLoop,ends,empty,withBoxes_nil]
    · have more : records output objectSize numBatch (remaining + 1) result =
          result :: records output objectSize numBatch remaining (result + objectSize) := by
        simp [records,ends]
      rw [more] at within ⊢
      have here := within result List.mem_cons_self
      unfold EndsRecords at ends
      simp only [recordLoop,ends,if_false,List.getElem?_eq_getElem here,withBoxes_cons output result _ _ here]
      rw [ih]
      · simp
      · intro position member
        simpa using within position (.tail _ member)

theorem recordLoop_within (output : Nat → Rat) (objectSize numBatch remaining result : Nat)
    (objects : List (DetctorResult Mat)) (retvalue : InsertImgStatus)
    (final : List (DetctorResult Mat) × InsertImgStatus)
    (ok : recordLoop output objectSize numBatch remaining result objects retvalue = .ok final) :
    ∀ position ∈ records output objectSize numBatch remaining result,
      (floatToInt (output position)).toNat < objects.length := by
  induction remaining generalizing result objects retvalue with
  | zero => simp [records]
  | succ remaining ih =>
    by_cases ends : EndsRecords output numBatch result
    · simp [records,ends]
    · have more : records output objectSize numBatch (remaining + 1) result =
          result :: records output objectSize numBatch remaining (result + objectSize) := by
        simp [records,ends]
      unfold EndsRecords at ends
      simp only [recordLoop,ends,if_false] at ok
      split at ok
      · next object found =>
        obtain ⟨here,-⟩ := List.getElem?_eq_some_iff.mp found
        have later := ih _ _ _ ok
        intro position member
        rw [more] at member
        rcases List.mem_cons.mp member with rfl | member
        · exact here
        · simpa using later position member
      · contradiction

theorem records_position (output : Nat → Rat) (objectSize numBatch remaining result : Nat) :
    ∀ position ∈ records output objectSize numBatch remaining result,
      ∃ k, k < remaining ∧ position = result + k * objectSize ∧ 0 ≤ floatToInt (output position) := by
  induction remaining generalizing result with
  | zero => simp [records]
  | succ remaining ih =>
    intro position member
    unfold records at member
    split at member
    · contradiction
    · next goes_on =>
      rcases List.mem_cons.mp member with rfl | member
      · refine ⟨0,Nat.succ_pos _,by simp,?_⟩
        simp only [EndsRecords,not_or] at goes_on
        omega
      · obtain ⟨k,within,rfl,sign⟩ := ih _ position member
        refine ⟨k + 1,by omega,?_,sign⟩
        rw [Nat.succ_mul]
        omega

end VideoAnalytics
