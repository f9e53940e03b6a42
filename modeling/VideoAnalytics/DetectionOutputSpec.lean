import VideoAnalytics.DetectionOutputNms

/-! The detections of one image, from the inputs of that image alone: the
survivors of each class, and the best keep_top_k of them by class. -/
namespace VideoAnalytics.DetectionOutput
open Loop Sorting Memory

variable {F : Type} [FloatType F]

structure Image (F : Type) where
  loc : Memory F
  conf : Memory F

/-- The class whose locations are taken: one for all when they are shared. -/
def Impl.locClass {F : Type} (impl : Impl F) (c : Nat) : Nat :=
  if impl.shareLocation then 0 else c

def imageAt {F : Type} (impl : Impl F) (locData confData : Memory F) (n : Nat) : Image F where
  loc := locData.offset (n * 4 * impl.numLocClasses * impl.numPriors)
  conf := confData.offset (n * impl.numPriors * impl.numClasses)

def Image.confidence {F : Type} (impl : Impl F) (image : Image F) (c p : Nat) : F :=
  image.conf (p * impl.numClasses + c)

def Image.box (impl : Impl F) (exp : F → F) (priorData : Memory F) (image : Image F) (c p : Nat) :
    Bbox F :=
  decodeBBox impl exp priorData (image.loc.offset (impl.locClass c * 4))
    (priorData.offset (impl.numPriors * impl.priorSize)) p

def Bbox.coordinate {F : Type} (box : Bbox F) : Nat → F
  | 0 => box.xmin
  | 1 => box.ymin
  | 2 => box.xmax
  | _ => box.ymax

def flatBoxes {F : Type} (boxes : Nat → Bbox F) : Memory F := fun address =>
  (boxes (address / 4)).coordinate (address % 4)

def classSurvivors (impl : Impl F) (exp : F → F) (priorData : Memory F) (image : Image F) (c : Nat) :
    List Nat :=
  if (c : Int) = impl.backgroundLabelId then []
  else survivors impl (image.confidence impl c) (flatBoxes (image.box impl exp priorData c))
    (fun p => (image.box impl exp priorData c p).size) (numPriorsActual impl priorData)

/-- Lists of priors for each class as pairs of a class and a prior, by class. -/
def byClass (numClasses : Nat) (lists : Nat → List Nat) : List (Nat × Nat) :=
  (List.range numClasses).flatMap fun c => (lists c).map fun p => (c,p)

def allSurvivors (impl : Impl F) (exp : F → F) (priorData : Memory F) (image : Image F) :
    List (Nat × Nat) :=
  byClass impl.numClasses (classSurvivors impl exp priorData image)

def scored {F : Type} (impl : Impl F) (image : Image F) (detection : Nat × Nat) : F × Nat × Nat :=
  (image.confidence impl detection.1 detection.2,detection)

/-- The survivors that the cut keeps, best first. -/
def best (impl : Impl F) (exp : F → F) (sort : StdSort (SortScorePairDescend (F := F)))
    (priorData : Memory F) (image : Image F) : List (F × Nat × Nat) :=
  (sort.sort ((allSurvivors impl exp priorData image).map (scored impl image))).take
    impl.keepTopK.toNat

def ofClass {F : Type} (entries : List (F × Nat × Nat)) (c : Nat) : List Nat :=
  (entries.filter fun entry => entry.2.1 = c).map fun entry => entry.2.2

def Overflows (impl : Impl F) (exp : F → F) (priorData : Memory F) (image : Image F) : Prop :=
  impl.keepTopK > -1 ∧ (allSurvivors impl exp priorData image).length > impl.keepTopK

instance (impl : Impl F) (exp : F → F) (priorData : Memory F) (image : Image F) :
    Decidable (Overflows impl exp priorData image) := by
  unfold Overflows
  infer_instance

def classDetections (impl : Impl F) (exp : F → F) (sort : StdSort (SortScorePairDescend (F := F)))
    (priorData : Memory F) (image : Image F) (c : Nat) : List Nat :=
  if Overflows impl exp priorData image then ofClass (best impl exp sort priorData image) c
  else classSurvivors impl exp priorData image c

def detections (impl : Impl F) (exp : F → F) (sort : StdSort (SortScorePairDescend (F := F)))
    (priorData : Memory F) (image : Image F) : List (Nat × Nat) :=
  byClass impl.numClasses (classDetections impl exp sort priorData image)

def row (impl : Impl F) (exp : F → F) (priorData : Memory F) (image : Image F) (n : Nat)
    (detection : Nat × Nat) : List F :=
  let box := image.box impl exp priorData detection.1 detection.2
  [((n : Int) : F),((detection.1 : Int) : F),image.confidence impl detection.1 detection.2,
    box.xmin,box.ymin,box.xmax,box.ymax]

omit [FloatType F] in
theorem locClass_lt (impl : Impl F) (c : Nat) (within : c < impl.numClasses) :
    impl.locClass c < impl.numLocClasses := by
  unfold Impl.locClass Impl.numLocClasses
  split <;> omega

theorem priorsBeforeMarker_scan (priorData : Memory F) (priorSize remaining num : Nat) :
    priorsBeforeMarker priorData priorSize remaining num =
      scan (fun num => priorData (num * priorSize + 0) == ((-1 : Int) : F)) remaining num := by
  induction remaining generalizing num with
  | zero => rfl
  | succ remaining ih =>
    unfold priorsBeforeMarker scan
    rw [ih]

theorem numPriorsActual_le (impl : Impl F) (priorData : Memory F) :
    numPriorsActual impl priorData ≤ impl.numPriors := by
  unfold numPriorsActual
  split
  · rw [priorsBeforeMarker_scan]
    have bound := scan_le (fun num => priorData (num * impl.priorSize + 0) == ((-1 : Int) : F))
      impl.numPriors 0
    omega
  · exact Nat.le_refl _

theorem mem_byClass (numClasses : Nat) (lists : Nat → List Nat) (detection : Nat × Nat) :
    detection ∈ byClass numClasses lists ↔
      detection.1 < numClasses ∧ detection.2 ∈ lists detection.1 := by
  unfold byClass
  rw [List.mem_flatMap]
  constructor
  · rintro ⟨c,within,member⟩
    obtain ⟨p,there,rfl⟩ := List.mem_map.mp member
    exact ⟨List.mem_range.mp within,there⟩
  · rintro ⟨within,there⟩
    exact ⟨detection.1,List.mem_range.mpr within,List.mem_map.mpr ⟨detection.2,there,rfl⟩⟩

theorem byClass_ascending (numClasses : Nat) (lists : Nat → List Nat) :
    (byClass numClasses lists).Pairwise fun first second => first.1 ≤ second.1 := by
  unfold byClass
  rw [List.pairwise_flatMap]
  constructor
  · intro c _
    apply List.pairwise_map.mpr
    exact List.pairwise_of_forall fun _ _ => le_refl c
  · apply (List.pairwise_lt_range).imp
    intro c later before first there second member
    obtain ⟨p,-,rfl⟩ := List.mem_map.mp there
    obtain ⟨q,-,rfl⟩ := List.mem_map.mp member
    exact Nat.le_of_lt before

theorem classSurvivors_background (impl : Impl F) (exp : F → F) (priorData : Memory F)
    (image : Image F) (c : Nat) (background : (c : Int) = impl.backgroundLabelId) :
    classSurvivors impl exp priorData image c = [] := by
  simp [classSurvivors,background]

theorem classSurvivors_length (impl : Impl F) (exp : F → F) (priorData : Memory F)
    (image : Image F) (c : Nat) :
    (classSurvivors impl exp priorData image c).length ≤ impl.numPriors := by
  unfold classSurvivors
  split
  · simp
  · exact (survivors_length ..).trans (numPriorsActual_le impl priorData)

theorem mem_classSurvivors (impl : Impl F) (exp : F → F) (priorData : Memory F) (image : Image F)
    (c p : Nat) (member : p ∈ classSurvivors impl exp priorData image c) :
    (c : Int) ≠ impl.backgroundLabelId ∧ p < numPriorsActual impl priorData ∧
      image.confidence impl c p > impl.confidenceThreshold := by
  unfold classSurvivors at member
  split at member
  · simp at member
  · next foreground => exact ⟨foreground,mem_survivors _ _ _ _ _ _ member⟩

omit [FloatType F] in
private theorem ofClass_scored (impl : Impl F) (image : Image F) (numClasses : Nat)
    (lists : Nat → List Nat) (c : Nat) (within : c < numClasses) :
    ofClass ((byClass numClasses lists).map (scored impl image)) c = lists c := by
  unfold ofClass byClass
  induction numClasses with
  | zero => omega
  | succ numClasses ih =>
    rw [List.range_succ,List.flatMap_append,List.map_append,List.filter_append,List.map_append]
    rcases Nat.lt_succ_iff_lt_or_eq.mp within with before | rfl
    · rw [ih before]
      have different : numClasses ≠ c := by omega
      simp [scored,List.filter_map,Function.comp_def,different]
    · have none : (((List.range c).flatMap fun c => (lists c).map fun p => (c,p)).map
          (scored impl image)).filter (fun entry => entry.2.1 = c) = [] := by
        apply List.filter_eq_nil_iff.mpr
        simp only [List.mem_map,List.mem_flatMap,List.mem_range]
        rintro entry ⟨detection,⟨other,low,p,-,rfl⟩,rfl⟩
        have different := Nat.ne_of_lt low
        simp [scored,different]
      rw [none]
      simp [scored,List.filter_map,Function.comp_def]

theorem best_subperm (impl : Impl F) (exp : F → F) (sort : StdSort (SortScorePairDescend (F := F)))
    (priorData : Memory F) (image : Image F) :
    (best impl exp sort priorData image).Subperm
      ((allSurvivors impl exp priorData image).map (scored impl image)) :=
  (List.take_sublist _ _).subperm.trans (sort.perm _).subperm

theorem classDetections_length (impl : Impl F) (exp : F → F)
    (sort : StdSort (SortScorePairDescend (F := F))) (priorData : Memory F) (image : Image F)
    (c : Nat) (within : c < impl.numClasses) :
    (classDetections impl exp sort priorData image c).length ≤
      (classSurvivors impl exp priorData image c).length := by
  unfold classDetections
  split
  · have fewer := ((best_subperm impl exp sort priorData image).filter
      fun entry => entry.2.1 = c).length_le
    rw [← ofClass_scored impl image impl.numClasses (classSurvivors impl exp priorData image) c within]
    unfold ofClass
    rw [List.length_map,List.length_map]
    exact fewer
  · exact le_refl _

theorem classDetections_subset (impl : Impl F) (exp : F → F)
    (sort : StdSort (SortScorePairDescend (F := F))) (priorData : Memory F) (image : Image F)
    (c : Nat) (within : c < impl.numClasses) :
    classDetections impl exp sort priorData image c ⊆ classSurvivors impl exp priorData image c := by
  unfold classDetections
  split
  · intro p member
    rw [← ofClass_scored impl image impl.numClasses (classSurvivors impl exp priorData image) c within]
    unfold ofClass at member ⊢
    obtain ⟨entry,chosen,rfl⟩ := List.mem_map.mp member
    obtain ⟨among,label⟩ := List.mem_filter.mp chosen
    have there := (best_subperm impl exp sort priorData image).subset among
    exact List.mem_map_of_mem (List.mem_filter.mpr ⟨there,label⟩)
  · exact List.Subset.refl _

theorem byClass_perm {F : Type} (numClasses : Nat) (entries : List (F × Nat × Nat))
    (labels : ∀ entry ∈ entries, entry.2.1 < numClasses) :
    (byClass numClasses (ofClass entries)).Perm (entries.map fun entry => entry.2) := by
  induction entries with
  | nil => simp [byClass,ofClass]
  | cons entry entries ih =>
    have rest := ih fun other member => labels other (List.mem_cons_of_mem _ member)
    have low := labels entry List.mem_cons_self
    have split : ∀ count, (byClass count (ofClass (entry :: entries))).Perm
        ((if entry.2.1 < count then [entry.2] else []) ++ byClass count (ofClass entries)) := by
      intro count
      induction count with
      | zero => simp [byClass]
      | succ count step =>
        have more : ∀ lists : Nat → List Nat, byClass (count + 1) lists =
            byClass count lists ++ (lists count).map fun p => (count,p) := by
          intro lists
          simp [byClass,List.range_succ]
        rw [more,more]
        by_cases here : entry.2.1 = count
        · subst here
          have own : ofClass (entry :: entries) entry.2.1 = entry.2.2 :: ofClass entries entry.2.1 := by
            simp [ofClass]
          rw [if_neg (Nat.lt_irrefl _)] at step
          rw [own,if_pos (Nat.lt_succ_self _)]
          exact (step.append_right _).trans List.perm_middle
        · have other : ofClass (entry :: entries) count = ofClass entries count := by
            simp [ofClass,here]
          have same : entry.2.1 < count + 1 ↔ entry.2.1 < count := by omega
          rw [other]
          simp only [same]
          rw [← List.append_assoc]
          exact step.append_right _
    refine (split numClasses).trans ?_
    simpa [low] using rest

end VideoAnalytics.DetectionOutput
