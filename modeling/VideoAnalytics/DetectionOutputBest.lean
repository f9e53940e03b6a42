import VideoAnalytics.DetectionOutputSpec

/-! Which survivors the cut to keep_top_k keeps, and that the detections of an
image come from the inputs of that image. -/
namespace VideoAnalytics.DetectionOutput
open Loop Sorting Memory

variable {F : Type} [FloatType F]

/-- The detections are the survivors of the classes, or the best of them. -/
theorem detections_all (impl : Impl F) (exp : F → F)
    (sort : StdSort (SortScorePairDescend (F := F))) (priorData : Memory F) (image : Image F)
    (fits : ¬Overflows impl exp priorData image) :
    detections impl exp sort priorData image = allSurvivors impl exp priorData image := by
  have lists : classDetections impl exp sort priorData image =
      classSurvivors impl exp priorData image := by
    ext1 c
    simp only [classDetections,fits,if_false]
  unfold detections allSurvivors
  rw [lists]

private theorem detections_best (impl : Impl F) (exp : F → F)
    (sort : StdSort (SortScorePairDescend (F := F))) (priorData : Memory F) (image : Image F)
    (overflows : Overflows impl exp priorData image) :
    (detections impl exp sort priorData image).Perm
      ((best impl exp sort priorData image).map fun entry => entry.2) := by
  have lists : classDetections impl exp sort priorData image =
      ofClass (best impl exp sort priorData image) := by
    ext1 c
    simp only [classDetections,overflows,if_true]
  unfold detections
  rw [lists]
  apply byClass_perm
  intro entry member
  have among := (best_subperm impl exp sort priorData image).subset member
  obtain ⟨detection,there,rfl⟩ := List.mem_map.mp among
  exact ((mem_byClass _ _ _).mp there).1

theorem detections_length_cut (impl : Impl F) (exp : F → F)
    (sort : StdSort (SortScorePairDescend (F := F))) (priorData : Memory F) (image : Image F)
    (overflows : Overflows impl exp priorData image) :
    (detections impl exp sort priorData image).length = impl.keepTopK.toNat := by
  rw [(detections_best impl exp sort priorData image overflows).length_eq]
  have all := (sort.perm ((allSurvivors impl exp priorData image).map (scored impl image))).length_eq
  unfold best
  rw [List.length_map,List.length_take,all,List.length_map]
  unfold Overflows at overflows
  omega

theorem detections_length (impl : Impl F) (exp : F → F)
    (sort : StdSort (SortScorePairDescend (F := F))) (priorData : Memory F) (image : Image F)
    (keep : 0 ≤ impl.keepTopK) :
    (detections impl exp sort priorData image).length ≤ impl.keepTopK.toNat := by
  by_cases overflows : Overflows impl exp priorData image
  · rw [detections_length_cut impl exp sort priorData image overflows]
  · rw [detections_all impl exp sort priorData image overflows]
    unfold Overflows at overflows
    omega

theorem detections_foreground (impl : Impl F) (exp : F → F)
    (sort : StdSort (SortScorePairDescend (F := F))) (priorData : Memory F) (image : Image F)
    (detection : Nat × Nat) (member : detection ∈ detections impl exp sort priorData image) :
    detection.1 < impl.numClasses ∧
      detection.2 ∈ classSurvivors impl exp priorData image detection.1 := by
  obtain ⟨within,there⟩ := (mem_byClass _ _ _).mp member
  exact ⟨within,classDetections_subset impl exp sort priorData image _ within there⟩

private theorem scored_strictWeak [FloatOrder F] (impl : Impl F) (exp : F → F)
    (priorData : Memory F) (image : Image F) :
    StrictWeak (SortScorePairDescend (F := F))
      ((allSurvivors impl exp priorData image).map (scored impl image)) := by
  have above : ∀ entry ∈ (allSurvivors impl exp priorData image).map (scored impl image),
      impl.confidenceThreshold < entry.1 := by
    intro entry member
    obtain ⟨detection,there,rfl⟩ := List.mem_map.mp member
    exact (mem_classSurvivors _ _ _ _ _ _ ((mem_byClass _ _ _).mp there).2).2.2
  constructor
  · intro a _
    exact FloatOrder.irrefl a.1
  · intro a _ b _ c _ first second
    exact FloatOrder.trans c.1 b.1 a.1 second first
  · intro a first b second c third below
    exact (FloatOrder.compares impl.confidenceThreshold c.1 b.1 a.1 (above c third)
      (above b second) (above a first) below).symm

/-- What the cut drops is not above what it keeps. -/
theorem detections_dropped [FloatOrder F] (impl : Impl F) (exp : F → F)
    (sort : StdSort (SortScorePairDescend (F := F))) (priorData : Memory F) (image : Image F)
    (overflows : Overflows impl exp priorData image) :
    ∃ dropped : List (Nat × Nat),
      (detections impl exp sort priorData image ++ dropped).Perm
        (allSurvivors impl exp priorData image) ∧
      ∀ lost ∈ dropped, ∀ kept ∈ detections impl exp sort priorData image,
        ¬image.confidence impl kept.1 kept.2 < image.confidence impl lost.1 lost.2 := by
  let entries := (allSurvivors impl exp priorData image).map (scored impl image)
  have kept := detections_best impl exp sort priorData image overflows
  have whole : best impl exp sort priorData image ++
      (sort.sort entries).drop impl.keepTopK.toNat = sort.sort entries :=
    List.take_append_drop _ _
  have scores : ∀ entry ∈ sort.sort entries,
      entry.1 = image.confidence impl entry.2.1 entry.2.2 := by
    intro entry member
    obtain ⟨detection,-,rfl⟩ := List.mem_map.mp ((sort.perm entries).subset member)
    rfl
  refine ⟨((sort.sort entries).drop impl.keepTopK.toNat).map fun entry => entry.2,?_,?_⟩
  · refine (kept.append_right _).trans ?_
    rw [← List.map_append,whole]
    refine ((sort.perm entries).map _).trans ?_
    simp [entries,scored,Function.comp_def]
  · intro lost dropped chosen member
    obtain ⟨low,after,rfl⟩ := List.mem_map.mp dropped
    obtain ⟨high,before,rfl⟩ := List.mem_map.mp (kept.subset member)
    have sorted := sort.sorted entries (scored_strictWeak impl exp priorData image)
    rw [← whole] at sorted
    have ordered := (List.pairwise_append.mp sorted).2.2 high before low after
    rw [← scores high (whole ▸ List.mem_append_left _ before),
      ← scores low (List.mem_of_mem_drop after)]
    exact ordered

/-- The layer with its locations shared by the classes, or not. -/
def Impl.sharing {F : Type} (impl : Impl F) (share : Bool) : Impl F :=
  {impl with shareLocation := share}

private theorem sharing_self {F : Type} (impl : Impl F) :
    impl.sharing impl.shareLocation = impl := rfl

private theorem survivors_sharing (impl : Impl F) (share : Bool) (confData bboxes sizes : Memory F)
    (actual : Nat) : survivors (impl.sharing share) confData bboxes sizes actual =
      survivors impl confData bboxes sizes actual := by
  unfold survivors
  rw [greedy_eq_select,greedy_eq_select]
  rfl

section Independence

/-- Two images with the same confidences and boxes, each with its locations shared
or not. -/
structure SameBoxes (impl : Impl F) (share other : Bool) (exp : F → F) (priorData : Memory F)
    (first second : Image F) : Prop where
  confidence : ∀ c p, c < impl.numClasses → p < impl.numPriors →
    first.confidence impl c p = second.confidence impl c p
  box : ∀ c p, c < impl.numClasses → p < impl.numPriors →
    first.box (impl.sharing share) exp priorData c p =
      second.box (impl.sharing other) exp priorData c p

variable {impl : Impl F} {share other : Bool} {exp : F → F} {priorData : Memory F}
  {first second : Image F}

private theorem classSurvivors_foreground (image : Image F) {c : Nat}
    (foreground : (c : Int) ≠ impl.backgroundLabelId) :
    classSurvivors (impl.sharing share) exp priorData image c =
      survivors impl (image.confidence impl c)
        (flatBoxes (image.box (impl.sharing share) exp priorData c))
        (fun p => (image.box (impl.sharing share) exp priorData c p).size)
        (numPriorsActual impl priorData) := by
  have other : (c : Int) ≠ (impl.sharing share).backgroundLabelId := foreground
  unfold classSurvivors
  rw [if_neg other,survivors_sharing]
  rfl

private theorem SameBoxes.classSurvivors
    (same : SameBoxes impl share other exp priorData first second)
    {c : Nat} (within : c < impl.numClasses) :
    classSurvivors (impl.sharing share) exp priorData first c =
      classSurvivors (impl.sharing other) exp priorData second c := by
  have bound := numPriorsActual_le impl priorData
  by_cases background : (c : Int) = impl.backgroundLabelId
  · rw [classSurvivors_background (impl.sharing share) exp priorData first c background,
      classSurvivors_background (impl.sharing other) exp priorData second c background]
  · rw [classSurvivors_foreground first background,classSurvivors_foreground second background]
    apply survivors_congr
    · intro p low
      exact same.confidence c p within (by omega)
    · intro address low
      unfold flatBoxes
      rw [same.box c (address / 4) within (by omega)]
    · intro p low
      rw [same.box c p within (by omega)]

private theorem byClass_congr (numClasses : Nat) (lists others : Nat → List Nat)
    (same : ∀ c, c < numClasses → lists c = others c) :
    byClass numClasses lists = byClass numClasses others := by
  apply List.flatMap_congr
  intro c member
  rw [same c (List.mem_range.mp member)]

private theorem SameBoxes.allSurvivors
    (same : SameBoxes impl share other exp priorData first second) :
    allSurvivors (impl.sharing share) exp priorData first =
      allSurvivors (impl.sharing other) exp priorData second :=
  byClass_congr _ _ _ fun _ within => same.classSurvivors within

private theorem mem_allSurvivors {image : Image F} (detection : Nat × Nat)
    (member : detection ∈ DetectionOutput.allSurvivors impl exp priorData image) :
    detection.1 < impl.numClasses ∧ detection.2 < impl.numPriors := by
  obtain ⟨within,there⟩ := (mem_byClass _ _ _).mp member
  have low := (mem_classSurvivors _ _ _ _ _ _ there).2.1
  exact ⟨within,low.trans_le (numPriorsActual_le impl priorData)⟩

private theorem SameBoxes.best (same : SameBoxes impl share other exp priorData first second)
    (sort : StdSort (SortScorePairDescend (F := F))) :
    best (impl.sharing share) exp sort priorData first =
      best (impl.sharing other) exp sort priorData second := by
  unfold DetectionOutput.best
  rw [← same.allSurvivors]
  congr 2
  apply List.map_congr_left
  intro detection member
  obtain ⟨within,low⟩ := mem_allSurvivors detection member
  unfold scored
  congr 1
  exact same.confidence _ _ within low

private theorem SameBoxes.detections (same : SameBoxes impl share other exp priorData first second)
    (sort : StdSort (SortScorePairDescend (F := F))) :
    detections (impl.sharing share) exp sort priorData first =
      detections (impl.sharing other) exp sort priorData second := by
  have cut : Overflows (impl.sharing share) exp priorData first ↔
      Overflows (impl.sharing other) exp priorData second := by
    unfold Overflows
    rw [same.allSurvivors]
    exact Iff.rfl
  apply byClass_congr
  intro c within
  simp only [classDetections,cut,same.best sort,same.classSurvivors within]

theorem SameBoxes.rows (same : SameBoxes impl share other exp priorData first second)
    (sort : StdSort (SortScorePairDescend (F := F))) (n : Nat) :
    (DetectionOutput.detections (impl.sharing share) exp sort priorData first).map
        (row (impl.sharing share) exp priorData first n) =
      (DetectionOutput.detections (impl.sharing other) exp sort priorData second).map
        (row (impl.sharing other) exp priorData second n) := by
  rw [← same.detections sort]
  apply List.map_congr_left
  intro detection member
  obtain ⟨within,there⟩ := detections_foreground _ _ _ _ _ _ member
  have low := (mem_classSurvivors _ _ _ _ _ _ there).2.1.trans_le
    (numPriorsActual_le (impl.sharing share) priorData)
  have confidence := same.confidence _ _ within low
  unfold row
  rw [same.box _ _ within low]
  simp only [Image.confidence] at confidence ⊢
  simp only [Impl.sharing] at confidence ⊢
  rw [confidence]

structure SameImage (impl : Impl F) (image other : Image F) : Prop where
  loc : ∀ i, i < 4 * impl.numLocClasses * impl.numPriors → image.loc i = other.loc i
  conf : ∀ i, i < impl.numPriors * impl.numClasses → image.conf i = other.conf i

theorem decodeBBox_congr (loc otherLoc variances : Memory F) (p : Nat)
    (same : ∀ k, k < 4 → loc (4 * p * (impl.sharing share).numLocClasses + k) =
      otherLoc (4 * p * (impl.sharing other).numLocClasses + k)) :
    decodeBBox (impl.sharing share) exp priorData loc variances p =
      decodeBBox (impl.sharing other) exp priorData otherLoc variances p := by
  unfold decodeBBox
  simp only [same 0 (by omega),same 1 (by omega),same 2 (by omega),same 3 (by omega)]
  rfl

private theorem SameImage.sameBoxes {image another : Image F} (same : SameImage impl image another)
    (exp : F → F) (priorData : Memory F) :
    SameBoxes impl impl.shareLocation impl.shareLocation exp priorData image another where
  confidence c p within low := same.conf _ (cell_within low within)
  box c p within low := by
    have inside := locClass_lt impl c within
    have cell := cell_within low inside
    apply decodeBBox_congr
    intro k few
    apply same.loc
    calc impl.locClass c * 4 + (4 * p * impl.numLocClasses + k)
        < 4 * (p * impl.numLocClasses + impl.locClass c) + 4 := by ring_nf; omega
      _ ≤ 4 * (impl.numPriors * impl.numLocClasses) := by omega
      _ = 4 * impl.numLocClasses * impl.numPriors := by ring

/-- The detections of an image do not depend on the others of the batch. -/
theorem SameImage.rows {image another : Image F} (same : SameImage impl image another)
    (exp : F → F) (sort : StdSort (SortScorePairDescend (F := F))) (priorData : Memory F) (n : Nat) :
    (DetectionOutput.detections impl exp sort priorData image).map
        (row impl exp priorData image n) =
      (DetectionOutput.detections impl exp sort priorData another).map
        (row impl exp priorData another n) := by
  have rows := (same.sameBoxes exp priorData).rows sort n
  rwa [sharing_self] at rows

end Independence

end VideoAnalytics.DetectionOutput
