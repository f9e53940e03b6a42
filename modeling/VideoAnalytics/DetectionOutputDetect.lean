import VideoAnalytics.DetectionOutputDecode

/-! What the detection leaves in the buffers: for each image the counts and the
indices of its detections by class, each class in a cell of its own. -/
namespace VideoAnalytics.DetectionOutput
open Loop Sorting Memory

variable {F : Type} [FloatType F]

/-- The counts and the indices of the first classes of an image are these lists. -/
def Listed {F : Type} (impl : Impl F) (buffers : Buffers F) (n classes : Nat)
    (lists : Nat → List Nat) : Prop :=
  ∀ c, c < classes →
    buffers.detectionsCount (n * impl.numClasses + c) = (lists c).length ∧
      buffers.indices.Holds ((n * impl.numClasses + c) * impl.numPriors) (lists c)

/-- The detection writes indices and counts within these areas. -/
structure DetectedIn (before after : Buffers F) (indexStart indexSize countStart countSize : Nat) :
    Prop where
  indices : before.indices.OnlyIn after.indices indexStart indexSize
  counts : before.detectionsCount.OnlyIn after.detectionsCount countStart countSize
  rest : {before with
    buffer := after.buffer
    indices := after.indices
    detectionsCount := after.detectionsCount} = after

omit [FloatType F] in
private theorem DetectedIn.refl (buffers : Buffers F)
    (indexStart indexSize countStart countSize : Nat) :
    DetectedIn buffers buffers indexStart indexSize countStart countSize where
  indices := OnlyIn.refl _ _ _
  counts := OnlyIn.refl _ _ _
  rest := rfl

omit [FloatType F] in
private theorem DetectedIn.trans {before middle after : Buffers F}
    {indexStart indexSize countStart countSize : Nat}
    (first : DetectedIn before middle indexStart indexSize countStart countSize)
    (second : DetectedIn middle after indexStart indexSize countStart countSize) :
    DetectedIn before after indexStart indexSize countStart countSize where
  indices := first.indices.trans second.indices
  counts := first.counts.trans second.counts
  rest := by
    rw [← second.rest,← first.rest]

private theorem DetectedIn.ofClass {F : Type} {before after : Buffers F} {classes priors n c : Nat}
    (writes : DetectedIn before after ((n * classes + c) * priors) priors (n * classes + c) 1)
    (within : c < classes) :
    DetectedIn before after (n * (classes * priors)) (classes * priors) (n * classes) classes where
  indices := writes.indices.ofCell within
  counts := writes.counts.wider (by omega) (by omega)
  rest := writes.rest

private theorem Prepared.kept {impl : Impl F} {exp : F → F} {priorData : Memory F}
    {images : Nat → Image F}
    {count indexStart indexSize countStart countSize : Nat} {before after : Buffers F}
    (prepared : Prepared impl exp priorData images count before)
    (writes : DetectedIn before after indexStart indexSize countStart countSize) :
    Prepared impl exp priorData images count after := by
  rw [← writes.rest]
  exact ⟨prepared.actual,prepared.decoded,prepared.confidences⟩

omit [FloatType F] in
private theorem Listed.kept {impl : Impl F} {before after : Buffers F} {n m : Nat}
    {lists : Nat → List Nat} (listed : Listed impl before n impl.numClasses lists)
    (few : ∀ c, c < impl.numClasses → (lists c).length ≤ impl.numPriors)
    (writes : DetectedIn before after (m * (impl.numClasses * impl.numPriors))
      (impl.numClasses * impl.numPriors) (m * impl.numClasses) impl.numClasses)
    (different : n ≠ m) : Listed impl after n impl.numClasses lists := by
  intro c within
  obtain ⟨counted,holds⟩ := listed c within
  have cells := cell_apart impl.numClasses different
  constructor
  · rw [writes.counts _ (by omega)]
    exact counted
  · have apart := cells_apart impl.numPriors within different
    have short := few c within
    exact writes.indices.holds holds (by omega)

omit [FloatType F] in
theorem pconf_eq (impl : Impl F) (n c : Nat) :
    n * impl.numClasses * impl.numPriors + c * impl.numPriors =
      (n * impl.numClasses + c) * impl.numPriors := by ring

omit [FloatType F] in
private theorem pboxes_eq (impl : Impl F) (boxes : Memory F) (n c : Nat) :
    (if impl.shareLocation then boxes.offset (n * 4 * impl.numPriors)
      else boxes.offset (n * 4 * impl.numClasses * impl.numPriors + c * 4 * impl.numPriors)) =
        boxes.offset ((n * impl.numLocClasses + impl.locClass c) * (4 * impl.numPriors)) := by
  unfold Impl.numLocClasses Impl.locClass
  cases impl.shareLocation with
  | true =>
    have start : n * 4 * impl.numPriors = (n * 1 + 0) * (4 * impl.numPriors) := by ring
    simp [start]
  | false =>
    have start : n * 4 * impl.numClasses * impl.numPriors + c * 4 * impl.numPriors =
        (n * impl.numClasses + c) * (4 * impl.numPriors) := by ring
    simp [start]

omit [FloatType F] in
private theorem psizes_eq (impl : Impl F) (sizes : Memory F) (n c : Nat) :
    (if impl.shareLocation then sizes.offset (n * impl.numPriors)
      else sizes.offset (n * impl.numClasses * impl.numPriors + c * impl.numPriors)) =
        sizes.offset ((n * impl.numLocClasses + impl.locClass c) * impl.numPriors) := by
  unfold Impl.numLocClasses Impl.locClass
  cases impl.shareLocation with
  | true => simp
  | false => simp [pconf_eq impl n c]

private theorem survivors_prepared {impl : Impl F} {exp : F → F} {priorData : Memory F}
    {images : Nat → Image F} {count : Nat} {buffers : Buffers F}
    (prepared : Prepared impl exp priorData images count buffers) (n c : Nat) (image : n < count)
    (within : c < impl.numClasses) (foreground : (c : Int) ≠ impl.backgroundLabelId) :
    let cell := n * impl.numLocClasses + impl.locClass c
    survivors impl (buffers.reorderedConf.offset ((n * impl.numClasses + c) * impl.numPriors))
      (buffers.decodedBboxes.offset (cell * (4 * impl.numPriors)))
      (buffers.bboxSizes.offset (cell * impl.numPriors)) (buffers.numPriorsActual n) =
        classSurvivors impl exp priorData (images n) c := by
  intro cell
  have bound := numPriorsActual_le impl priorData
  have decoded := prepared.decoded n c image within foreground
  unfold classSurvivors
  rw [if_neg foreground,prepared.actual n c image within foreground]
  apply survivors_congr
  · intro p low
    exact prepared.confidences n c p image within (by omega)
  · intro address low
    have coordinate := (decoded (address / 4) (by omega)).1 (address % 4) (Nat.mod_lt _ (by omega))
    rw [Nat.div_add_mod' address 4] at coordinate
    exact coordinate
  · intro p low
    exact (decoded p low).2

private theorem suppressClass_listed {impl : Impl F} {exp : F → F} {priorData : Memory F}
    {images : Nat → Image F} {count : Nat} {before : Buffers F}
    (prepared : Prepared impl exp priorData images count before) (n c : Nat) (image : n < count)
    (within : c < impl.numClasses)
    (clear : before.detectionsCount (n * impl.numClasses + c) = 0) :
    let after := suppressClass impl n c before
    let survive := classSurvivors impl exp priorData (images n) c
    (after.detectionsCount (n * impl.numClasses + c) = survive.length ∧
      after.indices.Holds ((n * impl.numClasses + c) * impl.numPriors) survive) ∧
      DetectedIn before after ((n * impl.numClasses + c) * impl.numPriors) impl.numPriors
        (n * impl.numClasses + c) 1 := by
  intro after survive
  by_cases background : (c : Int) = impl.backgroundLabelId
  · have none : survive = [] := classSurvivors_background _ _ _ _ _ background
    have same : after = before := by simp [after,suppressClass,background]
    rw [none,same]
    exact ⟨⟨clear,holds_nil _ _⟩,.refl ..⟩
  · have suppressed := nms_holds impl
      (before.reorderedConf.offset ((n * impl.numClasses + c) * impl.numPriors))
      (before.decodedBboxes.offset
        ((n * impl.numLocClasses + impl.locClass c) * (4 * impl.numPriors)))
      (before.bboxSizes.offset ((n * impl.numLocClasses + impl.locClass c) * impl.numPriors))
      (c * impl.numPriors) ((n * impl.numClasses + c) * impl.numPriors) (before.numPriorsActual n)
      before.buffer before.indices
    have actual := prepared.actual n c image within background
    have bound := numPriorsActual_le impl priorData
    rw [survivors_prepared prepared n c image within background] at suppressed
    obtain ⟨counted,holds,only⟩ := suppressed
    simp only [after,suppressClass,background,if_false,clear,
      pboxes_eq impl before.decodedBboxes,psizes_eq impl before.bboxSizes]
    rw [pconf_eq impl n c]
    refine ⟨⟨?_,holds⟩,only.wider (le_refl _) (by omega),?_,rfl⟩
    · simpa using counted
    · exact (OnlyIn.refl _ _ _).write _ _ (by omega) (by omega)

private theorem suppressImage_listed {impl : Impl F} {exp : F → F} {priorData : Memory F}
    {images : Nat → Image F} {count : Nat} {before : Buffers F}
    (prepared : Prepared impl exp priorData images count before) (n : Nat) (image : n < count)
    (clear : ∀ c, c < impl.numClasses → before.detectionsCount (n * impl.numClasses + c) = 0) :
    let after := forLoop impl.numClasses (suppressClass impl n) before
    Listed impl after n impl.numClasses (classSurvivors impl exp priorData (images n)) ∧
      DetectedIn before after (n * (impl.numClasses * impl.numPriors))
        (impl.numClasses * impl.numPriors) (n * impl.numClasses) impl.numClasses := by
  intro after
  have invariant : Listed impl after n impl.numClasses
        (classSurvivors impl exp priorData (images n)) ∧
      (∀ c, impl.numClasses ≤ c → c < impl.numClasses →
        after.detectionsCount (n * impl.numClasses + c) = 0) ∧
      DetectedIn before after (n * (impl.numClasses * impl.numPriors))
        (impl.numClasses * impl.numPriors) (n * impl.numClasses) impl.numClasses := by
    apply forLoop_induct fun i (state : Buffers F) =>
      Listed impl state n i (classSurvivors impl exp priorData (images n)) ∧
        (∀ c, i ≤ c → c < impl.numClasses →
          state.detectionsCount (n * impl.numClasses + c) = 0) ∧
        DetectedIn before state (n * (impl.numClasses * impl.numPriors))
          (impl.numClasses * impl.numPriors) (n * impl.numClasses) impl.numClasses
    · refine ⟨?_,fun c _ => clear c,.refl ..⟩
      intro c low
      omega
    · rintro i state within ⟨listed,zeros,writes⟩
      obtain ⟨own,changed⟩ := suppressClass_listed (prepared.kept writes) n i image within
        (zeros i (le_refl i) within)
      refine ⟨?_,?_,writes.trans (changed.ofClass within)⟩
      · intro c low
        by_cases last : c = i
        · subst last
          exact own
        · obtain ⟨counted,holds⟩ := listed c (by omega)
          have short := classSurvivors_length impl exp priorData (images n) c
          have different : n * impl.numClasses + c ≠ n * impl.numClasses + i := by omega
          have apart := cell_apart impl.numPriors different
          refine ⟨?_,changed.indices.holds holds (by omega)⟩
          rw [changed.counts _ (by omega)]
          exact counted
      · intro c low high
        rw [changed.counts _ (by omega)]
        exact zeros c (by omega) high
  exact ⟨invariant.1,invariant.2.2⟩

private theorem byClass_length (numClasses : Nat) (lists : Nat → List Nat) :
    (byClass numClasses lists).length = ((List.range numClasses).map fun c => (lists c).length).sum := by
  simp [byClass,List.length_flatMap]

private theorem total_eq {F : Type} {impl : Impl F} {buffers : Buffers F} {n : Nat}
    {lists : Nat → List Nat} (listed : Listed impl buffers n impl.numClasses lists) :
    forLoop impl.numClasses (fun c total =>
      total + buffers.detectionsCount (n * impl.numClasses + c)) 0 =
        (byClass impl.numClasses lists).length := by
  rw [byClass_length,← forLoop_sum]
  apply forLoop_congr
  intro c total within
  rw [(listed c within).1]

private theorem confIndexClassMap_eq {impl : Impl F} {exp : F → F} {priorData : Memory F}
    {images : Nat → Image F} {count : Nat} {buffers : Buffers F}
    (prepared : Prepared impl exp priorData images count buffers) (n : Nat) (image : n < count)
    (lists : Nat → List Nat) (listed : Listed impl buffers n impl.numClasses lists)
    (low : ∀ c p, c < impl.numClasses → p ∈ lists c → p < impl.numPriors) :
    confIndexClassMap impl n buffers =
      (byClass impl.numClasses lists).map (scored impl (images n)) := by
  have pieces : confIndexClassMap impl n buffers = forLoop impl.numClasses (fun c map =>
      map ++ (lists c).map fun p => scored impl (images n) (c,p)) [] := by
    apply forLoop_congr
    intro c map within
    obtain ⟨counted,holds⟩ := listed c within
    simp only [counted]
    rw [forLoop_append]
    have indices := collected_list _ _ _ holds
    congr 1
    rw [← List.map_eq_flatMap]
    calc (List.range (lists c).length).map (fun i =>
          (_,c,buffers.indices (n * impl.numClasses * impl.numPriors + c * impl.numPriors + i)))
        = ((List.range (lists c).length).map (buffers.indices.offset
            ((n * impl.numClasses + c) * impl.numPriors))).map (fun p =>
              (buffers.reorderedConf ((n * impl.numClasses + c) * impl.numPriors + p),c,p)) := by
          simp [pconf_eq impl n c]
      _ = (lists c).map fun p => scored impl (images n) (c,p) := by
          rw [indices]
          apply List.map_congr_left
          intro p member
          rw [prepared.confidences n c p image within (low c p within member)]
          rfl
  rw [pieces,forLoop_append,byClass,List.map_flatMap]
  simp [Function.comp_def]

omit [FloatType F] in
private theorem ofClass_append (first second : List (F × Nat × Nat)) (c : Nat) :
    ofClass (first ++ second) c = ofClass first c ++ ofClass second c := by
  simp [ofClass]

private theorem storeIndex_listed {F : Type} (impl : Impl F) (n : Nat) (done : List (F × Nat × Nat))
    (entry : F × Nat × Nat) (buffers : Buffers F) (within : entry.2.1 < impl.numClasses)
    (few : ∀ c, c < impl.numClasses → (ofClass (done ++ [entry]) c).length ≤ impl.numPriors)
    (listed : Listed impl buffers n impl.numClasses (ofClass done)) :
    Listed impl (storeIndex impl n buffers entry) n impl.numClasses (ofClass (done ++ [entry])) ∧
      DetectedIn buffers (storeIndex impl n buffers entry) (n * (impl.numClasses * impl.numPriors))
        (impl.numClasses * impl.numPriors) (n * impl.numClasses) impl.numClasses := by
  obtain ⟨score,label,idx⟩ := entry
  simp only at within
  obtain ⟨counted,holds⟩ := listed label within
  have own : ofClass (done ++ [(score,label,idx)]) label = ofClass done label ++ [idx] := by
    simp [ofClass]
  have room : (ofClass done label).length + 1 ≤ impl.numPriors := by
    simpa [own] using few label within
  have changed : DetectedIn buffers (storeIndex impl n buffers (score,label,idx))
      ((n * impl.numClasses + label) * impl.numPriors) impl.numPriors
      (n * impl.numClasses + label) 1 := by
    refine ⟨(OnlyIn.refl _ _ _).write _ _ ?_ ?_,(OnlyIn.refl _ _ _).write _ _ ?_ ?_,rfl⟩
    all_goals simp only [counted,pconf_eq]; omega
  refine ⟨?_,changed.ofClass within⟩
  intro c low
  by_cases here : c = label
  · subst here
    rw [own]
    constructor
    · simp [storeIndex,counted]
    · have extended := holds.extend idx
      simpa only [storeIndex,counted,pconf_eq] using extended
  · have other : ofClass (done ++ [(score,label,idx)]) c = ofClass done c := by
      simp [ofClass,Ne.symm here]
    have short := few c low
    rw [other] at short ⊢
    obtain ⟨counts,same⟩ := listed c low
    have different : n * impl.numClasses + c ≠ n * impl.numClasses + label := by omega
    have apart := cell_apart impl.numPriors different
    refine ⟨?_,changed.indices.holds same (by omega)⟩
    rw [changed.counts _ (by omega)]
    exact counts

private theorem storeEntries_listed {F : Type} (impl : Impl F) (n : Nat)
    (entries done : List (F × Nat × Nat)) (buffers : Buffers F)
    (labels : ∀ entry ∈ entries, entry.2.1 < impl.numClasses)
    (few : ∀ c, c < impl.numClasses → (ofClass (done ++ entries) c).length ≤ impl.numPriors)
    (listed : Listed impl buffers n impl.numClasses (ofClass done)) :
    Listed impl (entries.foldl (storeIndex impl n) buffers) n impl.numClasses
        (ofClass (done ++ entries)) ∧
      DetectedIn buffers (entries.foldl (storeIndex impl n) buffers)
        (n * (impl.numClasses * impl.numPriors)) (impl.numClasses * impl.numPriors)
        (n * impl.numClasses) impl.numClasses := by
  induction entries generalizing done buffers with
  | nil => simpa using ⟨listed,.refl ..⟩
  | cons entry entries ih =>
    have regrouped : done ++ entry :: entries = done ++ [entry] ++ entries := by simp
    rw [regrouped] at few ⊢
    have room : ∀ c, c < impl.numClasses → (ofClass (done ++ [entry]) c).length ≤ impl.numPriors := by
      intro c low
      have bound := few c low
      rw [ofClass_append,List.length_append] at bound
      omega
    obtain ⟨stored,first⟩ := storeIndex_listed impl n done entry buffers
      (labels entry List.mem_cons_self) room listed
    obtain ⟨final,rest⟩ := ih (done ++ [entry]) (storeIndex impl n buffers entry)
      (fun other member => labels other (List.mem_cons_of_mem _ member)) few stored
    exact ⟨final,first.trans rest⟩

omit [FloatType F] in
private theorem storeIndices_listed (impl : Impl F) (n : Nat) (entries : List (F × Nat × Nat))
    (buffers : Buffers F) (labels : ∀ entry ∈ entries, entry.2.1 < impl.numClasses)
    (few : ∀ c, c < impl.numClasses → (ofClass entries c).length ≤ impl.numPriors) :
    Listed impl (storeIndices impl n entries buffers) n impl.numClasses (ofClass entries) ∧
      DetectedIn buffers (storeIndices impl n entries buffers)
        (n * (impl.numClasses * impl.numPriors)) (impl.numClasses * impl.numPriors)
        (n * impl.numClasses) impl.numClasses := by
  obtain ⟨zeros,same,cleared⟩ := clearCounts_counts (n * impl.numClasses) impl.numClasses buffers
  have nothing : Listed impl (clearCounts (n * impl.numClasses) impl.numClasses buffers) n
      impl.numClasses (ofClass ([] : List (F × Nat × Nat))) := by
    intro c low
    exact ⟨zeros c low,holds_nil _ _⟩
  obtain ⟨stored,writes⟩ := storeEntries_listed impl n entries [] _ labels few nothing
  refine ⟨stored,DetectedIn.trans ⟨?_,cleared,?_⟩ writes⟩
  · rw [same]
    exact OnlyIn.refl _ _ _
  · rw [same]

/-- The detections of one image, after nms and the cut. -/
theorem detectImage_listed {impl : Impl F} {exp : F → F} {priorData : Memory F}
    {images : Nat → Image F} {count : Nat} {before : Buffers F}
    (sort : StdSort (SortScorePairDescend (F := F)))
    (prepared : Prepared impl exp priorData images count before) (n : Nat) (image : n < count)
    (clear : ∀ c, c < impl.numClasses → before.detectionsCount (n * impl.numClasses + c) = 0) :
    let after := detectImage impl sort n before
    Listed impl after n impl.numClasses (classDetections impl exp sort priorData (images n)) ∧
      DetectedIn before after (n * (impl.numClasses * impl.numPriors))
        (impl.numClasses * impl.numPriors) (n * impl.numClasses) impl.numClasses := by
  intro after
  obtain ⟨listed,writes⟩ := suppressImage_listed prepared n image clear
  have map := confIndexClassMap_eq (prepared.kept writes) n image _ listed fun c p _ member =>
    (mem_classSurvivors _ _ _ _ _ _ member).2.1.trans_le (numPriorsActual_le impl priorData)
  simp only [after,detectImage,total_eq listed,map]
  by_cases overflows : Overflows impl exp priorData (images n)
  · have kept : classDetections impl exp sort priorData (images n) =
        ofClass (best impl exp sort priorData (images n)) := by
      ext1 c
      simp only [classDetections,overflows,if_true]
    have labels : ∀ entry ∈ best impl exp sort priorData (images n), entry.2.1 < impl.numClasses := by
      intro entry member
      have among := (best_subperm impl exp sort priorData (images n)).subset member
      obtain ⟨detection,there,rfl⟩ := List.mem_map.mp among
      exact ((mem_byClass _ _ _).mp there).1
    have few : ∀ c, c < impl.numClasses →
        (ofClass (best impl exp sort priorData (images n)) c).length ≤ impl.numPriors := by
      intro c low
      have fewer := classDetections_length impl exp sort priorData (images n) c low
      rw [kept] at fewer
      exact fewer.trans (classSurvivors_length impl exp priorData (images n) c)
    obtain ⟨stored,cut⟩ := storeIndices_listed impl n _
      (forLoop impl.numClasses (suppressClass impl n) before) labels few
    rw [kept]
    unfold Overflows at overflows
    simp only [allSurvivors] at overflows
    rw [if_pos overflows]
    exact ⟨stored,writes.trans cut⟩
  · have kept : classDetections impl exp sort priorData (images n) =
        classSurvivors impl exp priorData (images n) := by
      ext1 c
      simp only [classDetections,overflows,if_false]
    rw [kept]
    unfold Overflows at overflows
    simp only [allSurvivors] at overflows
    rw [if_neg overflows]
    exact ⟨listed,writes⟩

private theorem detectImages_listed {impl : Impl F} {exp : F → F} {priorData : Memory F}
    {images : Nat → Image F} {count : Nat} {before : Buffers F}
    (sort : StdSort (SortScorePairDescend (F := F)))
    (prepared : Prepared impl exp priorData images count before)
    (clear : ∀ i, i < count * impl.numClasses → before.detectionsCount i = 0) :
    let after := forLoop count (detectImage impl sort) before
    (∀ n, n < count →
      Listed impl after n impl.numClasses (classDetections impl exp sort priorData (images n))) ∧
      Prepared impl exp priorData images count after := by
  intro after
  have short : ∀ n c, c < impl.numClasses →
      (classDetections impl exp sort priorData (images n) c).length ≤ impl.numPriors :=
    fun n c low => (classDetections_length impl exp sort priorData (images n) c low).trans
      (classSurvivors_length impl exp priorData (images n) c)
  have invariant : (∀ n, n < count →
        Listed impl after n impl.numClasses (classDetections impl exp sort priorData (images n))) ∧
      Prepared impl exp priorData images count after ∧
      ∀ n c, count ≤ n → n < count → c < impl.numClasses →
        after.detectionsCount (n * impl.numClasses + c) = 0 := by
    apply forLoop_induct fun i (state : Buffers F) => (∀ n, n < i →
        Listed impl state n impl.numClasses (classDetections impl exp sort priorData (images n))) ∧
      Prepared impl exp priorData images count state ∧
      ∀ n c, i ≤ n → n < count → c < impl.numClasses →
        state.detectionsCount (n * impl.numClasses + c) = 0
    · refine ⟨by omega,prepared,?_⟩
      intro n c _ image low
      exact clear _ (cell_within image low)
    · rintro i state within ⟨listed,still,zeros⟩
      obtain ⟨own,writes⟩ := detectImage_listed sort still i within fun c low =>
        zeros i c (le_refl i) within low
      refine ⟨?_,still.kept writes,?_⟩
      · intro n low
        by_cases last : n = i
        · subst last
          exact own
        · exact (listed n (by omega)).kept (short n) writes last
      · intro n c low image class_lt
        have different : n ≠ i := by omega
        have apart := cell_apart impl.numClasses different
        rw [writes.counts _ (by omega)]
        exact zeros n c (by omega) image class_lt
  exact ⟨invariant.1,invariant.2.1⟩

/-- What the output loop finds. -/
theorem detectBatch_listed (impl : Impl F) (exp : F → F)
    (sort : StdSort (SortScorePairDescend (F := F))) (count : Nat)
    (locData confData priorData : Memory F) (buffers : Buffers F) :
    let after := detectBatch impl exp sort count locData confData priorData buffers
    let images := imageAt impl locData confData
    (∀ n, n < count →
      Listed impl after n impl.numClasses (classDetections impl exp sort priorData (images n))) ∧
      Prepared impl exp priorData images count after := by
  obtain ⟨ready,zero⟩ := prepared impl exp locData confData priorData count buffers
  exact detectImages_listed sort ready zero

end VideoAnalytics.DetectionOutput
