import VideoAnalytics.DetectionOutputSpec

/-! What decoding and reordering leave in the buffers: the box, the size and the
confidence of each prior of each image, each in a cell of its own. -/
namespace VideoAnalytics.DetectionOutput
open Loop Memory

variable {F : Type} [FloatType F]

/-- The boxes and sizes of one class of an image are in their cells. -/
def Decoded (impl : Impl F) (exp : F → F) (priorData : Memory F) (image : Image F)
    (buffers : Buffers F) (n c : Nat) : Prop :=
  ∀ p, p < numPriorsActual impl priorData →
    (∀ k, k < 4 → buffers.decodedBboxes
      ((n * impl.numLocClasses + impl.locClass c) * (4 * impl.numPriors) + (p * 4 + k)) =
        (image.box impl exp priorData c p).coordinate k) ∧
    buffers.bboxSizes ((n * impl.numLocClasses + impl.locClass c) * impl.numPriors + p) =
      (image.box impl exp priorData c p).size

/-- What the detection of a batch reads. -/
structure Prepared (impl : Impl F) (exp : F → F) (priorData : Memory F) (images : Nat → Image F)
    (count : Nat) (buffers : Buffers F) : Prop where
  actual : ∀ n c, n < count → c < impl.numClasses → (c : Int) ≠ impl.backgroundLabelId →
    buffers.numPriorsActual n = numPriorsActual impl priorData
  decoded : ∀ n c, n < count → c < impl.numClasses → (c : Int) ≠ impl.backgroundLabelId →
    Decoded impl exp priorData (images n) buffers n c
  confidences : ∀ n c p, n < count → c < impl.numClasses → p < impl.numPriors →
    buffers.reorderedConf ((n * impl.numClasses + c) * impl.numPriors + p) =
      (images n).confidence impl c p

/-- Decoding writes within the cells of some classes. -/
structure DecodedIn (before after : Buffers F) (boxStart boxSize sizeStart sizeCount n : Nat) :
    Prop where
  boxes : before.decodedBboxes.OnlyIn after.decodedBboxes boxStart boxSize
  sizes : before.bboxSizes.OnlyIn after.bboxSizes sizeStart sizeCount
  actual : ∀ m, m ≠ n → after.numPriorsActual m = before.numPriorsActual m

private theorem decodeBBoxes_writes (impl : Impl F) (exp : F → F)
    (priorData locData varianceData : Memory F) (boxStart sizeStart n : Nat) (buffers : Buffers F) :
    let after := decodeBBoxes impl exp priorData locData varianceData boxStart sizeStart n buffers
    let actual := numPriorsActual impl priorData
    (∀ p, p < actual →
      (∀ k, k < 4 → after.decodedBboxes (boxStart + (p * 4 + k)) =
        (decodeBBox impl exp priorData locData varianceData p).coordinate k) ∧
      after.bboxSizes (sizeStart + p) =
        (decodeBBox impl exp priorData locData varianceData p).size) ∧
      DecodedIn buffers after boxStart (4 * actual) sizeStart actual n ∧
      after.numPriorsActual n = actual := by
  intro after actual
  apply forLoop_induct fun i (state : Buffers F) =>
    (∀ p, p < i →
      (∀ k, k < 4 → state.decodedBboxes (boxStart + (p * 4 + k)) =
        (decodeBBox impl exp priorData locData varianceData p).coordinate k) ∧
      state.bboxSizes (sizeStart + p) =
        (decodeBBox impl exp priorData locData varianceData p).size) ∧
      DecodedIn buffers state boxStart (4 * actual) sizeStart actual n ∧
      state.numPriorsActual n = actual
  · have boxes := OnlyIn.refl buffers.decodedBboxes boxStart (4 * actual)
    have sizes := OnlyIn.refl buffers.bboxSizes sizeStart actual
    refine ⟨by omega,⟨boxes,sizes,?_⟩,write_same ..⟩
    intro m other
    exact write_other _ _ _ _ other
  · rintro i state within ⟨done,⟨boxes,sizes,others⟩,counted⟩
    refine ⟨?_,⟨?_,sizes.write _ _ (by omega) (by omega),others⟩,counted⟩
    · intro p low
      by_cases last : p = i
      · subst last
        refine ⟨?_,write_same ..⟩
        intro k few
        rcases (by omega : k = 0 ∨ k = 1 ∨ k = 2 ∨ k = 3) with rfl | rfl | rfl | rfl <;>
          simp [write,Bbox.coordinate]
      · obtain ⟨coordinates,size⟩ := done p (by omega)
        constructor
        · intro k few
          simp only
          rw [write_other _ _ _ _ (by omega),write_other _ _ _ _ (by omega),
            write_other _ _ _ _ (by omega),write_other _ _ _ _ (by omega)]
          exact coordinates k few
        · simp only
          rw [write_other _ _ _ _ (by omega)]
          exact size
    · apply OnlyIn.write _ _ _ (by omega) (by omega)
      apply OnlyIn.write _ _ _ (by omega) (by omega)
      apply OnlyIn.write _ _ _ (by omega) (by omega)
      exact boxes.write _ _ (by omega) (by omega)

omit [FloatType F] in
private theorem DecodedIn.refl (buffers : Buffers F)
    (boxStart boxSize sizeStart sizeCount n : Nat) :
    DecodedIn buffers buffers boxStart boxSize sizeStart sizeCount n where
  boxes := OnlyIn.refl _ _ _
  sizes := OnlyIn.refl _ _ _
  actual _ _ := rfl

omit [FloatType F] in
private theorem DecodedIn.trans {before middle after : Buffers F}
    {boxStart boxSize sizeStart sizeCount n : Nat}
    (first : DecodedIn before middle boxStart boxSize sizeStart sizeCount n)
    (second : DecodedIn middle after boxStart boxSize sizeStart sizeCount n) :
    DecodedIn before after boxStart boxSize sizeStart sizeCount n where
  boxes := first.boxes.trans second.boxes
  sizes := first.sizes.trans second.sizes
  actual m other := (second.actual m other).trans (first.actual m other)

private theorem Decoded.kept {impl : Impl F} {exp : F → F} {priorData : Memory F} {image : Image F}
    {before after : Buffers F} {n c boxStart boxSize sizeStart sizeCount m : Nat}
    (decoded : Decoded impl exp priorData image before n c)
    (writes : DecodedIn before after boxStart boxSize sizeStart sizeCount m)
    (boxesApart : let cell := (n * impl.numLocClasses + impl.locClass c) * (4 * impl.numPriors)
      cell + 4 * impl.numPriors ≤ boxStart ∨ boxStart + boxSize ≤ cell)
    (sizesApart : let cell := (n * impl.numLocClasses + impl.locClass c) * impl.numPriors
      cell + impl.numPriors ≤ sizeStart ∨ sizeStart + sizeCount ≤ cell) :
    Decoded impl exp priorData image after n c := by
  intro p low
  have within := numPriorsActual_le impl priorData
  obtain ⟨coordinates,size⟩ := decoded p low
  constructor
  · intro k few
    rw [writes.boxes _ (by omega)]
    exact coordinates k few
  · rw [writes.sizes _ (by omega)]
    exact size

private theorem decodeBBoxes_cell (impl : Impl F) (exp : F → F) (priorData : Memory F)
    (image : Image F) (n c : Nat) (buffers : Buffers F) :
    let cell := n * impl.numLocClasses + impl.locClass c
    let after := decodeBBoxes impl exp priorData (image.loc.offset (impl.locClass c * 4))
      (priorData.offset (impl.numPriors * impl.priorSize)) (cell * (4 * impl.numPriors))
      (cell * impl.numPriors) n buffers
    Decoded impl exp priorData image after n c ∧
      DecodedIn buffers after (cell * (4 * impl.numPriors)) (4 * impl.numPriors)
        (cell * impl.numPriors) impl.numPriors n ∧
      after.numPriorsActual n = numPriorsActual impl priorData := by
  intro cell after
  have within := numPriorsActual_le impl priorData
  obtain ⟨decoded,writes,counted⟩ := decodeBBoxes_writes impl exp priorData
    (image.loc.offset (impl.locClass c * 4)) (priorData.offset (impl.numPriors * impl.priorSize))
    (cell * (4 * impl.numPriors)) (cell * impl.numPriors) n buffers
  refine ⟨decoded,⟨writes.boxes.wider (le_refl _) (by omega),
    writes.sizes.wider (le_refl _) (by omega),writes.actual⟩,counted⟩

private theorem DecodedIn.ofCell {F : Type} {before after : Buffers F}
    {locClasses priors n cell : Nat}
    (writes : DecodedIn before after ((n * locClasses + cell) * (4 * priors)) (4 * priors)
      ((n * locClasses + cell) * priors) priors n) (within : cell < locClasses) :
    DecodedIn before after (n * (locClasses * (4 * priors))) (locClasses * (4 * priors))
      (n * (locClasses * priors)) (locClasses * priors) n where
  boxes := writes.boxes.ofCell within
  sizes := writes.sizes.ofCell within
  actual := writes.actual

/-- The classes of an image before this one are decoded, within its cells. -/
def DecodedImage (impl : Impl F) (exp : F → F) (priorData : Memory F) (image : Image F)
    (before after : Buffers F) (n classes : Nat) : Prop :=
  (∀ c, c < classes → (c : Int) ≠ impl.backgroundLabelId →
    Decoded impl exp priorData image after n c ∧
      after.numPriorsActual n = numPriorsActual impl priorData) ∧
    DecodedIn before after (n * (impl.numLocClasses * (4 * impl.numPriors)))
      (impl.numLocClasses * (4 * impl.numPriors)) (n * (impl.numLocClasses * impl.numPriors))
      (impl.numLocClasses * impl.numPriors) n

omit [FloatType F] in
private theorem imageAt_loc (impl : Impl F) (locData confData : Memory F) (n c : Nat) :
    (imageAt impl locData confData n).loc.offset (impl.locClass c * 4) =
      locData.offset (n * 4 * impl.numLocClasses * impl.numPriors + impl.locClass c * 4) :=
  offset_offset locData _ _

private theorem decodeImage_shared (impl : Impl F) (exp : F → F)
    (locData confData priorData : Memory F)
    (n : Nat) (buffers : Buffers F) (shared : impl.shareLocation = true) :
    DecodedImage impl exp priorData (imageAt impl locData confData n) buffers
      (decodeImage impl exp locData priorData n buffers) n impl.numClasses := by
  have one : impl.numLocClasses = 1 := by simp [Impl.numLocClasses,shared]
  have first : ∀ c, impl.locClass c = 0 := by simp [Impl.locClass,shared]
  have cells := fun c => decodeBBoxes_cell impl exp priorData (imageAt impl locData confData n) n c
    buffers
  have same : ∀ c, decodeBBoxes impl exp priorData
      ((imageAt impl locData confData n).loc.offset (impl.locClass c * 4))
      (priorData.offset (impl.numPriors * impl.priorSize))
      ((n * impl.numLocClasses + impl.locClass c) * (4 * impl.numPriors))
      ((n * impl.numLocClasses + impl.locClass c) * impl.numPriors) n buffers =
        decodeImage impl exp locData priorData n buffers := by
    intro c
    have boxStart : n * 4 * impl.numPriors = n * (4 * impl.numPriors) := by ring
    rw [imageAt_loc]
    simp [decodeImage,shared,one,first,boxStart]
  constructor
  · intro c _ _
    obtain ⟨decoded,-,counted⟩ := cells c
    rw [same c] at decoded counted
    exact ⟨decoded,counted⟩
  · obtain ⟨-,writes,-⟩ := cells 0
    rw [same 0,first 0] at writes
    exact writes.ofCell (by omega)

private theorem decodeImage_own (impl : Impl F) (exp : F → F)
    (locData confData priorData : Memory F)
    (n : Nat) (buffers : Buffers F) (own : impl.shareLocation = false) :
    DecodedImage impl exp priorData (imageAt impl locData confData n) buffers
      (decodeImage impl exp locData priorData n buffers) n impl.numClasses := by
  have all : impl.numLocClasses = impl.numClasses := by simp [Impl.numLocClasses,own]
  have each : ∀ c, impl.locClass c = c := by simp [Impl.locClass,own]
  have unfolded : decodeImage impl exp locData priorData n buffers =
      forLoop impl.numClasses (fun c buffers =>
        if (c : Int) = impl.backgroundLabelId then buffers
        else decodeBBoxes impl exp priorData
          ((imageAt impl locData confData n).loc.offset (impl.locClass c * 4))
          (priorData.offset (impl.numPriors * impl.priorSize))
          ((n * impl.numLocClasses + impl.locClass c) * (4 * impl.numPriors))
          ((n * impl.numLocClasses + impl.locClass c) * impl.numPriors) n buffers) buffers := by
    simp only [decodeImage,own,Bool.false_eq_true,if_false,all]
    apply forLoop_congr
    intro c state within
    have boxStart : n * 4 * impl.numClasses * impl.numPriors + c * 4 * impl.numPriors =
        (n * impl.numClasses + c) * (4 * impl.numPriors) := by ring
    have sizeStart : n * impl.numClasses * impl.numPriors + c * impl.numPriors =
        (n * impl.numClasses + c) * impl.numPriors := by ring
    rw [imageAt_loc,each,all,boxStart,sizeStart]
  rw [unfolded]
  apply forLoop_induct fun i (state : Buffers F) =>
    DecodedImage impl exp priorData (imageAt impl locData confData n) buffers state n i
  · exact ⟨by omega,.refl ..⟩
  · rintro i state within ⟨done,writes⟩
    by_cases background : (i : Int) = impl.backgroundLabelId
    · simp only [background,if_true]
      refine ⟨?_,writes⟩
      intro c low foreground
      apply done c _ foreground
      have different : c ≠ i := fun same => foreground (same ▸ background)
      omega
    · simp only [background,if_false]
      obtain ⟨decoded,more,counted⟩ := decodeBBoxes_cell impl exp priorData
        (imageAt impl locData confData n) n i state
      refine ⟨?_,writes.trans (more.ofCell (by rwa [each,all]))⟩
      intro c low foreground
      refine ⟨?_,counted⟩
      by_cases last : c = i
      · subst last
        exact decoded
      · have different : n * impl.numLocClasses + impl.locClass c ≠
            n * impl.numLocClasses + impl.locClass i := by
          rw [each,each]
          omega
        exact (done c (by omega) foreground).1.kept more (cell_apart _ different)
          (cell_apart _ different)

private theorem decodeImage_writes (impl : Impl F) (exp : F → F)
    (locData confData priorData : Memory F) (n : Nat) (buffers : Buffers F) :
    DecodedImage impl exp priorData (imageAt impl locData confData n) buffers
      (decodeImage impl exp locData priorData n buffers) n impl.numClasses := by
  cases shared : impl.shareLocation with
  | true => exact decodeImage_shared impl exp locData confData priorData n buffers shared
  | false => exact decodeImage_own impl exp locData confData priorData n buffers shared

private theorem decodeImages_decoded (impl : Impl F) (exp : F → F)
    (locData confData priorData : Memory F) (count : Nat) (buffers : Buffers F) (n c : Nat)
    (image : n < count) (class_lt : c < impl.numClasses)
    (foreground : (c : Int) ≠ impl.backgroundLabelId) :
    let after := forLoop count (decodeImage impl exp locData priorData) buffers
    Decoded impl exp priorData (imageAt impl locData confData n) after n c ∧
      after.numPriorsActual n = numPriorsActual impl priorData := by
  intro after
  have all := @forLoop_induct _ count (decodeImage impl exp locData priorData)
    (fun i (state : Buffers F) => ∀ m, m < i →
      Decoded impl exp priorData (imageAt impl locData confData m) state m c ∧
        state.numPriorsActual m = numPriorsActual impl priorData) buffers
  apply all _ _ n image
  · omega
  · intro i state within done m low
    obtain ⟨decoded,writes⟩ := decodeImage_writes impl exp locData confData priorData i state
    by_cases last : m = i
    · subst last
      exact decoded c class_lt foreground
    · obtain ⟨before,counted⟩ := done m (by omega)
      have inside := locClass_lt impl c class_lt
      refine ⟨before.kept writes (cells_apart _ inside last) (cells_apart _ inside last),?_⟩
      rw [writes.actual m last]
      exact counted

omit [FloatType F] in
private theorem reorderClass_confidences (impl : Impl F) (locData confData : Memory F) (n c : Nat)
    (buffers : Buffers F) :
    let after := reorderClass impl confData n c buffers
    (∀ p, p < impl.numPriors →
      after.reorderedConf ((n * impl.numClasses + c) * impl.numPriors + p) =
        (imageAt impl locData confData n).confidence impl c p) ∧
      after = {buffers with reorderedConf := after.reorderedConf} ∧
      buffers.reorderedConf.OnlyIn after.reorderedConf
        ((n * impl.numClasses + c) * impl.numPriors) impl.numPriors := by
  apply forLoop_induct fun i (state : Buffers F) =>
    (∀ p, p < i → state.reorderedConf ((n * impl.numClasses + c) * impl.numPriors + p) =
      (imageAt impl locData confData n).confidence impl c p) ∧
      state = {buffers with reorderedConf := state.reorderedConf} ∧
      buffers.reorderedConf.OnlyIn state.reorderedConf
        ((n * impl.numClasses + c) * impl.numPriors) impl.numPriors
  · exact ⟨by omega,rfl,OnlyIn.refl _ _ _⟩
  · rintro i state within ⟨done,same,changed⟩
    have target : n * impl.numPriors * impl.numClasses + c * impl.numPriors + i =
        (n * impl.numClasses + c) * impl.numPriors + i := by ring
    refine ⟨?_,by rw [same],?_⟩
    · intro p few
      simp only [target]
      by_cases last : p = i
      · subst last
        simp [Image.confidence,imageAt,Nat.add_assoc]
      · rw [write_other _ _ _ _ (by omega)]
        exact done p (by omega)
    · simp only [target]
      exact changed.write _ _ (by omega) (by omega)

omit [FloatType F] in
private theorem reorderImage_confidences (impl : Impl F) (locData confData : Memory F) (n : Nat)
    (buffers : Buffers F) :
    let after := reorderImage impl confData n buffers
    (∀ c p, c < impl.numClasses → p < impl.numPriors →
      after.reorderedConf ((n * impl.numClasses + c) * impl.numPriors + p) =
        (imageAt impl locData confData n).confidence impl c p) ∧
      after = {buffers with reorderedConf := after.reorderedConf} ∧
      buffers.reorderedConf.OnlyIn after.reorderedConf (n * (impl.numClasses * impl.numPriors))
        (impl.numClasses * impl.numPriors) := by
  apply forLoop_induct fun i (state : Buffers F) =>
    (∀ c p, c < i → p < impl.numPriors →
      state.reorderedConf ((n * impl.numClasses + c) * impl.numPriors + p) =
        (imageAt impl locData confData n).confidence impl c p) ∧
      state = {buffers with reorderedConf := state.reorderedConf} ∧
      buffers.reorderedConf.OnlyIn state.reorderedConf (n * (impl.numClasses * impl.numPriors))
        (impl.numClasses * impl.numPriors)
  · exact ⟨by omega,rfl,OnlyIn.refl _ _ _⟩
  · rintro i state within ⟨earlier,fields,region⟩
    obtain ⟨own,same,changed⟩ := reorderClass_confidences impl locData confData n i state
    refine ⟨?_,by rw [same,fields],?_⟩
    · intro c p low few
      by_cases last : c = i
      · subst last
        exact own p few
      · have different : n * impl.numClasses + c ≠ n * impl.numClasses + i := by omega
        have apart := cell_apart impl.numPriors different
        rw [changed _ (by omega)]
        exact earlier c p (by omega) few
    · exact region.trans (changed.ofCell within)

omit [FloatType F] in
private theorem reorderImages_confidences (impl : Impl F) (locData confData : Memory F)
    (count : Nat) (buffers : Buffers F) :
    let after := forLoop count (reorderImage impl confData) buffers
    (∀ n c p, n < count → c < impl.numClasses → p < impl.numPriors →
      after.reorderedConf ((n * impl.numClasses + c) * impl.numPriors + p) =
        (imageAt impl locData confData n).confidence impl c p) ∧
      after = {buffers with reorderedConf := after.reorderedConf} := by
  apply forLoop_induct fun i (state : Buffers F) =>
    (∀ n c p, n < i → c < impl.numClasses → p < impl.numPriors →
      state.reorderedConf ((n * impl.numClasses + c) * impl.numPriors + p) =
        (imageAt impl locData confData n).confidence impl c p) ∧
      state = {buffers with reorderedConf := state.reorderedConf}
  · exact ⟨by omega,rfl⟩
  · rintro i state within ⟨earlier,fields⟩
    obtain ⟨own,same,changed⟩ := reorderImage_confidences impl locData confData i state
    refine ⟨?_,by rw [same,fields]⟩
    intro n c p low class_lt few
    by_cases last : n = i
    · subst last
      exact own c p class_lt few
    · have apart := cells_apart impl.numPriors class_lt last
      rw [changed _ (by omega)]
      exact earlier n c p (by omega) class_lt few

omit [FloatType F] in
theorem clearCounts_counts (start count : Nat) (buffers : Buffers F) :
    let after := clearCounts start count buffers
    (∀ i, i < count → after.detectionsCount (start + i) = 0) ∧
      after = {buffers with detectionsCount := after.detectionsCount} ∧
      buffers.detectionsCount.OnlyIn after.detectionsCount start count := by
  apply forLoop_induct fun i (state : Buffers F) =>
    (∀ j, j < i → state.detectionsCount (start + j) = 0) ∧
      state = {buffers with detectionsCount := state.detectionsCount} ∧
      buffers.detectionsCount.OnlyIn state.detectionsCount start count
  · exact ⟨by omega,rfl,OnlyIn.refl _ _ _⟩
  · rintro i state within ⟨zeros,same,changed⟩
    refine ⟨?_,by rw [same],changed.write _ _ (by omega) (by omega)⟩
    intro j low
    by_cases last : j = i
    · subst last
      exact write_same ..
    · simp only
      rw [write_other _ _ _ _ (by omega)]
      exact zeros j (by omega)

theorem prepared (impl : Impl F) (exp : F → F) (locData confData priorData : Memory F) (count : Nat)
    (buffers : Buffers F) :
    let after := clearCounts 0 (count * impl.numClasses) (forLoop count (reorderImage impl confData)
      (forLoop count (decodeImage impl exp locData priorData) buffers))
    Prepared impl exp priorData (imageAt impl locData confData) count after ∧
      ∀ i, i < count * impl.numClasses → after.detectionsCount i = 0 := by
  intro after
  have decoded := decodeImages_decoded impl exp locData confData priorData count buffers
  obtain ⟨confidences,sameDecoded⟩ := reorderImages_confidences impl locData confData count
    (forLoop count (decodeImage impl exp locData priorData) buffers)
  obtain ⟨zeros,sameCleared,-⟩ := clearCounts_counts 0 (count * impl.numClasses)
    (forLoop count (reorderImage impl confData)
      (forLoop count (decodeImage impl exp locData priorData) buffers))
  refine ⟨⟨?_,?_,?_⟩,?_⟩
  · intro n c image class_lt foreground
    have counted := (decoded n c image class_lt foreground).2
    simp only [after]
    rw [sameCleared,sameDecoded]
    exact counted
  · intro n c image class_lt foreground p low
    have cell := (decoded n c image class_lt foreground).1 p low
    simp only [after]
    rw [sameCleared,sameDecoded]
    exact cell
  · intro n c p image class_lt low
    simp only [after]
    rw [sameCleared]
    exact confidences n c p image class_lt low
  · intro i low
    simpa using zeros i low

end VideoAnalytics.DetectionOutput
