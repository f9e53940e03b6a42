import VideoAnalytics.DetectionOutputTable

/-! Locations that the classes share, and locations of its own for each class that
repeat them: the layer's status and output are the same. -/
namespace VideoAnalytics.DetectionOutput
open Loop Sorting Memory

variable {F : Type} [FloatType F]

/-- Every class of a prior repeats the four deltas that the classes share. -/
def Repeats {F : Type} (impl : Impl F) (images : Nat) (own shared : Memory F) : Prop :=
  ∀ n p c k, n < images → p < impl.numPriors → c < impl.numClasses → k < 4 →
    own (((n * impl.numPriors + p) * impl.numClasses + c) * 4 + k) =
      shared ((n * impl.numPriors + p) * 4 + k)

private theorem repeats_sameBoxes {impl : Impl F} {images n : Nat} {own shared : Memory F}
    (repeats : Repeats impl images own shared) (image : n < images) (exp : F → F)
    (confData priorData : Memory F) :
    SameBoxes impl false true exp priorData (imageAt (impl.sharing false) own confData n)
      (imageAt (impl.sharing true) shared confData n) where
  confidence _ _ _ _ := rfl
  box c p within low := by
    apply decodeBBox_congr
    intro k few
    have same := repeats n p c k image low within few
    have ownPlace : n * 4 * impl.numClasses * impl.numPriors +
        (c * 4 + (4 * p * impl.numClasses + k)) =
          ((n * impl.numPriors + p) * impl.numClasses + c) * 4 + k := by ring
    have sharedPlace : n * 4 * 1 * impl.numPriors + (0 * 4 + (4 * p * 1 + k)) =
        (n * impl.numPriors + p) * 4 + k := by ring
    rw [← ownPlace,← sharedPlace] at same
    exact same

private theorem tableRows_repeats {impl : Impl F} {images : Nat} {own shared : Memory F}
    (repeats : Repeats impl images own shared) (exp : F → F)
    (sort : StdSort (SortScorePairDescend (F := F))) (confData priorData : Memory F) :
    tableRows (impl.sharing false) exp sort priorData (imageAt (impl.sharing false) own confData)
        images =
      tableRows (impl.sharing true) exp sort priorData
        (imageAt (impl.sharing true) shared confData) images := by
  apply List.flatMap_congr
  intro n member
  have image := List.mem_range.mp member
  exact (repeats_sameBoxes repeats image exp confData priorData).rows sort n

private theorem writeOutput_congr (impl : Impl F) (share other : Bool) (images : Nat)
    (first second : Buffers F)
    (same : ∀ dst, writeRows (impl.sharing share) first 7 images dst =
      writeRows (impl.sharing other) second 7 images dst) (output : Blob F) :
    writeOutput (impl.sharing share) images first output =
      writeOutput (impl.sharing other) images second output := by
  unfold writeOutput writeTable
  by_cases width : output.dims.getD 3 0 = 7
  · simp only [width,same]
    rfl
  · simp only [ne_eq,width,not_false_eq_true,if_true]

private theorem execute_output (impl : Impl F) (exp : F → F)
    (sort : StdSort (SortScorePairDescend (F := F))) (images : Nat)
    (locData confData priorData : Memory F) (output : Blob F) (buffers : Buffers F) :
    (execute impl exp sort images locData confData priorData output buffers).map
        (fun result => result.1) =
      writeOutput impl images (detectBatch impl exp sort images locData confData priorData buffers)
        output := by
  unfold execute
  dsimp only
  cases writeOutput impl images
    (detectBatch impl exp sort images locData confData priorData buffers) output with
  | error fault => rfl
  | ok written => rfl

/-- Whatever the buffers hold before, shared locations and locations that repeat
them lead to the same status and output. -/
theorem share_location_agrees (impl : Impl F) (exp : F → F)
    (sort : StdSort (SortScorePairDescend (F := F))) (images : Nat)
    (own shared confData priorData : Memory F) (output : Blob F) (buffers others : Buffers F)
    (repeats : Repeats impl images own shared) :
    (execute (impl.sharing false) exp sort images own confData priorData output buffers).map
        (fun result => result.1) =
      (execute (impl.sharing true) exp sort images shared confData priorData output others).map
        (fun result => result.1) := by
  rw [execute_output,execute_output]
  obtain ⟨ownListed,ownReady⟩ := detectBatch_listed (impl.sharing false) exp sort images own
    confData priorData buffers
  obtain ⟨sharedListed,sharedReady⟩ := detectBatch_listed (impl.sharing true) exp sort images shared
    confData priorData others
  apply writeOutput_congr
  intro dst
  rw [writeRows_eq sort ownReady ownListed,writeRows_eq sort sharedReady sharedListed,
    tableRows_repeats repeats]

def sharedDeltas : Memory Rat := listMemory [0,0,0,0,0,0,1,1]

def repeatedDeltas : Memory Rat := fun i => sharedDeltas (i / 8 * 4 + i % 4)

private theorem repeatedDeltas_repeats : Repeats twoPriors 1 repeatedDeltas sharedDeltas := by
  intro n p c k image low within few
  have classes : c < 2 := within
  have place : (((n * twoPriors.numPriors + p) * 2 + c) * 4 + k) / 8 * 4 +
      (((n * twoPriors.numPriors + p) * 2 + c) * 4 + k) % 4 =
        (n * twoPriors.numPriors + p) * 4 + k := by omega
  exact congrArg sharedDeltas place

theorem share_location_two_priors :
    (execute (twoPriors.sharing false) id (StdSort.insertion _) 1 repeatedDeltas
        (listMemory [1 / 10,8 / 10,1 / 10,9 / 10]) (listMemory [0,0,1,1,2,2,3,3]) emptyTable
        staleBuffers).map (fun result => result.1) =
      (execute (twoPriors.sharing true) id (StdSort.insertion _) 1 sharedDeltas
        (listMemory [1 / 10,8 / 10,1 / 10,9 / 10]) (listMemory [0,0,1,1,2,2,3,3]) emptyTable
        staleBuffers).map (fun result => result.1) :=
  share_location_agrees twoPriors id (StdSort.insertion _) 1 repeatedDeltas sharedDeltas
    (listMemory [1 / 10,8 / 10,1 / 10,9 / 10]) (listMemory [0,0,1,1,2,2,3,3]) emptyTable
    staleBuffers staleBuffers repeatedDeltas_repeats

end VideoAnalytics.DetectionOutput
