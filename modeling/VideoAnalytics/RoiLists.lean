import VideoAnalytics.DetectionOutputSpec
import VideoAnalytics.RoiLayers
import Mathlib.Tactic.IntervalCases

/-! The region list of an image as Proposal leaves it, and the two layers that
look for its end: they agree on the number of regions. -/
namespace VideoAnalytics.RoiLayers
open Loop Memory DetectionOutput

section Proposal

variable {F : Type} [FloatType F] (numRois : Nat) (itemIndex : Int) (numProposals : Nat)
  (proposals : Memory F) (roiIndices : Memory Nat) (rois : Memory F) (postNmsTopn : Nat)

def roiRow (roi : Nat) : Nat → F
  | 0 => (itemIndex : F)
  | 1 => proposals (0 * numProposals + roiIndices roi)
  | 2 => proposals (1 * numProposals + roiIndices roi)
  | 3 => proposals (2 * numProposals + roiIndices roi)
  | _ => proposals (3 * numProposals + roiIndices roi)

private theorem writeRoi_row (roi field : Nat) (within : field < 5) :
    writeRoi itemIndex numProposals proposals roiIndices roi rois (roi * 5 + field) =
      roiRow itemIndex numProposals proposals roiIndices roi field := by
  unfold writeRoi
  interval_cases field
  all_goals simp [Memory.write,roiRow]

private theorem writeRoi_only (roi : Nat) :
    rois.OnlyIn (writeRoi itemIndex numProposals proposals roiIndices roi rois) (roi * 5) 5 := by
  intro address outside
  unfold writeRoi
  rw [write_other _ _ _ _ (by omega),write_other _ _ _ _ (by omega),
    write_other _ _ _ _ (by omega),write_other _ _ _ _ (by omega),write_other _ _ _ _ (by omega)]

theorem retrieveRois_row (roi field : Nat) (listed : roi < numRois) (within : field < 5) :
    retrieveRoisCpu numRois itemIndex numProposals proposals roiIndices rois postNmsTopn
      (roi * 5 + field) = roiRow itemIndex numProposals proposals roiIndices roi field := by
  have written : forLoop numRois (writeRoi itemIndex numProposals proposals roiIndices) rois
      (roi * 5 + field) = roiRow itemIndex numProposals proposals roiIndices roi field := by
    refine (forLoop_fills 0 5 (fun roi (memory : Memory F) => ∀ field, field < 5 →
      memory (roi * 5 + field) = roiRow itemIndex numProposals proposals roiIndices roi field)
      rois ?_ ?_ ?_).1 roi listed field within
    · intro roi memory _ field low
      exact writeRoi_row itemIndex numProposals proposals roiIndices memory roi field low
    · intro roi old new _ rows same field low
      have unchanged := same field low
      rw [Nat.zero_add] at unchanged
      rw [unchanged]
      exact rows field low
    · intro roi memory _
      rw [Nat.zero_add]
      exact writeRoi_only itemIndex numProposals proposals roiIndices memory roi
  have row := cell_within listed within
  unfold retrieveRoisCpu
  by_cases short : numRois < postNmsTopn
  · have zeroes : ∀ (memory : Memory F) (count : Nat), memory.OnlyIn (forLoop count
        (fun i (rois : Memory F) => rois.write (5 * numRois + i) ((0 : Int) : F)) memory)
        (5 * numRois) count := by
      intro memory count
      apply forLoop_induct fun _ after => memory.OnlyIn after (5 * numRois) count
      · exact OnlyIn.refl _ _ _
      · intro i after within only
        exact only.write _ _ (by omega) (by omega)
    simp only [if_pos short]
    rw [write_other _ _ _ _ (by omega),zeroes _ _ _ (by omega)]
    exact written
  · simp only [if_neg short]
    exact written

private theorem retrieveRois_marker (short : numRois < postNmsTopn) :
    retrieveRoisCpu numRois itemIndex numProposals proposals roiIndices rois postNmsTopn
      (numRois * 5 + 0) = ((-1 : Int) : F) := by
  unfold retrieveRoisCpu
  simp only [if_pos short]
  exact write_same ..

variable [FloatInt F] {numRois itemIndex postNmsTopn}

private theorem realRois_retrieved (sign : 0 ≤ itemIndex) (fits : numRois ≤ postNmsTopn) :
    realRois postNmsTopn (retrieveRoisCpu numRois itemIndex numProposals proposals roiIndices rois
      postNmsTopn) = numRois := by
  apply scan_eq
  · intro roi _ listed
    rw [decide_eq_false_iff_not,
      retrieveRois_row numRois itemIndex numProposals proposals roiIndices rois postNmsTopn roi 0
        listed (by omega)]
    have positive := FloatInt.toInt_nonneg (F := F) itemIndex sign
    simp only [roiRow]
    omega
  · exact Nat.zero_le _
  · omega
  · rcases Nat.lt_or_eq_of_le fits with short | full
    · right
      rw [decide_eq_true_eq,retrieveRois_marker _ _ _ _ _ _ _ short]
      exact FloatInt.toInt_marker
    · left
      omega

private theorem numPriorsActual_retrieved (impl : Impl F) (unnormalized : impl.normalized = false)
    (sign : 0 ≤ itemIndex) (fits : numRois ≤ impl.numPriors) :
    numPriorsActual impl (retrieveRoisCpu numRois itemIndex numProposals proposals roiIndices rois
      impl.numPriors) = numRois := by
  have size : impl.priorSize = 5 := by simp [Impl.priorSize,unnormalized]
  unfold numPriorsActual
  rw [unnormalized,size,Bool.not_false,if_pos rfl,priorsBeforeMarker_scan]
  apply scan_eq
  · intro roi _ listed
    rw [retrieveRois_row numRois itemIndex numProposals proposals roiIndices rois impl.numPriors roi 0
      listed (by omega)]
    exact FloatInt.beq_nonneg itemIndex sign
  · exact Nat.zero_le _
  · omega
  · rcases Nat.lt_or_eq_of_le fits with short | full
    · right
      rw [retrieveRois_marker _ _ _ _ _ _ _ short]
      exact FloatInt.beq_marker
    · left
      omega

end Proposal

section Pooling

variable {F : Type} [FloatType F] (impl : PSROIPoolingImpl F)

omit [FloatType F] in
private theorem index_cell (n c h w : Nat) : impl.index n c h w =
    n * (impl.nc * (impl.nh * impl.nw)) + (c * (impl.nh * impl.nw) + (h * impl.nw + w)) := by
  unfold PSROIPoolingImpl.index
  ring

omit [FloatType F] in
private theorem row_filled (n c h : Nat) (bin : Nat → F) (dstData : Memory F) :
    (∀ w, w < impl.nw → forLoop impl.nw (fun w (dstData : Memory F) =>
      dstData.write (impl.index n c h w) (bin w)) dstData (impl.index n c h w) = bin w) ∧
      dstData.OnlyIn (forLoop impl.nw (fun w (dstData : Memory F) =>
        dstData.write (impl.index n c h w) (bin w)) dstData) (impl.index n c h 0) impl.nw := by
  have place : ∀ w, impl.index n c h w = impl.index n c h 0 + w := fun w => rfl
  have filled := @forLoop_fills F (impl.index n c h 0) 1 impl.nw
    (fun w (dstData : Memory F) => dstData.write (impl.index n c h w) (bin w))
    (fun w (memory : Memory F) => memory (impl.index n c h w) = bin w) dstData ?_ ?_ ?_
  · rw [Nat.mul_one] at filled
    exact filled
  · intro w memory _
    exact write_same ..
  · intro w old new _ value same
    have unchanged := same 0 Nat.one_pos
    rw [Nat.mul_one,Nat.add_zero,← place] at unchanged
    rw [unchanged,value]
  · intro w memory _ address outside
    exact write_other _ _ _ _ (by rw [place]; omega)

omit [FloatType F] in
private theorem channel_filled (n c : Nat) (bin : Nat → Nat → F) (dstData : Memory F) :
    (∀ h, h < impl.nh → ∀ w, w < impl.nw → forLoop impl.nh (fun h dstData => forLoop impl.nw
      (fun w (dstData : Memory F) => dstData.write (impl.index n c h w) (bin h w)) dstData) dstData
        (impl.index n c h w) = bin h w) ∧
      dstData.OnlyIn (forLoop impl.nh (fun h dstData => forLoop impl.nw
        (fun w (dstData : Memory F) => dstData.write (impl.index n c h w) (bin h w)) dstData) dstData)
        (impl.index n c 0 0) (impl.nh * impl.nw) := by
  have place : ∀ h w, impl.index n c h w = impl.index n c 0 0 + (h * impl.nw + w) := by
    intro h w
    simp only [index_cell]
    ring
  refine forLoop_fills _ _ (fun h (memory : Memory F) => ∀ w, w < impl.nw →
    memory (impl.index n c h w) = bin h w) dstData ?_ ?_ ?_
  · intro h memory _
    exact (row_filled impl n c h (bin h) memory).1
  · intro h old new _ values same w low
    rw [place,same w low,← place]
    exact values w low
  · intro h memory _
    have only := (row_filled impl n c h (bin h) memory).2
    rw [place,Nat.add_zero] at only
    exact only

omit [FloatType F] in
private theorem writeBins_filled (n : Nat) (bin : Nat → Nat → Nat → F) (dstData : Memory F) :
    (∀ c, c < impl.nc → ∀ h, h < impl.nh → ∀ w, w < impl.nw →
      writeBins impl n bin dstData (impl.index n c h w) = bin c h w) ∧
      dstData.OnlyIn (writeBins impl n bin dstData) (n * (impl.nc * (impl.nh * impl.nw)))
        (impl.nc * (impl.nh * impl.nw)) := by
  refine forLoop_fills _ _ (fun c (memory : Memory F) => ∀ h, h < impl.nh → ∀ w, w < impl.nw →
    memory (impl.index n c h w) = bin c h w) dstData ?_ ?_ ?_
  · intro c memory _
    exact (channel_filled impl n c (bin c) memory).1
  · intro c old new _ values same h low w inside
    rw [index_cell,same (h * impl.nw + w) (cell_within low inside),← index_cell]
    exact values h low w inside
  · intro c memory _
    have only := (channel_filled impl n c (bin c) memory).2
    rw [index_cell,Nat.zero_mul,Nat.zero_add,Nat.add_zero] at only
    exact only

omit [FloatType F] in
private theorem regions_filled (first count : Nat) (bin : Nat → Nat → Nat → Nat → F)
    (dstData : Memory F) :
    (∀ i, i < count → ∀ c, c < impl.nc → ∀ h, h < impl.nh → ∀ w, w < impl.nw →
      forLoop count (fun i dstData => writeBins impl (first + i) (bin (first + i)) dstData) dstData
        (impl.index (first + i) c h w) = bin (first + i) c h w) ∧
      dstData.OnlyIn (forLoop count (fun i dstData =>
        writeBins impl (first + i) (bin (first + i)) dstData) dstData)
        (first * (impl.nc * (impl.nh * impl.nw))) (count * (impl.nc * (impl.nh * impl.nw))) := by
  refine forLoop_fills _ _ (fun i (memory : Memory F) => ∀ c, c < impl.nc → ∀ h, h < impl.nh →
    ∀ w, w < impl.nw → memory (impl.index (first + i) c h w) = bin (first + i) c h w) dstData ?_ ?_ ?_
  · intro i memory _
    exact (writeBins_filled impl (first + i) (bin (first + i)) memory).1
  · intro i old new _ values same c channel h low w inside
    have cell := cell_within channel (cell_within low inside)
    rw [index_cell,Nat.add_mul,Nat.add_assoc,same _ cell,← Nat.add_assoc,← Nat.add_mul,← index_cell]
    exact values c channel h low w inside
  · intro i memory _
    have only := (writeBins_filled impl (first + i) (bin (first + i)) memory).2
    rw [Nat.add_mul] at only
    exact only

variable [FloatInt F] (math : Rounding F) (bottomData : Int → F) (bottomRois dstData : Memory F)

private theorem execute_filled (n c h w : Nat) (region : n < impl.nn) (channel : c < impl.nc)
    (low : h < impl.nh) (inside : w < impl.nw) :
    execute impl math bottomData bottomRois dstData (impl.index n c h w) =
      if n < realRois impl.nn bottomRois then poolBin impl math bottomData bottomRois n c h w
      else ((0 : Int) : F) := by
  have pooled := regions_filled impl 0 (realRois impl.nn bottomRois)
    (fun n c h w => poolBin impl math bottomData bottomRois n c h w) dstData
  simp only [Nat.zero_add] at pooled
  have cleared := regions_filled impl (realRois impl.nn bottomRois)
    (impl.nn - realRois impl.nn bottomRois) (fun _ _ _ _ => ((0 : Int) : F))
    (forLoop (realRois impl.nn bottomRois) (fun n dstData => writeBins impl n
      (fun c h w => poolBin impl math bottomData bottomRois n c h w) dstData) dstData)
  unfold execute
  by_cases listed : n < realRois impl.nn bottomRois
  · rw [if_pos listed,cleared.2 _ (.inl ?_)]
    · exact pooled.1 n listed c channel h low w inside
    · rw [index_cell]
      exact cell_within listed (cell_within channel (cell_within low inside))
  · rw [if_neg listed]
    have value := cleared.1 (n - realRois impl.nn bottomRois) (by omega) c channel h low w inside
    rw [show realRois impl.nn bottomRois + (n - realRois impl.nn bottomRois) = n by omega] at value
    exact value

private theorem execute_only : dstData.OnlyIn (execute impl math bottomData bottomRois dstData) 0
    (impl.nn * (impl.nc * (impl.nh * impl.nw))) := by
  have bound := scan_le (fun realRois => FloatInt.toInt (bottomRois (realRois * 5 + 0)) = -1) impl.nn 0
  rw [Nat.zero_add] at bound
  have counted : realRois impl.nn bottomRois ≤ impl.nn := bound
  have pooled := (regions_filled impl 0 (realRois impl.nn bottomRois)
    (fun n c h w => poolBin impl math bottomData bottomRois n c h w) dstData).2
  simp only [Nat.zero_add,Nat.zero_mul] at pooled
  have cleared := (regions_filled impl (realRois impl.nn bottomRois)
    (impl.nn - realRois impl.nn bottomRois) (fun _ _ _ _ => ((0 : Int) : F))
    (forLoop (realRois impl.nn bottomRois) (fun n dstData => writeBins impl n
      (fun c h w => poolBin impl math bottomData bottomRois n c h w) dstData) dstData)).2
  apply (pooled.wider (Nat.le_refl _) ?_).trans
  · apply cleared.wider (Nat.zero_le _)
    rw [← Nat.add_mul,Nat.zero_add,Nat.add_sub_cancel' counted]
  · rw [Nat.zero_add,Nat.zero_add]
    exact Nat.mul_le_mul_right _ counted

end Pooling

section Lists

variable {F : Type} [FloatType F] [FloatInt F]

/-- Over any earlier contents, the list that Proposal writes for an image is read
to its exact end: the pooling layer pools the listed regions and clears the rest,
and the detection layer counts as many priors. -/
theorem roi_lists_agree (numRois : Nat) (itemIndex : Int) (numProposals : Nat)
    (proposals : Memory F) (roiIndices : Memory Nat) (rois : Memory F) (postNmsTopn : Nat)
    (sign : 0 ≤ itemIndex) (fits : numRois ≤ postNmsTopn) (pooling : PSROIPoolingImpl F)
    (regions : pooling.nn = postNmsTopn) (math : Rounding F) (bottomData : Int → F)
    (dstData : Memory F) (detection : Impl F) (unnormalized : detection.normalized = false)
    (priors : detection.numPriors = postNmsTopn) :
    let list := retrieveRoisCpu numRois itemIndex numProposals proposals roiIndices rois postNmsTopn
    let output := execute pooling math bottomData list dstData
    realRois pooling.nn list = numRois ∧
    (∀ n c h w, n < numRois → c < pooling.nc → h < pooling.nh → w < pooling.nw →
      output (pooling.index n c h w) = poolBin pooling math bottomData list n c h w) ∧
    (∀ n c h w, numRois ≤ n → n < pooling.nn → c < pooling.nc → h < pooling.nh → w < pooling.nw →
      output (pooling.index n c h w) = ((0 : Int) : F)) ∧
    dstData.OnlyIn output 0 (pooling.nn * (pooling.nc * (pooling.nh * pooling.nw))) ∧
    (∀ n field, n < numRois → field < 5 →
      list (n * 5 + field) = roiRow itemIndex numProposals proposals roiIndices n field) ∧
    numPriorsActual detection list = numRois := by
  intro list output
  subst regions
  have counted : realRois pooling.nn list = numRois :=
    realRois_retrieved numProposals proposals roiIndices rois sign fits
  refine ⟨counted,?_,?_,execute_only pooling math bottomData list dstData,?_,?_⟩
  · intro n c h w listed channel low inside
    have value := execute_filled pooling math bottomData list dstData n c h w (by omega) channel low
      inside
    rw [counted,if_pos listed] at value
    exact value
  · intro n c h w beyond region channel low inside
    have value := execute_filled pooling math bottomData list dstData n c h w region channel low
      inside
    rw [counted,if_neg (by omega)] at value
    exact value
  · intro n field listed within
    exact retrieveRois_row numRois itemIndex numProposals proposals roiIndices rois pooling.nn n field
      listed within
  · have found := numPriorsActual_retrieved numProposals proposals roiIndices rois detection
      unnormalized sign (show numRois ≤ detection.numPriors by omega)
    rw [priors] at found
    exact found

end Lists

def unnormalizedPriors : Impl Rat where
  numClasses := 2
  backgroundLabelId := 0
  topK := -1
  varianceEncodedInTarget := true
  keepTopK := 1
  nmsThreshold := 1 / 2
  confidenceThreshold := 1 / 10
  shareLocation := true
  normalized := false
  imageHeight := 8
  imageWidth := 8
  codeType := .corner
  numPriors := 2

theorem roi_lists_agree_one_of_two :
    let list : Memory Rat := retrieveRoisCpu 1 3 1 (fun i => i) (fun _ => 0) (fun _ => 7) 2
    realRois 2 list = 1 ∧ numPriorsActual unnormalizedPriors list = 1 := by
  obtain ⟨counted,-,-,-,-,priors⟩ := roi_lists_agree 1 3 1 (fun i => (i : Rat)) (fun _ => 0)
    (fun _ => 7) 2 (by decide) (by decide)
    (PSROIPoolingImpl.mk 1 (1 / 16) 1 1 1 8 8 2 1 1 1) rfl ⟨id,id,id⟩ (fun _ => 1) (fun _ => 5)
    unnormalizedPriors rfl rfl
  exact ⟨counted,priors⟩

end VideoAnalytics.RoiLayers
