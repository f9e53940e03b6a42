import VideoAnalytics.SimplerNmsGreedy
import Mathlib.Tactic.IntervalCases

/-! The rows that SimplerNMS writes, and those that a consumer reads behind them from
what the output held before. -/
namespace VideoAnalytics.SimplerNms
open Loop Sorting Memory
open RoiLayers (FloatInt realRois)

variable {F : Type} [FloatType F]

def roiRow (roi : Roi F) : Nat → F
  | 0 => ((0 : Int) : F)
  | 1 => roi.x0
  | 2 => roi.y0
  | 3 => roi.x1
  | _ => roi.y1

private theorem writeRois_rows (res : List (Roi F)) (dst : Memory F) :
    (∀ i, i < res.length → ∀ k (low : i < res.length), k < 5 →
      writeRois res dst (i * 5 + k) = roiRow res[i] k) ∧
      dst.OnlyIn (writeRois res dst) 0 (res.length * 5) := by
  unfold writeRois
  apply forLoop_fills 0 5 fun i (memory : Memory F) => ∀ k (low : i < res.length), k < 5 →
    memory (i * 5 + k) = roiRow res[i] k
  · intro i memory low k _ few
    rw [List.getElem?_eq_getElem low]
    simp only [write,Function.update_apply,Nat.mul_comm 5 i,Nat.add_left_cancel_iff]
    interval_cases k <;> simp [roiRow]
  · intro i old new _ before same k low few
    have kept := same k few
    rw [Nat.zero_add] at kept
    rw [kept]
    exact before k low few
  · intro i memory low
    rw [List.getElem?_eq_getElem low]
    apply_rules [OnlyIn.write,OnlyIn.refl] <;> omega

private theorem writeRois_cell (res : List (Roi F)) (dst : Memory F) {i k : Nat}
    (low : i < res.length) (few : k < 5) : writeRois res dst (i * 5 + k) = roiRow res[i] k :=
  (writeRois_rows res dst).1 i low k low few

private theorem writeRois_behind (res : List (Roi F)) (dst : Memory F) {address : Nat}
    (behind : res.length * 5 ≤ address) : writeRois res dst address = dst address :=
  (writeRois_rows res dst).2 address (.inr (by omega))

section Runs

variable [FloatInt F] (impl : Impl F) (exp : F → F) (sorts : Sorts F) (first second : ExtBlob F)
  (imInfo : Memory F)

/-- The proposals of execute that the sort keeps. -/
def keptProposals : List (Proposal F) :=
  let swapped := first.dim 1 > second.dim 1
  let srcCls := if swapped then second else first
  let srcDelta := if swapped then first else second
  sortAndKeepAtMostTopN sorts (collectProposals impl exp srcCls.data srcDelta.data imInfo
    (srcCls.dim 2) (srcCls.dim 3)) impl.preNmsTopn

/-- How many of them the greedy selection takes when it has no limit. -/
def compatible : Nat :=
  (Greedy.select (Conflicts impl.iouThreshold) []
    (examined (keptProposals impl exp sorts first second imInfo))).length

end Runs

section Consumer

variable [FloatInt F]

private theorem zero_goes_on : decide (FloatInt.toInt ((0 : Int) : F) = -1) = false := by
  have sign := FloatInt.toInt_nonneg (F := F) 0 (Int.le_refl 0)
  rw [decide_eq_false_iff_not]
  omega

private theorem written_goes_on (res : List (Roi F)) (dst : Memory F) {i : Nat}
    (low : i < res.length) :
    decide (FloatInt.toInt (writeRois res dst (i * 5 + 0)) = -1) = false := by
  rw [writeRois_cell res dst low (by decide)]
  exact zero_goes_on

/-- A marker behind the written rows ends the list there. -/
theorem realRois_marked (res : List (Roi F)) {nn : Nat} (room : res.length ≤ nn) :
    realRois nn (writeRois res fun _ => ((-1 : Int) : F)) = res.length := by
  unfold realRois
  apply scan_eq
  · intro i _ low
    exact written_goes_on res _ low
  · exact Nat.zero_le _
  · omega
  · right
    rw [writeRois_behind res _ (by omega),FloatInt.toInt_marker]
    rfl

/-- Rows of zeros behind the written ones are read as regions of interest. -/
theorem realRois_stale (res : List (Roi F)) (nn : Nat) :
    realRois nn (writeRois res fun _ => ((0 : Int) : F)) = nn := by
  unfold realRois
  apply scan_eq
  · intro i _ _
    by_cases written : i < res.length
    · exact written_goes_on res _ written
    · rw [writeRois_behind res _ (by omega)]
      exact zero_goes_on
  · exact Nat.zero_le _
  · omega
  · left
    omega

private theorem realRois_full (res : List (Roi F)) (dst : Memory F) {nn : Nat}
    (full : nn ≤ res.length) : realRois nn (writeRois res dst) = nn := by
  unfold realRois
  apply scan_eq
  · intro i _ low
    exact written_goes_on res dst (by omega)
  · exact Nat.zero_le _
  · omega
  · left
    omega

/-- What is consumed does not depend on the earlier contents if and only if all rows
that are consumed have been written. -/
theorem consumedRois_same_iff (res : List (Roi F)) (nn : Nat) :
    (∀ dst other : Memory F,
      consumedRois nn (writeRois res dst) = consumedRois nn (writeRois res other)) ↔
        nn ≤ res.length := by
  constructor
  · intro same
    by_contra short
    have lengths := congrArg List.length
      (same (fun _ => ((-1 : Int) : F)) fun _ => ((0 : Int) : F))
    unfold consumedRois at lengths
    rw [realRois_marked res (by omega),realRois_stale] at lengths
    simp only [List.length_map,List.length_range] at lengths
    omega
  · intro full dst other
    unfold consumedRois
    rw [realRois_full res dst full,realRois_full res other full]
    apply List.map_congr_left
    intro i member
    apply List.map_congr_left
    intro k few
    have low := List.mem_range.mp member
    rw [writeRois_cell res dst (by omega) (List.mem_range.mp few),
      writeRois_cell res other (by omega) (List.mem_range.mp few)]

/-- Two runs over different outputs leave the same regions of interest for the consumer. -/
def ConsumedFromInputs (impl : Impl F) (exp : F → F) (sorts : Sorts F)
    (first second : ExtBlob F) (imInfo : Memory F) : Prop :=
  ∀ dst other : Memory F,
    consumedRois impl.postNmsTopn (execute impl exp sorts first second imInfo dst) =
      consumedRois impl.postNmsTopn (execute impl exp sorts first second imInfo other)

/-- The regions of interest depend on the inputs alone if and only if the limit is
reached: at least post_nms_topn of the proposals are compatible. -/
theorem consumed_from_inputs_iff (impl : Impl F) (exp : F → F) (sorts : Sorts F)
    (first second : ExtBlob F) (imInfo : Memory F) :
    ConsumedFromInputs impl exp sorts first second imInfo ↔
      impl.postNmsTopn ≤ compatible impl exp sorts first second imInfo := by
  unfold ConsumedFromInputs execute
  rw [consumedRois_same_iff]
  rcases Nat.eq_zero_or_pos impl.postNmsTopn with none | some
  · simp only [none,Nat.zero_le]
  · rw [simplerNmsPerformNms_eq _ _ some,List.length_map,List.length_take,le_min_iff]
    exact and_iff_right (Nat.le_refl _)

end Consumer

/-- One place of a feature map and one row for a region of interest. -/
def onePlaceNms : Impl Rat where
  minBoxSize := 1
  featStride := 16
  preNmsTopn := 100
  postNmsTopn := 1
  iouThreshold := 1 / 2
  anchors := fun _ => ⟨0,0,15,15⟩

def onePlaceBlob (channels : Nat) (value : Rat) : ExtBlob Rat where
  dims := [1,channels,1,1]
  data := fun _ => value

def insertionSorts : Sorts Rat where
  sort := StdSort.insertion _
  partialSort := StdPartialSort.insertion _

def imageInfo : Memory Rat := fun i => if i = 2 then 1 else 100

theorem consumed_from_inputs_found : ConsumedFromInputs onePlaceNms (fun _ => 1) insertionSorts
    (onePlaceBlob 18 1) (onePlaceBlob 36 0) imageInfo :=
  (consumed_from_inputs_iff onePlaceNms (fun _ => 1) insertionSorts (onePlaceBlob 18 1)
    (onePlaceBlob 36 0) imageInfo).mpr (by decide +kernel)

/-- Without a positive confidence no row is written, and the consumer reads an old one. -/
theorem consumed_stale : ¬ConsumedFromInputs onePlaceNms (fun _ => 1) insertionSorts
    (onePlaceBlob 18 0) (onePlaceBlob 36 0) imageInfo := by
  intro same
  exact absurd (same (fun _ => -1) fun _ => 7) (by decide +kernel)

end VideoAnalytics.SimplerNms
