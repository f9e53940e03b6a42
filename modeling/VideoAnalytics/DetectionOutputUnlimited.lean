import VideoAnalytics.DetectionOutputGreedy
import VideoAnalytics.DetectionOutputTable

/-! keep_top_k -1, which the cut takes for no limit and the byte count of the output
for a number of rows. -/
namespace VideoAnalytics.DetectionOutput
open Loop Sorting Memory

variable {F : Type} [FloatType F]

def survivorRows (impl : Impl F) (exp : F → F) (priorData : Memory F) (images : Nat → Image F)
    (count : Nat) : List (List F) :=
  (List.range count).flatMap fun n =>
    (allSurvivors impl exp priorData (images n)).map (row impl exp priorData (images n) n)

/-- execute succeeds, and the output holds all survivors and, where a row is left,
the end marker behind them. -/
def KeepsEverything (impl : Impl F) (exp : F → F) (sort : StdSort (SortScorePairDescend (F := F)))
    (images : Nat) (locData confData priorData : Memory F) (output : Blob F) (buffers : Buffers F) :
    Prop :=
  let rows := survivorRows impl exp priorData (imageAt impl locData confData) images
  ∃ result after, execute impl exp sort images locData confData priorData output buffers =
      .ok ((.ok,result),after) ∧
    result.data.take (rows.length * 7) = rows.flatten ∧
    (rows.length * 7 < result.data.length →
      result.data[rows.length * 7]? = some ((-1 : Int) : F))

/-- The byte count of minus one rows for each image is beyond any blob. -/
theorem dstDataSize_negative {images bytes : Nat} (nonempty : 0 < images)
    (addressable : bytes + 28 * images < 2 ^ 64) :
    bytes < ((images * (-1) * (7 : Nat)) % 2 ^ 64 * 4 % 2 ^ 64 : Int).toNat := by
  have wraps : ((images * (-1) * (7 : Nat)) % 2 ^ 64 : Int) = 2 ^ 64 - 7 * images := by
    have below : (images * (-1) * (7 : Nat) : Int) = 2 ^ 64 - 7 * images + 2 ^ 64 * (-1) := by
      push_cast
      ring
    rw [below,Int.add_mul_emod_self_left]
    apply Int.emod_eq_of_lt <;> omega
  have wrapsAgain : ((2 ^ 64 - 7 * images) * 4 % 2 ^ 64 : Int) = 2 ^ 64 - 28 * images := by
    have above : ((2 ^ 64 - 7 * images) * 4 : Int) = 2 ^ 64 - 28 * images + 2 ^ 64 * 3 := by ring
    rw [above,Int.add_mul_emod_self_left]
    apply Int.emod_eq_of_lt <;> omega
  rw [wraps,wrapsAgain]
  omega

private theorem execute_unlimited (impl : Impl F) (exp : F → F)
    (sort : StdSort (SortScorePairDescend (F := F))) {images : Nat}
    (locData confData priorData : Memory F) (output : Blob F) (buffers : Buffers F)
    (unlimited : impl.keepTopK = -1) (width : output.dims.getD 3 0 = 7) (nonempty : 0 < images)
    (addressable : output.byteSize + 28 * images < 2 ^ 64) :
    execute impl exp sort images locData confData priorData output buffers =
      .ok ((.outOfBounds,output),
        detectBatch impl exp sort images locData confData priorData buffers) := by
  have beyond := dstDataSize_negative nonempty addressable
  unfold execute writeOutput
  simp only [width,unlimited,ne_eq,not_true_eq_false,if_false,dif_neg (not_le.mpr beyond)]
  rfl

private theorem execute_empty (impl : Impl F) (exp : F → F)
    (sort : StdSort (SortScorePairDescend (F := F))) (locData confData priorData : Memory F)
    (output : Blob F) (buffers : Buffers F) (width : output.dims.getD 3 0 = 7) :
    ∃ result after, execute impl exp sort 0 locData confData priorData output buffers =
      .ok ((.ok,result),after) ∧ result.data = output.data := by
  refine ⟨output.memset 0 (Nat.zero_le _),
    detectBatch impl exp sort 0 locData confData priorData buffers,?_,?_⟩
  · unfold execute writeOutput
    simp only [width,ne_eq,not_true_eq_false,if_false]
    simp [writeTable,writeRows,tryLoop]
    rfl
  · simp [Blob.memset]

/-- Without a limit everything is kept if and only if there is no image, and no row
or already a marker in the first one. -/
theorem everything_kept_iff (impl : Impl F) (exp : F → F)
    (sort : StdSort (SortScorePairDescend (F := F))) (images rows : Nat)
    (locData confData priorData : Memory F) (output : Blob F) (buffers : Buffers F)
    (unlimited : impl.keepTopK = -1) (width : output.dims.getD 3 0 = 7)
    (size : output.data.length = rows * 7)
    (room : (survivorRows impl exp priorData (imageAt impl locData confData) images).length ≤ rows)
    (addressable : output.byteSize + 28 * images < 2 ^ 64) :
    KeepsEverything impl exp sort images locData confData priorData output buffers ↔
      images = 0 ∧ (rows = 0 ∨ output.data[0]? = some ((-1 : Int) : F)) := by
  unfold KeepsEverything
  rcases Nat.eq_zero_or_pos images with rfl | positive
  · obtain ⟨result,after,executed,data⟩ := execute_empty impl exp sort locData confData priorData
      output buffers width
    have room : 0 < output.data.length ↔ rows ≠ 0 := by omega
    rw [executed]
    constructor
    · rintro ⟨shown,later,same,-,marked⟩
      obtain ⟨⟨-,rfl⟩,-⟩ := Prod.mk.inj (Except.ok.inj same)
      refine ⟨rfl,or_iff_not_imp_left.mpr ?_⟩
      intro left
      rw [data] at marked
      exact marked (room.mpr left)
    · rintro ⟨-,last⟩
      refine ⟨result,after,rfl,rfl,?_⟩
      intro left
      rw [data] at left ⊢
      exact last.resolve_left (room.mp left)
  · rw [execute_unlimited impl exp sort locData confData priorData output buffers unlimited width
      positive addressable]
    constructor
    · rintro ⟨result,after,executed,-⟩
      simp at executed
    · rintro ⟨rfl,-⟩
      omega

def table (rows : Nat) (addressable : 4 * (rows * 7) < 2 ^ 64) : Blob Rat where
  dims := [1,1,rows,7]
  data := List.replicate (rows * 7) 5
  filled := by simp
  addressable := by simpa using addressable

theorem everything_kept_iff_empty :
    KeepsEverything oneClass id (StdSort.insertion _) 0 (listMemory []) (listMemory [])
      (listMemory []) (table 0 (by decide)) staleBuffers :=
  (everything_kept_iff oneClass id (StdSort.insertion _) 0 0 (listMemory []) (listMemory [])
    (listMemory []) (table 0 (by decide)) staleBuffers rfl rfl rfl (by decide) (by decide)).mpr
    ⟨rfl,.inl rfl⟩

/-- Two survivors and a table of two rows, which execute takes for too small. -/
theorem survivors_not_kept :
    (survivorRows oneClass id fourBoxes (imageAt oneClass (fun _ => 0) fourConfidences) 1).length = 2 ∧
      ¬KeepsEverything oneClass id (StdSort.insertion _) 1 (fun _ => 0) fourConfidences fourBoxes
        (table 2 (by decide)) staleBuffers := by
  refine ⟨by decide +kernel,?_⟩
  rintro ⟨result,after,executed,-⟩
  rw [execute_unlimited oneClass id (StdSort.insertion _) _ _ _ (table 2 (by decide)) staleBuffers
    rfl rfl Nat.one_pos (by decide)] at executed
  simp at executed

end VideoAnalytics.DetectionOutput
