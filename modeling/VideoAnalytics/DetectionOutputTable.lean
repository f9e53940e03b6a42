import VideoAnalytics.DetectionOutputDetect
import VideoAnalytics.DetectionOutputBest

/-! The table that execute writes: the rows of the detections of all images, one
after the other, and the end of the list. -/
namespace VideoAnalytics.DetectionOutput
open Loop Sorting Memory

variable {F : Type}

def writeValues (dst : Blob F) : Nat → List F → Except Fault (Blob F)
  | _, [] => .ok dst
  | index, value :: values => do
    let dst ← dst.write index value
    writeValues dst (index + 1) values

private theorem bind_ok {ε α : Type} (result : Except ε α) :
    (do let value ← result; .ok value) = result := by
  cases result <;> rfl

def appendRow (state : Nat × Blob F) (values : List F) : Except Fault (Nat × Blob F) := do
  let dst ← writeValues state.2 (state.1 * 7) values
  .ok (state.1 + 1,dst)

private theorem write_within (blob : Blob F) (front back : List F) (old value : F) (index : Nat)
    (position : index = front.length) (data : blob.data = front ++ old :: back) :
    ∃ after, blob.write index value = .ok after ∧ after.data = front ++ value :: back ∧
      after.dims = blob.dims := by
  have within : index < blob.data.length := by
    rw [data,position]
    simp
  unfold Blob.write
  rw [if_pos within]
  refine ⟨_,rfl,?_,rfl⟩
  simp [data,position]

private theorem writeValues_within (blob : Blob F) (front old values back : List F) (index : Nat)
    (position : index = front.length) (length : old.length = values.length)
    (data : blob.data = front ++ old ++ back) :
    ∃ after, writeValues blob index values = .ok after ∧ after.data = front ++ values ++ back ∧
      after.dims = blob.dims := by
  induction values generalizing blob front old index with
  | nil =>
    rw [List.eq_nil_of_length_eq_zero length] at data
    exact ⟨blob,rfl,data,rfl⟩
  | cons value values ih =>
    obtain ⟨first,rest,rfl⟩ := List.exists_cons_of_length_eq_add_one length
    obtain ⟨middle,written,contents,dims⟩ := write_within blob front (rest ++ back) first value index
      position (by simpa using data)
    obtain ⟨after,more,final,same⟩ := ih middle (front ++ [value]) rest (index + 1)
      (by simp [position]) (by simpa using length) (by simp [contents])
    refine ⟨after,?_,by simpa using final,same.trans dims⟩
    unfold writeValues
    rw [written]
    exact more

variable [FloatType F]

def zeros (count : Nat) : List F := List.replicate count ((0 : Int) : F)

/-- What follows the rows: a marker where there is room, then zeros. -/
def endOfList (room : Nat) : List F :=
  if room = 0 then [] else ((-1 : Int) : F) :: zeros (room * 7 - 1)

omit [FloatType F] in
theorem flatten_length (rows : List (List F)) (widths : ∀ values ∈ rows, values.length = 7) :
    rows.flatten.length = rows.length * 7 := by
  induction rows with
  | nil => rfl
  | cons values rows ih =>
    have rest := ih fun other member => widths other (List.mem_cons_of_mem _ member)
    have here := widths values List.mem_cons_self
    simp only [List.flatten_cons,List.length_append,List.length_cons]
    omega

private theorem appendRow_within (blob : Blob F) (rows : List (List F)) (values : List F)
    (capacity : Nat) (width : values.length = 7) (widths : ∀ other ∈ rows, other.length = 7)
    (room : rows.length < capacity)
    (data : blob.data = rows.flatten ++ zeros ((capacity - rows.length) * 7)) :
    ∃ after, appendRow (rows.length,blob) values = .ok (rows.length + 1,after) ∧
      after.data = (rows ++ [values]).flatten ++ zeros ((capacity - (rows.length + 1)) * 7) ∧
      after.dims = blob.dims := by
  have position := flatten_length rows widths
  have split : (capacity - rows.length) * 7 = 7 + (capacity - (rows.length + 1)) * 7 := by omega
  have cleared : blob.data = rows.flatten ++ zeros 7 ++
      zeros ((capacity - (rows.length + 1)) * 7) := by
    rw [data,split]
    simp [zeros,List.replicate_add]
  obtain ⟨after,written,contents,dims⟩ := writeValues_within blob rows.flatten (zeros 7) values _
    (rows.length * 7) position.symm (by simp [zeros,width]) cleared
  refine ⟨after,?_,by simpa using contents,dims⟩
  unfold appendRow
  rw [written]
  rfl

private theorem appendRows_within (rows done : List (List F)) (blob : Blob F) (capacity : Nat)
    (widths : ∀ values ∈ done ++ rows, values.length = 7) (room : (done ++ rows).length ≤ capacity)
    (data : blob.data = done.flatten ++ zeros ((capacity - done.length) * 7)) :
    ∃ after, rows.foldlM appendRow (done.length,blob) = .ok ((done ++ rows).length,after) ∧
      after.data = (done ++ rows).flatten ++ zeros ((capacity - (done ++ rows).length) * 7) ∧
      after.dims = blob.dims := by
  induction rows generalizing done blob with
  | nil => exact ⟨blob,by simp [pure,Except.pure],by simpa using data,rfl⟩
  | cons values rows ih =>
    have regrouped : done ++ values :: rows = done ++ [values] ++ rows := by simp
    rw [regrouped] at widths room ⊢
    have fits : done.length < capacity := by
      simp only [List.length_append,List.length_singleton] at room
      omega
    obtain ⟨middle,written,contents,dims⟩ := appendRow_within blob done values capacity
      (widths values (by simp)) (fun other member => widths other (by simp [member])) fits data
    obtain ⟨after,more,final,same⟩ := ih (done ++ [values]) middle widths room
      (by simpa using contents)
    refine ⟨after,?_,final,same.trans dims⟩
    have start : (done ++ [values]).length = done.length + 1 := by simp
    rw [start] at more
    rw [List.foldlM_cons,written]
    exact more

def imageRows (impl : Impl F) (exp : F → F) (sort : StdSort (SortScorePairDescend (F := F)))
    (priorData : Memory F) (image : Image F) (n : Nat) : List (List F) :=
  (detections impl exp sort priorData image).map (row impl exp priorData image n)

def tableRows (impl : Impl F) (exp : F → F) (sort : StdSort (SortScorePairDescend (F := F)))
    (priorData : Memory F) (images : Nat → Image F) (count : Nat) : List (List F) :=
  (List.range count).flatMap fun n => imageRows impl exp sort priorData (images n) n

private theorem coordinate_prepared {impl : Impl F} {exp : F → F} {priorData : Memory F}
    {images : Nat → Image F} {count : Nat} {buffers : Buffers F}
    (prepared : Prepared impl exp priorData images count buffers) (n c p k : Nat)
    (image : n < count) (within : c < impl.numClasses)
    (foreground : (c : Int) ≠ impl.backgroundLabelId) (low : p < numPriorsActual impl priorData)
    (few : k < 4) :
    (if impl.shareLocation then
        buffers.decodedBboxes.offset (n * impl.numPriors * 4 * impl.numLocClasses) (p * 4 + k)
      else buffers.decodedBboxes.offset (n * impl.numPriors * 4 * impl.numLocClasses)
        (c * 4 * impl.numPriors + p * 4 + k)) =
      ((images n).box impl exp priorData c p).coordinate k := by
  rw [← (prepared.decoded n c image within foreground p low).1 k few]
  simp only [offset_apply]
  unfold Impl.numLocClasses Impl.locClass
  cases impl.shareLocation with
  | true =>
    simp only [if_true]
    congr 1
    ring
  | false =>
    simp only [Bool.false_eq_true,if_false]
    congr 1
    ring

private theorem writeRow_eq {impl : Impl F} {exp : F → F} {priorData : Memory F}
    {images : Nat → Image F} {batch : Nat} {buffers : Buffers F}
    (prepared : Prepared impl exp priorData images batch buffers) (n c i count : Nat)
    (image : n < batch) (within : c < impl.numClasses) (lists : Nat → List Nat)
    (listed : Listed impl buffers n impl.numClasses lists) (low : i < (lists c).length)
    (survives : lists c ⊆ classSurvivors impl exp priorData (images n) c) (dst : Blob F) :
    writeRow impl buffers 7 n c i count dst =
      writeValues dst (count * 7) (row impl exp priorData (images n) n (c,(lists c)[i])) := by
  obtain ⟨foreground,actual,-⟩ := mem_classSurvivors _ _ _ _ _ _
    (survives (List.getElem_mem low))
  have idx : buffers.indices.offset (n * impl.numClasses * impl.numPriors) (c * impl.numPriors + i) =
      (lists c)[i] := by
    rw [← (listed c within).2 i low,offset_apply,← Nat.add_assoc,pconf_eq]
  have bound := numPriorsActual_le impl priorData
  have confidence : buffers.reorderedConf.offset (n * impl.numPriors * impl.numClasses)
      (c * impl.numPriors + (lists c)[i]) = (images n).confidence impl c (lists c)[i] := by
    rw [← prepared.confidences n c _ image within (by omega),offset_apply]
    congr 1
    ring
  have coordinate := fun k => coordinate_prepared prepared n c (lists c)[i] k image within
    foreground actual
  unfold writeRow row
  simp only [idx,confidence,coordinate 0 (by omega),coordinate 1 (by omega),
    coordinate 2 (by omega),coordinate 3 (by omega),writeValues,bind_ok,Bbox.coordinate]
  rfl

theorem writeRows_eq {impl : Impl F} {exp : F → F} {priorData : Memory F} {images : Nat → Image F}
    {batch : Nat} {buffers : Buffers F} (sort : StdSort (SortScorePairDescend (F := F)))
    (prepared : Prepared impl exp priorData images batch buffers)
    (listed : ∀ n, n < batch →
      Listed impl buffers n impl.numClasses (classDetections impl exp sort priorData (images n)))
    (dst : Blob F) :
    writeRows impl buffers 7 batch dst =
      (tableRows impl exp sort priorData images batch).foldlM appendRow (0,dst) := by
  apply tryLoop_flatMap
  intro n state image
  unfold imageRows detections byClass
  rw [List.map_flatMap]
  apply tryLoop_flatMap
  intro c state within
  have counted := (listed n image c within).1
  rw [counted,List.map_map]
  have length : (classDetections impl exp sort priorData (images n) c).length =
      ((classDetections impl exp sort priorData (images n) c).map
        (row impl exp priorData (images n) n ∘ fun p => (c,p))).length := by simp
  rw [length]
  apply tryLoop_list
  intro i state low
  simp only [List.length_map] at low
  unfold appendRow
  rw [writeRow_eq prepared n c i state.1 image within _ (listed n image) low
    (classDetections_subset impl exp sort priorData (images n) c within)]
  simp

private theorem row_length (impl : Impl F) (exp : F → F) (priorData : Memory F) (image : Image F)
    (n : Nat) (detection : Nat × Nat) : (row impl exp priorData image n detection).length = 7 := by
  simp [row]

theorem tableRows_widths (impl : Impl F) (exp : F → F)
    (sort : StdSort (SortScorePairDescend (F := F))) (priorData : Memory F)
    (images : Nat → Image F) (count : Nat) :
    ∀ values ∈ tableRows impl exp sort priorData images count, values.length = 7 := by
  intro values member
  obtain ⟨n,-,among⟩ := List.mem_flatMap.mp member
  obtain ⟨detection,-,rfl⟩ := List.mem_map.mp among
  exact row_length ..

theorem tableRows_length (impl : Impl F) (exp : F → F)
    (sort : StdSort (SortScorePairDescend (F := F))) (priorData : Memory F)
    (images : Nat → Image F) (count : Nat) (keep : 0 ≤ impl.keepTopK) :
    (tableRows impl exp sort priorData images count).length ≤ count * impl.keepTopK.toNat := by
  induction count with
  | zero => simp [tableRows]
  | succ count ih =>
    have image := detections_length impl exp sort priorData (images count) keep
    unfold tableRows at ih ⊢
    rw [List.range_succ,List.flatMap_append,List.length_append,Nat.succ_mul]
    simp only [List.flatMap_singleton,imageRows,List.length_map] at ih ⊢
    omega

private theorem memset_zeros (blob : Blob F) (bytes : Nat) (within : bytes ≤ blob.byteSize)
    (all : bytes = 4 * blob.data.length) : (blob.memset bytes within).data = zeros blob.data.length := by
  have floats : bytes / 4 = blob.data.length := by omega
  unfold Blob.memset zeros
  simp only [floats,List.drop_length,List.append_nil]

private theorem zeros_room (room : Nat) (some : 0 < room) :
    zeros (F := F) (room * 7) = ((0 : Int) : F) :: zeros (room * 7 - 1) := by
  have split : room * 7 = room * 7 - 1 + 1 := by omega
  unfold zeros
  rw [split,List.replicate_succ,Nat.add_sub_cancel]

/-- The rows on a cleared table, and the end of the list. -/
theorem writeTable_within {impl : Impl F} {exp : F → F} {priorData : Memory F}
    {images : Nat → Image F} {batch : Nat} {buffers : Buffers F}
    (sort : StdSort (SortScorePairDescend (F := F)))
    (prepared : Prepared impl exp priorData images batch buffers)
    (listed : ∀ n, n < batch →
      Listed impl buffers n impl.numClasses (classDetections impl exp sort priorData (images n)))
    (keep : 0 ≤ impl.keepTopK) (dst : Blob F)
    (cleared : dst.data = zeros (batch * impl.keepTopK.toNat * 7)) :
    let rows := tableRows impl exp sort priorData images batch
    ∃ result, writeTable impl batch 7 buffers dst = .ok result ∧
      result.data = rows.flatten ++ endOfList (batch * impl.keepTopK.toNat - rows.length) := by
  intro rows
  have widths := tableRows_widths impl exp sort priorData images batch
  have fits := tableRows_length impl exp sort priorData images batch keep
  obtain ⟨table,appended,contents,-⟩ := appendRows_within rows [] dst
    (batch * impl.keepTopK.toNat) widths fits cleared
  have limit : (batch * impl.keepTopK : Int) = (batch * impl.keepTopK.toNat : Nat) := by
    rw [Nat.cast_mul,Int.toNat_of_nonneg keep]
  unfold writeTable
  rw [writeRows_eq sort prepared listed dst,limit]
  have written : (tableRows impl exp sort priorData images batch).foldlM appendRow (0,dst) =
      .ok (rows.length,table) := appended
  rw [written]
  change ∃ result, (if (rows.length : Int) < (batch * impl.keepTopK.toNat : Nat) then
    table.write (rows.length * 7) ((-1 : Int) : F) else .ok table) = .ok result ∧ _
  simp only [List.nil_append] at contents
  by_cases room : rows.length < batch * impl.keepTopK.toNat
  · have left : 0 < batch * impl.keepTopK.toNat - rows.length := by omega
    have position := flatten_length rows widths
    rw [zeros_room _ left] at contents
    obtain ⟨result,marked,final,-⟩ := write_within table _ _ _ ((-1 : Int) : F) (rows.length * 7)
      position.symm contents
    refine ⟨result,?_,?_⟩
    · rw [if_pos (Int.ofNat_lt.mpr room)]
      exact marked
    · rw [final]
      unfold endOfList
      rw [if_neg (by omega)]
  · have full : batch * impl.keepTopK.toNat - rows.length = 0 := by omega
    refine ⟨table,?_,?_⟩
    · rw [if_neg (mt Int.ofNat_lt.mp room)]
    · rw [contents,full]
      simp [zeros,endOfList]

private theorem dstDataSize_eq (floats : Nat) (addressable : 4 * floats < 2 ^ 64) :
    ((floats : Int) % 2 ^ 64 * 4 % 2 ^ 64).toNat = 4 * floats := by
  rw [Int.emod_eq_of_lt (by omega) (by omega),Int.emod_eq_of_lt (by omega) (by omega)]
  omega

theorem execute_table (impl : Impl F) (exp : F → F)
    (sort : StdSort (SortScorePairDescend (F := F))) (images : Nat)
    (locData confData priorData : Memory F) (output : Blob F) (buffers : Buffers F)
    (keep : 0 ≤ impl.keepTopK) (width : output.dims.getD 3 0 = 7)
    (size : output.data.length = images * impl.keepTopK.toNat * 7) :
    let rows := tableRows impl exp sort priorData (imageAt impl locData confData) images
    ∃ result after, execute impl exp sort images locData confData priorData output buffers =
        .ok ((.ok,result),after) ∧
      result.data = rows.flatten ++ endOfList (images * impl.keepTopK.toNat - rows.length) := by
  intro rows
  obtain ⟨listed,final⟩ := detectBatch_listed impl exp sort images locData confData priorData buffers
  have product : (images * impl.keepTopK * (7 : Nat) : Int) = (output.data.length : Int) := by
    rw [size]
    rw [Nat.cast_mul,Nat.cast_mul,Int.toNat_of_nonneg keep]
  have bytes := dstDataSize_eq _ output.addressable
  rw [← product] at bytes
  have within : ((images * impl.keepTopK * (7 : Nat)) % 2 ^ 64 * 4 % 2 ^ 64 : Int).toNat ≤
      output.byteSize := le_of_eq bytes
  have cleared := memset_zeros output _ within bytes
  rw [size] at cleared
  obtain ⟨result,written,contents⟩ := writeTable_within sort final listed keep _ cleared
  refine ⟨result,detectBatch impl exp sort images locData confData priorData buffers,?_,contents⟩
  unfold execute writeOutput
  simp only [width,ne_eq,not_true_eq_false,if_false,within,dif_pos]
  rw [written]
  rfl

/-- All survivors of an image by class, or the best keep_top_k of them. -/
structure TopDetections (impl : Impl F) (exp : F → F) (priorData : Memory F) (image : Image F)
    (shown : List (Nat × Nat)) : Prop where
  foreground : ∀ detection ∈ shown,
    detection.1 < impl.numClasses ∧ (detection.1 : Int) ≠ impl.backgroundLabelId
  ascending : shown.Pairwise fun first second => first.1 ≤ second.1
  all : ((allSurvivors impl exp priorData image).length : Int) ≤ impl.keepTopK →
    shown = allSurvivors impl exp priorData image
  best : impl.keepTopK < (allSurvivors impl exp priorData image).length →
    shown.length = impl.keepTopK ∧ ∃ dropped : List (Nat × Nat),
      (shown ++ dropped).Perm (allSurvivors impl exp priorData image) ∧
      ∀ lost ∈ dropped, ∀ kept ∈ shown,
        ¬image.confidence impl kept.1 kept.2 < image.confidence impl lost.1 lost.2

private theorem detections_top [FloatOrder F] (impl : Impl F) (exp : F → F)
    (sort : StdSort (SortScorePairDescend (F := F))) (priorData : Memory F) (image : Image F)
    (keep : 0 ≤ impl.keepTopK) :
    TopDetections impl exp priorData image (detections impl exp sort priorData image) where
  foreground detection member := by
    obtain ⟨within,there⟩ := detections_foreground impl exp sort priorData image detection member
    exact ⟨within,(mem_classSurvivors _ _ _ _ _ _ there).1⟩
  ascending := byClass_ascending _ _
  all few := by
    apply detections_all
    unfold Overflows
    omega
  best many := by
    have overflows : Overflows impl exp priorData image := ⟨by omega,many⟩
    have length := detections_length_cut impl exp sort priorData image overflows
    exact ⟨by omega,detections_dropped impl exp sort priorData image overflows⟩

/-- The table of a batch: for each image the rows of its top detections, which
the other images do not change, and after the last row the end of the list. -/
theorem detection_table [FloatOrder F] (impl : Impl F) (exp : F → F)
    (sort : StdSort (SortScorePairDescend (F := F))) (images : Nat)
    (locData confData priorData : Memory F) (output : Blob F) (buffers : Buffers F)
    (keep : 0 ≤ impl.keepTopK) (width : output.dims.getD 3 0 = 7)
    (size : output.data.length = images * impl.keepTopK.toNat * 7) :
    ∃ result after, execute impl exp sort images locData confData priorData output buffers =
        .ok ((.ok,result),after) ∧
      (let rows := tableRows impl exp sort priorData (imageAt impl locData confData) images
       rows.length ≤ images * impl.keepTopK.toNat ∧
       result.data = rows.flatten ++ endOfList (images * impl.keepTopK.toNat - rows.length)) ∧
      ∀ n, n < images →
        TopDetections impl exp priorData (imageAt impl locData confData n)
          (detections impl exp sort priorData (imageAt impl locData confData n)) ∧
        ∀ (otherLoc otherConf : Memory F) (m : Nat),
          SameImage impl (imageAt impl locData confData n) (imageAt impl otherLoc otherConf m) →
          imageRows impl exp sort priorData (imageAt impl locData confData n) n =
            imageRows impl exp sort priorData (imageAt impl otherLoc otherConf m) n := by
  obtain ⟨result,after,executed,data⟩ := execute_table impl exp sort images locData confData
    priorData output buffers keep width size
  refine ⟨result,after,executed,⟨?_,data⟩,?_⟩
  · exact tableRows_length impl exp sort priorData (imageAt impl locData confData) images keep
  · intro n image
    refine ⟨detections_top impl exp sort priorData (imageAt impl locData confData n) keep,?_⟩
    intro otherLoc otherConf m same
    exact same.rows exp sort priorData n

/-- Two classes and two priors, of which the cut leaves one. -/
def twoPriors : Impl Rat where
  numClasses := 2
  backgroundLabelId := 0
  topK := -1
  varianceEncodedInTarget := true
  keepTopK := 1
  nmsThreshold := 1 / 2
  confidenceThreshold := 1 / 10
  shareLocation := true
  normalized := true
  imageHeight := 1
  imageWidth := 1
  codeType := .corner
  numPriors := 2

def listMemory (values : List Rat) : Memory Rat := fun i => values.getD i 0

def emptyTable : Blob Rat where
  dims := [1,1,1,7]
  data := List.replicate 7 5
  filled := rfl
  addressable := by decide

def staleBuffers : Buffers Rat where
  decodedBboxes := fun _ => 3
  buffer := fun _ => 3
  indices := fun _ => 3
  detectionsCount := fun _ => 3
  reorderedConf := fun _ => 3
  bboxSizes := fun _ => 3
  numPriorsActual := fun _ => 3

theorem detection_table_two_priors :
    ∃ result after, execute twoPriors id (StdSort.insertion _) 1 (listMemory [])
        (listMemory [1 / 10,8 / 10,1 / 10,9 / 10]) (listMemory [0,0,1,1,2,2,3,3]) emptyTable
        staleBuffers = .ok ((.ok,result),after) ∧
      result.data = [0,1,9 / 10,2,2,3,3] := by
  obtain ⟨result,after,executed,⟨-,data⟩,-⟩ := detection_table twoPriors id (StdSort.insertion _) 1
    (listMemory []) (listMemory [1 / 10,8 / 10,1 / 10,9 / 10]) (listMemory [0,0,1,1,2,2,3,3])
    emptyTable staleBuffers (by decide) rfl rfl
  refine ⟨result,after,executed,?_⟩
  rw [data]
  decide +kernel

end VideoAnalytics.DetectionOutput
