import VideoAnalytics.DetectionOutputTable
import VideoAnalytics.DetectorRecords
import Mathlib.Data.List.GetD

/-! InsertImage reads what DetectionOutput wrote: the records that its loop
takes from the table are the rows of the table, and no others. -/
namespace VideoAnalytics.DetectionOutput
open Loop Sorting Memory

variable {Mat : Type}

def readTable (data : List Rat) : Nat → Rat := fun i => data.getD i 0

private theorem floatToInt_natCast (n : Nat) (small : n ≤ 2147483647) :
    floatToInt (((n : Int)) : Rat) = n := by
  have within : InIntRange (truncate ((n : Int) : Rat)) := by
    rw [truncate_intCast]
    exact ⟨by omega,by omega⟩
  rw [floatToInt,cvttss2si.truncates _ within,truncate_intCast]

private theorem readTable_row (rows : List (List Rat)) (rest : List Rat)
    (widths : ∀ values ∈ rows, values.length = 7) (k i : Nat) (within : k < rows.length)
    (low : i < 7) : readTable (rows.flatten ++ rest) (k * 7 + i) = readTable rows[k] i := by
  induction rows generalizing k with
  | nil => simp at within
  | cons values rows ih =>
    have here := widths values List.mem_cons_self
    unfold readTable
    rw [List.flatten_cons,List.append_assoc]
    cases k with
    | zero =>
      rw [List.getD_append _ _ _ _ (by omega)]
      simp
    | succ k =>
      rw [List.getD_append_right _ _ _ _ (by omega)]
      have position : (k + 1) * 7 + i - values.length = k * 7 + i := by omega
      rw [position,List.getElem_cons_succ]
      exact ih (fun other member => widths other (List.mem_cons_of_mem _ member)) k
        (by simpa using within)

private theorem readTable_end (rows : List (List Rat)) (room : Nat)
    (widths : ∀ values ∈ rows, values.length = 7) (some : 0 < room) :
    readTable (rows.flatten ++ endOfList room) (rows.length * 7) = -1 := by
  have length := flatten_length rows widths
  unfold readTable endOfList
  rw [List.getD_append_right _ _ _ _ (by omega),length,if_neg (by omega)]
  simp

/-- The row of an image and a class whose confidence is not zero. -/
structure Record (numBatch : Nat) (values : List Rat) : Prop where
  imgid : ∃ n : Nat, n < numBatch ∧ readTable values 0 = (n : Int)
  confidence : readTable values 2 ≠ 0

private theorem record_goes_on {numBatch : Nat} {values : List Rat} (small : numBatch ≤ 2147483647)
    (record : Record numBatch values) :
    ¬EndsRecords (readTable values) numBatch 0 := by
  obtain ⟨n,within,imgid⟩ := record.imgid
  have confidence := record.confidence
  simp only [EndsRecords,imgid,floatToInt_natCast n (by omega),not_or]
  refine ⟨by omega,confidence,by omega⟩

private theorem endsRecords_row (rows : List (List Rat)) (rest : List Rat) (numBatch k : Nat)
    (widths : ∀ values ∈ rows, values.length = 7) (within : k < rows.length) :
    EndsRecords (readTable (rows.flatten ++ rest)) numBatch (k * 7) ↔
      EndsRecords (readTable rows[k]) numBatch 0 := by
  have first := readTable_row rows rest widths k 0 within (by omega)
  have third := readTable_row rows rest widths k 2 within (by omega)
  simp only [Nat.add_zero] at first
  unfold EndsRecords
  rw [first,third]

private theorem imgid_within (rows : List (List Rat)) (rest : List Rat) (numBatch k : Nat)
    (small : numBatch ≤ 2147483647) (widths : ∀ values ∈ rows, values.length = 7) (good : ∀ values ∈ rows, Record numBatch values)
    (within : k < rows.length) :
    (floatToInt (readTable (rows.flatten ++ rest) (k * 7))).toNat < numBatch := by
  have first := readTable_row rows rest widths k 0 within (by omega)
  obtain ⟨n,low,imgid⟩ := (good _ (List.getElem_mem within)).imgid
  rw [Nat.add_zero] at first
  rw [first,imgid,floatToInt_natCast n (by omega)]
  exact low

/-- The loop takes all rows and stops behind the last one, at the marker or at
the end of the table. -/
theorem records_rows (rows : List (List Rat)) (numBatch capacity : Nat)
    (small : numBatch ≤ 2147483647) (widths : ∀ values ∈ rows, values.length = 7) (good : ∀ values ∈ rows, Record numBatch values)
    (fits : rows.length ≤ capacity) :
    records (readTable (rows.flatten ++ endOfList (capacity - rows.length))) 7 numBatch capacity 0 =
      (List.range rows.length).map (· * 7) := by
  have suffixes : ∀ count k, k + count = rows.length →
      records (readTable (rows.flatten ++ endOfList (capacity - rows.length))) 7 numBatch
        (capacity - k) (k * 7) = (List.range' k count).map (· * 7) := by
    intro count
    induction count with
    | zero =>
      intro k all
      simp only [Nat.add_zero] at all
      subst all
      by_cases room : rows.length < capacity
      · have marker := readTable_end rows (capacity - rows.length) widths (by omega)
        have left : capacity - rows.length = capacity - rows.length - 1 + 1 := by omega
        have ends : EndsRecords (readTable (rows.flatten ++ endOfList (capacity - rows.length)))
            numBatch (rows.length * 7) := by
          left
          rw [marker]
          decide
        rw [left,records,← left,if_pos ends]
        rfl
      · have full : capacity - rows.length = 0 := by omega
        simp [full,records]
    | succ count ih =>
      intro k all
      have within : k < rows.length := by omega
      have left : capacity - k = capacity - (k + 1) + 1 := by omega
      have goes_on := record_goes_on small (good rows[k] (List.getElem_mem within))
      rw [← endsRecords_row rows (endOfList (capacity - rows.length)) numBatch k widths within]
        at goes_on
      have later := ih (k + 1) (by omega)
      rw [Nat.succ_mul] at later
      rw [left,records,if_neg goes_on,later,List.range'_succ]
      rfl
  have whole := suffixes rows.length 0 (by omega)
  rwa [Nat.sub_zero,Nat.zero_mul,← List.range_eq_range'] at whole

def rowBox (values : List Rat) (imgsize : Size) : Resultbox := resultboxOf (readTable values) 0 imgsize

private theorem boxesOf_rows (rows : List (List Rat)) (rest : List Rat) (i : Nat) (imgsize : Size)
    (widths : ∀ values ∈ rows, values.length = 7) :
    boxesOf (readTable (rows.flatten ++ rest)) ((List.range rows.length).map (· * 7)) i imgsize =
      (rows.filter fun values => (floatToInt (readTable values 0)).toNat = i).map fun values =>
        rowBox values imgsize := by
  have read : ∀ k (within : k < rows.length),
      resultboxOf (readTable (rows.flatten ++ rest)) (k * 7) imgsize = rowBox rows[k] imgsize := by
    intro k within
    have values := fun j low => readTable_row rows rest widths k j within low
    unfold rowBox resultboxOf convertedBox
    simp only [values 1 (by omega),values 2 (by omega),values 3 (by omega),values 4 (by omega),
      values 5 (by omega),values 6 (by omega),Nat.zero_add]
  have indexed : rows = (List.range rows.length).map fun k => rows.getD k [] := by
    apply List.ext_getElem
    · simp
    · intro k left right
      simp [List.getElem?_eq_getElem left]
  conv_rhs => rw [indexed]
  unfold boxesOf
  rw [List.filter_map,List.filter_map,List.map_map,List.map_map]
  have same : (List.range rows.length).filter
        ((fun result => decide ((floatToInt (readTable (rows.flatten ++ rest) result)).toNat = i)) ∘
          (· * 7)) =
      (List.range rows.length).filter
        ((fun values => decide ((floatToInt (readTable values 0)).toNat = i)) ∘
          fun k => rows.getD k []) := by
    apply List.filter_congr
    intro k member
    have within := List.mem_range.mp member
    have first := readTable_row rows rest widths k 0 within (by omega)
    simp only [Nat.add_zero] at first
    simp [first,List.getElem?_eq_getElem within]
  rw [same]
  apply List.map_congr_left
  intro k member
  have within := List.mem_range.mp (List.mem_of_mem_filter member)
  simp [read k within,List.getElem?_eq_getElem within]

section Table

variable (impl : Impl Rat) (exp : Rat → Rat)
  (sort : StdSort (SortScorePairDescend (F := Rat))) (priorData : Memory Rat)

private theorem imageRows_imgid (image : Image Rat) (n : Nat) (values : List Rat)
    (member : values ∈ imageRows impl exp sort priorData image n) :
    readTable values 0 = ((n : Int) : Rat) := by
  obtain ⟨detection,-,rfl⟩ := List.mem_map.mp member
  simp [readTable,row]

private theorem tableRows_record (images : Nat → Image Rat) (count : Nat)
    (threshold : 0 ≤ impl.confidenceThreshold) :
    ∀ values ∈ tableRows impl exp sort priorData images count, Record count values := by
  intro values member
  obtain ⟨n,within,among⟩ := List.mem_flatMap.mp member
  refine ⟨⟨n,List.mem_range.mp within,imageRows_imgid impl exp sort priorData _ n values among⟩,?_⟩
  obtain ⟨detection,there,rfl⟩ := List.mem_map.mp among
  have survives := (detections_foreground impl exp sort priorData (images n) detection there).2
  have above := (mem_classSurvivors _ _ _ _ _ _ survives).2.2
  simp only [readTable,row,List.getD_cons_succ,List.getD_cons_zero]
  exact (lt_of_le_of_lt threshold above).ne'

private theorem tableRows_filter (images : Nat → Image Rat) (count i : Nat)
    (small : count ≤ 2147483647) (within : i < count) :
    (tableRows impl exp sort priorData images count).filter
        (fun values => (floatToInt (readTable values 0)).toNat = i) =
      imageRows impl exp sort priorData (images i) i := by
  have own : ∀ n, n < count → (imageRows impl exp sort priorData (images n) n).filter
      (fun values => (floatToInt (readTable values 0)).toNat = i) =
        if n = i then imageRows impl exp sort priorData (images n) n else [] := by
    intro n low
    split
    · next same =>
      apply List.filter_eq_self.mpr
      intro values member
      rw [imageRows_imgid impl exp sort priorData _ n values member,floatToInt_natCast n (by omega)]
      simpa using same
    · next different =>
      apply List.filter_eq_nil_iff.mpr
      intro values member
      rw [imageRows_imgid impl exp sort priorData _ n values member,floatToInt_natCast n (by omega)]
      simpa using different
  have before : ∀ count, count ≤ i → (List.range count).flatMap (fun n =>
      if n = i then imageRows impl exp sort priorData (images n) n else []) = [] := by
    intro count low
    apply List.flatMap_eq_nil_iff.mpr
    intro n member
    have below := List.mem_range.mp member
    rw [if_neg (by omega)]
  have kept : (tableRows impl exp sort priorData images count).filter
      (fun values => (floatToInt (readTable values 0)).toNat = i) =
        (List.range count).flatMap fun n =>
          if n = i then imageRows impl exp sort priorData (images n) n else [] := by
    unfold tableRows
    rw [List.filter_flatMap]
    apply List.flatMap_congr
    intro n member
    exact own n (List.mem_range.mp member)
  rw [kept]
  clear kept own small
  induction count with
  | zero => omega
  | succ count ih =>
    rw [List.range_succ,List.flatMap_append]
    by_cases last : i = count
    · subst last
      rw [before i (Nat.le_refl i)]
      simp
    · rw [ih (by omega)]
      simp [Ne.symm last]

end Table

/-- The record loop gives each image the boxes of its rows: as many as execute
wrote for it, in order, with their classes and confidences. -/
theorem table_read_back (impl : Impl Rat) (exp : Rat → Rat)
    (sort : StdSort (SortScorePairDescend (F := Rat))) (images : Nat)
    (locData confData priorData : Memory Rat) (output : Blob Rat) (buffers : Buffers Rat)
    (objects : List (DetctorResult Mat)) (retvalue : InsertImgStatus)
    (keep : 0 ≤ impl.keepTopK) (threshold : 0 ≤ impl.confidenceThreshold)
    (width : output.dims.getD 3 0 = 7)
    (size : output.data.length = images * impl.keepTopK.toNat * 7)
    (batch : objects.length = images) (batch_int : images ≤ 2147483647)
    (classes_int : impl.numClasses ≤ 2147483647) :
    ∃ result after, execute impl exp sort images locData confData priorData output buffers =
        .ok ((.ok,result),after) ∧
      records (readTable result.data) 7 images (images * impl.keepTopK.toNat) 0 =
        (List.range (tableRows impl exp sort priorData (imageAt impl locData confData)
          images).length).map (· * 7) ∧
      ∃ read status, recordLoop (readTable result.data) 7 images (images * impl.keepTopK.toNat) 0
          objects retvalue = .ok (read,status) ∧
        read.length = images ∧
        ∀ i (here : i < objects.length), ∃ added : List Resultbox,
          read[i]? = some {objects[i] with boxs := objects[i].boxs ++ added} ∧
          added = (imageRows impl exp sort priorData (imageAt impl locData confData i) i).map
            (fun values => rowBox values objects[i].imgsize) ∧
          added.map (fun box => (box.classid,box.confidence)) =
            (detections impl exp sort priorData (imageAt impl locData confData i)).map
              fun detection => ((detection.1 : Int),
                (imageAt impl locData confData i).confidence impl detection.1 detection.2) := by
  obtain ⟨result,after,executed,data⟩ := execute_table impl exp sort images locData confData
    priorData output buffers keep width size
  have widths := tableRows_widths impl exp sort priorData (imageAt impl locData confData) images
  have good := tableRows_record impl exp sort priorData (imageAt impl locData confData) images
    threshold
  have fits := tableRows_length impl exp sort priorData (imageAt impl locData confData) images keep
  have positions := records_rows _ images _ batch_int widths good fits
  rw [← data] at positions
  have within : ∀ position ∈ records (readTable result.data) 7 images
      (images * impl.keepTopK.toNat) 0,
      (floatToInt (readTable result.data position)).toNat < objects.length := by
    intro position member
    rw [positions] at member
    obtain ⟨k,low,rfl⟩ := List.mem_map.mp member
    rw [data,batch]
    exact imgid_within _ _ images k batch_int widths good (List.mem_range.mp low)
  refine ⟨result,after,executed,positions,_,_,recordLoop_eq _ _ _ _ _ objects retvalue within,?_,?_⟩
  · simp [withBoxes,batch]
  · intro i here
    have boxes : boxesOf (readTable result.data) (records (readTable result.data) 7 images
        (images * impl.keepTopK.toNat) 0) i objects[i].imgsize =
        (imageRows impl exp sort priorData (imageAt impl locData confData i) i).map
          fun values => rowBox values objects[i].imgsize := by
      rw [positions,data,boxesOf_rows _ _ _ _ widths,
        tableRows_filter impl exp sort priorData _ images i batch_int (by omega)]
    refine ⟨_,by simp [withBoxes,List.getElem?_eq_getElem here],boxes,?_⟩
    rw [boxes]
    unfold imageRows
    rw [List.map_map,List.map_map]
    apply List.map_congr_left
    intro detection member
    have below := (detections_foreground impl exp sort priorData _ detection member).1
    have label := floatToInt_natCast detection.1 (by omega)
    rw [Prod.mk.injEq]
    exact ⟨label,rfl⟩

theorem table_read_back_two_priors :
    ∃ result after, execute twoPriors id (StdSort.insertion _) 1 (listMemory [])
        (listMemory [1 / 10,8 / 10,1 / 10,9 / 10]) (listMemory [0,0,1,1,2,2,3,3]) emptyTable
        staleBuffers = .ok ((.ok,result),after) ∧
      ∃ status read, recordLoop (readTable result.data) 7 1 1 0
          [(⟨[],(),⟨300,300⟩,0,0,0⟩ : DetctorResult Unit)] .processed = .ok (read,status) ∧
        ∃ added : List Resultbox, read[0]? = some ⟨added,(),⟨300,300⟩,0,0,0⟩ ∧
          added.map (fun box => (box.classid,box.confidence)) = [(1,9 / 10)] := by
  obtain ⟨result,after,executed,-,read,status,loop,-,boxes⟩ := table_read_back twoPriors id
    (StdSort.insertion _) 1 (listMemory []) (listMemory [1 / 10,8 / 10,1 / 10,9 / 10])
    (listMemory [0,0,1,1,2,2,3,3]) emptyTable staleBuffers
    [(⟨[],(),⟨300,300⟩,0,0,0⟩ : DetctorResult Unit)] .processed (by decide) (by decide +kernel) rfl rfl rfl
    (by decide) (by decide)
  obtain ⟨added,here,-,carried⟩ := boxes 0 Nat.zero_lt_one
  refine ⟨result,after,executed,status,read,loop,added,by simpa using here,?_⟩
  rw [carried]
  decide +kernel

end VideoAnalytics.DetectionOutput
