import VideoAnalytics.DetectorDelivery
import VideoAnalytics.DetectorMetadata

/-! Which objects the record loop of InsertImage indexes, and how far it reads
into the output of the network. -/
namespace VideoAnalytics

variable {Mat : Type}

/-- The loop comes to record k: no record up to it ends the loop. -/
def ComesTo (output : Nat → Rat) (objectSize numBatch k : Nat) : Prop :=
  ∀ j, j ≤ k → ¬EndsRecords output numBatch (j * objectSize)

private theorem mem_records (output : Nat → Rat)
    (objectSize numBatch remaining start position : Nat) :
    position ∈ records output objectSize numBatch remaining start ↔
      ∃ k, k < remaining ∧ position = start + k * objectSize ∧
        ∀ j, j ≤ k → ¬EndsRecords output numBatch (start + j * objectSize) := by
  induction remaining generalizing start with
  | zero => simp [records]
  | succ remaining ih =>
    unfold records
    split
    · next ends =>
      constructor
      · intro member
        simp at member
      · rintro ⟨k,-,-,go_on⟩
        exact absurd ends (by simpa using go_on 0 (Nat.zero_le k))
    · next goes_on =>
      rw [List.mem_cons,ih]
      constructor
      · rintro (rfl | ⟨k,within,rfl,go_on⟩)
        · refine ⟨0,Nat.succ_pos _,by simp,?_⟩
          intro j none
          rw [Nat.le_zero.mp none]
          simpa using goes_on
        · refine ⟨k + 1,by omega,by rw [Nat.succ_mul]; omega,?_⟩
          intro j low
          cases j with
          | zero => simpa using goes_on
          | succ j =>
            have later := go_on j (by omega)
            rwa [Nat.add_assoc,Nat.add_comm objectSize,← Nat.succ_mul] at later
      · rintro ⟨k,within,rfl,go_on⟩
        cases k with
        | zero => exact .inl (by simp)
        | succ k =>
          refine .inr ⟨k,by omega,by rw [Nat.succ_mul]; omega,?_⟩
          intro j low
          have later := go_on (j + 1) (by omega)
          rwa [Nat.succ_mul,Nat.add_comm (j * objectSize),← Nat.add_assoc] at later

private theorem recordLoop_fault {output : Nat → Rat} {objectSize numBatch remaining result : Nat}
    {objects : List (DetctorResult Mat)} {retvalue : InsertImgStatus} {fault : Fault}
    (failed : recordLoop output objectSize numBatch remaining result objects retvalue = .error fault) :
    ∃ imgid, fault = .objectIndex imgid := by
  induction remaining generalizing result objects retvalue with
  | zero => simp [recordLoop] at failed
  | succ remaining ih =>
    unfold recordLoop at failed
    simp only at failed
    split at failed
    · contradiction
    · split at failed
      · exact ih failed
      · cases failed
        exact ⟨_,rfl⟩

/-- Each record that the loop takes belongs to an object, unless its image id is
the batch size, which the guard lets pass. -/
theorem recordLoop_valid_iff (output : Nat → Rat) (objectSize numBatch remaining : Nat)
    (objects : List (DetctorResult Mat)) (retvalue : InsertImgStatus)
    (resized : objects.length = numBatch) :
    (∀ imgid, recordLoop output objectSize numBatch remaining 0 objects retvalue ≠
      .error (.objectIndex imgid)) ↔
      ∀ k, k < remaining → ComesTo output objectSize numBatch k →
        floatToInt (output (k * objectSize)) ≠ numBatch := by
  constructor
  · intro valid k within comes same
    cases loop : recordLoop output objectSize numBatch remaining 0 objects retvalue with
    | error fault =>
      obtain ⟨imgid,rfl⟩ := recordLoop_fault loop
      exact valid imgid loop
    | ok final =>
      have taken : 0 + k * objectSize ∈ records output objectSize numBatch remaining 0 := by
        rw [mem_records]
        exact ⟨k,within,rfl,by simpa [ComesTo] using comes⟩
      have inside := recordLoop_within _ _ _ _ _ _ _ final loop _ taken
      rw [Nat.zero_add,same] at inside
      omega
  · intro others imgid failed
    have inside : ∀ position ∈ records output objectSize numBatch remaining 0,
        (floatToInt (output position)).toNat < objects.length := by
      intro position taken
      obtain ⟨k,within,rfl,comes⟩ := (mem_records _ _ _ _ _ _).mp taken
      simp only [Nat.zero_add] at comes ⊢
      have different := others k within comes
      have goes_on := comes k (Nat.le_refl k)
      simp only [EndsRecords,not_or] at goes_on
      omega
    rw [recordLoop_eq _ _ _ _ _ _ _ inside] at failed
    contradiction

private theorem recordLoop_reads (output other : Nat → Rat) (numBatch remaining result : Nat)
    (objects : List (DetctorResult Mat)) (retvalue : InsertImgStatus)
    (same : ∀ i, i < remaining * 7 → output (result + i) = other (result + i)) :
    recordLoop output 7 numBatch remaining result objects retvalue =
      recordLoop other 7 numBatch remaining result objects retvalue := by
  induction remaining generalizing result objects retvalue with
  | zero => rfl
  | succ remaining ih =>
    have first := same 0 (by omega)
    rw [Nat.add_zero] at first
    have box : ∀ imgsize, resultboxOf output result imgsize = resultboxOf other result imgsize := by
      intro imgsize
      unfold resultboxOf convertedBox
      rw [same 1 (by omega),same 2 (by omega),same 3 (by omega),same 4 (by omega),
        same 5 (by omega),same 6 (by omega)]
    have rest := fun objects retvalue => ih (result + 7) objects retvalue fun i low => by
      rw [Nat.add_assoc]
      exact same (7 + i) (by omega)
    unfold recordLoop
    simp only [first,same 2 (by omega),box,rest]

section Insert

variable [CvMat Mat]

def Detector.started (orgimg : Mat) (inputid frameno channelid : Int) (d : Detector Mat) :
    Detector Mat :=
  (d.fill ⟨⟨CvMat.cols orgimg,CvMat.rows orgimg⟩,inputid,frameno,channelid,orgimg⟩).startFull

structure ReachesRecords (ie : InferenceEngine Mat) (waited : StatusCode) (orgimg : Mat)
    (inputid frameno channelid : Int) (d : Detector Mat) (output : Nat → Rat) : Prop where
  image : ¬(CvMat.cols orgimg = 0 ∨ CvMat.rows orgimg = 0 ∨ !d.bLoad)
  full : d.nbatchIndex + 1 ≥ d.numBatch
  fine : let started := d.started orgimg inputid frameno channelid
    (started.requests started.inferRequestCurr).wait ie waited = .ok
  queued : d.numBatch ≤ d.imginfoque.length + 1
  read : let started := d.started orgimg inputid frameno channelid
    output = (started.requests started.inferRequestCurr).output ie

private theorem fill_fields (d : Detector Mat) (is : ImageInfo Mat) :
    (d.fill is).numBatch = d.numBatch ∧ (d.fill is).nbatchIndex = d.nbatchIndex ∧
      (d.fill is).maxProposalCount = d.maxProposalCount ∧
      (d.fill is).objectSize = d.objectSize := by
  unfold Detector.fill Detector.split
  simp only
  split
  all_goals split; all_goals exact ⟨rfl,rfl,rfl,rfl⟩

omit [CvMat Mat] in
private theorem popInfos_short (objects : List (DetctorResult Mat)) (queue : List (ImageInfo Mat))
    (short : queue.length < objects.length) :
    popInfos objects queue = .error (.logicError "InsertImage queue fail") := by
  induction objects generalizing queue with
  | nil => simp at short
  | cons object objects ih =>
    cases queue with
    | nil => rfl
    | cons front queue =>
      simp only [List.length_cons,Nat.add_lt_add_iff_right] at short
      simp [popInfos,ih queue short,bind,Except.bind]

/-- The fault of a wrong index comes from the loop, over as many objects as images. -/
theorem collect_fault_iff (ie : InferenceEngine Mat) (waited : StatusCode)
    (objects : List (DetctorResult Mat)) (d : Detector Mat) (imgid : Int) :
    d.collect ie waited objects = .error (.objectIndex imgid) ↔
      (d.requests d.inferRequestCurr).wait ie waited = .ok ∧
        d.numBatch ≤ d.imginfoque.length ∧
        recordLoop ((d.requests d.inferRequestCurr).output ie) d.objectSize d.numBatch
          d.maxProposalCount 0 ((d.imginfoque.take d.numBatch).map ImageInfo.plain) .processed =
            .error (.objectIndex imgid) := by
  unfold Detector.collect
  by_cases fine : (d.requests d.inferRequestCurr).wait ie waited = .ok
  · simp only [fine,if_true,true_and]
    by_cases enough : d.numBatch ≤ d.imginfoque.length
    · have popped := popInfos_eq (resize objects d.numBatch) d.imginfoque
        (by rwa [length_resize])
      rw [length_resize] at popped
      simp only [popped,enough,true_and,bind,Except.bind]
      cases recordLoop ((d.requests d.inferRequestCurr).output ie) d.objectSize d.numBatch
          d.maxProposalCount 0 ((d.imginfoque.take d.numBatch).map ImageInfo.plain) .processed with
      | error fault => simp
      | ok final => simp
    · have short := popInfos_short (resize objects d.numBatch) d.imginfoque
        (by rw [length_resize]; omega)
      simp [short,enough,bind,Except.bind]
  · simp [fine]

private theorem started_fields (orgimg : Mat) (inputid frameno channelid : Int) (d : Detector Mat) :
    let started := d.started orgimg inputid frameno channelid
    started.numBatch = d.numBatch ∧ started.maxProposalCount = d.maxProposalCount ∧
      started.objectSize = d.objectSize ∧ started.imginfoque.length = d.imginfoque.length + 1 := by
  obtain ⟨numBatch,-,count,size⟩ := fill_fields d
    ⟨⟨CvMat.cols orgimg,CvMat.rows orgimg⟩,inputid,frameno,channelid,orgimg⟩
  have queue := fill_queue d
    ⟨⟨CvMat.cols orgimg,CvMat.rows orgimg⟩,inputid,frameno,channelid,orgimg⟩
  refine ⟨numBatch,count,size,?_⟩
  change (d.fill _).imginfoque.length = _
  rw [queue]
  simp

private theorem insertImage_full (ie : InferenceEngine Mat) (waited : StatusCode) (orgimg : Mat)
    (objects : List (DetctorResult Mat)) (inputid frameno channelid : Int) (d : Detector Mat)
    (image : ¬(CvMat.cols orgimg = 0 ∨ CvMat.rows orgimg = 0 ∨ !d.bLoad))
    (full : d.nbatchIndex + 1 ≥ d.numBatch) :
    d.insertImage ie waited orgimg objects inputid frameno channelid = (do
      let collected ← (d.started orgimg inputid frameno channelid).collect ie waited objects
      .ok (collected.1.swap,collected.2.1,collected.2.2)) := by
  obtain ⟨numBatch,index,-,-⟩ := fill_fields d
    ⟨⟨CvMat.cols orgimg,CvMat.rows orgimg⟩,inputid,frameno,channelid,orgimg⟩
  unfold Detector.insertImage
  simp only [image,if_false,numBatch,index,full,if_true]
  rfl

/-- InsertImage indexes a missing object just when its loop does. -/
theorem insertImage_fault_iff (ie : InferenceEngine Mat) (waited : StatusCode) (orgimg : Mat)
    (objects : List (DetctorResult Mat)) (inputid frameno channelid : Int) (d : Detector Mat)
    (imgid : Int) :
    d.insertImage ie waited orgimg objects inputid frameno channelid =
        .error (.objectIndex imgid) ↔
      ∃ output, ReachesRecords ie waited orgimg inputid frameno channelid d output ∧
        recordLoop output d.objectSize d.numBatch d.maxProposalCount 0
          (((d.started orgimg inputid frameno channelid).imginfoque.take d.numBatch).map
            ImageInfo.plain) .processed = .error (.objectIndex imgid) := by
  obtain ⟨numBatch,count,size,queued⟩ := started_fields orgimg inputid frameno channelid d
  by_cases image : CvMat.cols orgimg = 0 ∨ CvMat.rows orgimg = 0 ∨ !d.bLoad
  · constructor
    · intro failed
      simp only [Detector.insertImage,image,if_true] at failed
      contradiction
    · rintro ⟨output,reaches,-⟩
      exact absurd image reaches.image
  by_cases full : d.nbatchIndex + 1 ≥ d.numBatch
  · rw [insertImage_full ie waited orgimg objects inputid frameno channelid d image full]
    have inside := collect_fault_iff ie waited objects (d.started orgimg inputid frameno channelid)
      imgid
    rw [numBatch,count,size,queued] at inside
    have passed : (do
        let collected ← (d.started orgimg inputid frameno channelid).collect ie waited objects
        Except.ok (collected.1.swap,collected.2.1,collected.2.2)) = .error (.objectIndex imgid) ↔
          (d.started orgimg inputid frameno channelid).collect ie waited objects =
            .error (.objectIndex imgid) := by
      cases (d.started orgimg inputid frameno channelid).collect ie waited objects with
      | error fault => simp [bind,Except.bind]
      | ok collected => simp [bind,Except.bind]
    rw [passed,inside]
    constructor
    · rintro ⟨fine,enough,failed⟩
      exact ⟨_,⟨image,full,fine,enough,rfl⟩,failed⟩
    · rintro ⟨output,reaches,failed⟩
      have read := reaches.read
      subst read
      exact ⟨reaches.fine,reaches.queued,failed⟩
  · obtain ⟨same,index,-,-⟩ := fill_fields d
      ⟨⟨CvMat.cols orgimg,CvMat.rows orgimg⟩,inputid,frameno,channelid,orgimg⟩
    constructor
    · intro failed
      simp only [Detector.insertImage,image,if_false,same,index,full] at failed
      contradiction
    · rintro ⟨output,reaches,-⟩
      exact absurd reaches.full full

private theorem collect_reads (ie other : InferenceEngine Mat) (waited : StatusCode)
    (objects : List (DetctorResult Mat)) (d : Detector Mat) (sized : d.objectSize = 7)
    (unstarted : other.notStarted = ie.notStarted)
    (same : ∀ blob i, i < d.maxProposalCount * 7 → ie.infer blob i = other.infer blob i) :
    d.collect ie waited objects = d.collect other waited objects := by
  have waits : (d.requests d.inferRequestCurr).wait ie waited =
      (d.requests d.inferRequestCurr).wait other waited := by
    unfold InferRequest.wait
    rw [unstarted]
  have loops : ∀ filled : List (DetctorResult Mat), recordLoop ((d.requests d.inferRequestCurr).output ie) 7 d.numBatch
      d.maxProposalCount 0 filled .processed = recordLoop ((d.requests d.inferRequestCurr).output
        other) 7 d.numBatch d.maxProposalCount 0 filled .processed := by
    intro filled
    apply recordLoop_reads
    intro i low
    rw [Nat.zero_add]
    exact same _ i low
  unfold Detector.collect
  simp only [waits,sized,loops]

private theorem insertImage_reads (ie other : InferenceEngine Mat) (waited : StatusCode)
    (orgimg : Mat)
    (objects : List (DetctorResult Mat)) (inputid frameno channelid : Int) (d : Detector Mat)
    (sized : d.objectSize = 7) (unstarted : other.notStarted = ie.notStarted)
    (same : ∀ blob i, i < d.maxProposalCount * 7 → ie.infer blob i = other.infer blob i) :
    d.insertImage ie waited orgimg objects inputid frameno channelid =
      d.insertImage other waited orgimg objects inputid frameno channelid := by
  obtain ⟨-,-,count,size⟩ := fill_fields d
    ⟨⟨CvMat.cols orgimg,CvMat.rows orgimg⟩,inputid,frameno,channelid,orgimg⟩
  have collects := collect_reads ie other waited objects
    ((d.fill ⟨⟨CvMat.cols orgimg,CvMat.rows orgimg⟩,inputid,frameno,channelid,orgimg⟩).startFull)
    (size.trans sized) unstarted fun blob i low => same blob i (count ▸ low)
  unfold Detector.insertImage
  simp only [collects]

/-- Every object that InsertImage indexes exists, and it reads no more than
maxProposalCount records, if and only if no record that the loop comes to has
the batch size as its image id. -/
theorem object_indices_valid_iff (ie : InferenceEngine Mat) (waited : StatusCode) (orgimg : Mat)
    (objects : List (DetctorResult Mat)) (inputid frameno channelid : Int) (d : Detector Mat)
    (sized : d.objectSize = 7) :
    ((∀ imgid, d.insertImage ie waited orgimg objects inputid frameno channelid ≠
        .error (.objectIndex imgid)) ∧
      ∀ other : InferenceEngine Mat, other.notStarted = ie.notStarted →
        (∀ blob i, i < d.maxProposalCount * 7 → ie.infer blob i = other.infer blob i) →
        d.insertImage ie waited orgimg objects inputid frameno channelid =
          d.insertImage other waited orgimg objects inputid frameno channelid) ↔
      ∀ output, ReachesRecords ie waited orgimg inputid frameno channelid d output →
        ∀ k, k < d.maxProposalCount → ComesTo output 7 d.numBatch k →
          floatToInt (output (k * 7)) ≠ d.numBatch := by
  have filled : (((d.started orgimg inputid frameno channelid).imginfoque.take d.numBatch).map
      ImageInfo.plain).length = min d.numBatch (d.imginfoque.length + 1) := by
    obtain ⟨-,-,-,queued⟩ := started_fields orgimg inputid frameno channelid d
    rw [List.length_map,List.length_take,queued]
  constructor
  · rintro ⟨valid,-⟩ output reaches
    have resized := filled.trans (Nat.min_eq_left reaches.queued)
    apply (recordLoop_valid_iff output 7 d.numBatch d.maxProposalCount _ .processed resized).mp
    intro imgid failed
    rw [← sized] at failed
    exact valid imgid ((insertImage_fault_iff ie waited orgimg objects inputid frameno channelid d
      imgid).mpr ⟨output,reaches,failed⟩)
  · intro others
    constructor
    · intro imgid failed
      obtain ⟨output,reaches,loop⟩ := (insertImage_fault_iff ie waited orgimg objects inputid
        frameno channelid d imgid).mp failed
      have resized := filled.trans (Nat.min_eq_left reaches.queued)
      rw [sized] at loop
      exact (recordLoop_valid_iff output 7 d.numBatch d.maxProposalCount _ .processed resized).mpr
        (others output reaches) imgid loop
    · intro other unstarted same
      exact insertImage_reads ie other waited orgimg objects inputid frameno channelid d sized
        unstarted same

def oneFound : InferenceEngine Size :=
  ⟨fun _ i => [0,1,7 / 8,1 / 4,1 / 4,1 / 2,1 / 2,-1].getD i 0,.error 0⟩

/-- The first record is of the one image of the batch, and the second ends the loop. -/
theorem object_indices_valid_iff_found :
    Detector.new.load ssdLoaded 1 = .ok (0,loadedDetector 1) ∧
      (∀ imgid, ((loadedDetector 1).setMode false).insertImage oneFound .ok ⟨300,300⟩ [] 0 1 0 ≠
        .error (.objectIndex imgid)) ∧
      (((loadedDetector 1).setMode false).insertImage oneFound .ok ⟨300,300⟩ [] 0 1 0).map Prod.snd =
        .ok ([⟨[⟨1,7 / 8,75,150,75,150⟩],⟨300,300⟩,⟨300,300⟩,0,1,0⟩],.get) := by
  refine ⟨rfl,?_,by decide +kernel⟩
  apply ((object_indices_valid_iff oneFound .ok ⟨300,300⟩ [] 0 1 0 _ rfl).mpr _).1
  intro output reaches k _ comes
  have read := reaches.read
  subst read
  rcases Nat.eq_zero_or_pos k with rfl | later
  · decide
  · exact absurd (.inl (by decide)) (comes 1 later)

def secondImage : InferenceEngine Size := ⟨fun _ i => [1,1,1,0,0,1,1].getD i (-1),.error 0⟩

/-- A synchronous batch of one image, with a record for a second one. -/
theorem object_index_of_batch_size : ∃ d : Detector Size,
    Detector.new.load ssdLoaded 1 = .ok (0,d) ∧
      (d.setMode false).insertImage secondImage .ok ⟨300,300⟩ [] 0 1 0 = .error (.objectIndex 1) := by
  exact ⟨_,rfl,rfl⟩

end Insert

end VideoAnalytics
