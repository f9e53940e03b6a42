import VideoAnalytics.DetectorRecords

/-! What InsertImage carries from its arguments through the metadata queue into
the results, whatever the network finds and the device answers. -/
namespace VideoAnalytics

section Metadata

variable {Mat : Type} {carried : Int → Int → Mat → Prop}

def ImageInfo.Carries (carried : Int → Int → Mat → Prop) (info : ImageInfo Mat) : Prop :=
  carried info.inputid info.channelid info.orgimg

def DetctorResult.Carries (carried : Int → Int → Mat → Prop) (object : DetctorResult Mat) : Prop :=
  carried object.inputid object.channelid object.orgimg

private theorem popInfos_carries (objects : List (DetctorResult Mat)) (queue : List (ImageInfo Mat))
    (filled : List (DetctorResult Mat)) (left : List (ImageInfo Mat))
    (infos : ∀ info ∈ queue, info.Carries carried)
    (popped : popInfos objects queue = .ok (filled,left)) :
    (∀ object ∈ filled, object.Carries carried) ∧ ∀ info ∈ left, info.Carries carried := by
  induction objects generalizing queue filled left with
  | nil =>
    cases popped
    exact ⟨List.forall_mem_nil _,infos⟩
  | cons object rest ih =>
    cases queue with
    | nil => contradiction
    | cons front queue =>
      simp only [popInfos,bind,Except.bind] at popped
      split at popped
      · contradiction
      · next outcome later =>
        cases popped
        have tail := ih queue outcome.1 outcome.2 (fun info member => infos info (.tail _ member)) later
        refine ⟨?_,tail.2⟩
        intro result member
        rcases List.mem_cons.mp member with here | there
        · rw [here]
          exact infos front List.mem_cons_self
        · exact tail.1 result there

private theorem withBoxes_carries (output : Nat → Rat) (positions : List Nat)
    (objects : List (DetctorResult Mat)) (all : ∀ object ∈ objects, object.Carries carried) :
    ∀ object ∈ withBoxes output positions objects, object.Carries carried := by
  intro object member
  obtain ⟨i,within,same⟩ := List.mem_mapIdx.mp member
  rw [← same]
  exact all objects[i] (List.getElem_mem within)

private theorem recordLoop_carries {output : Nat → Rat} {objectSize numBatch remaining result : Nat}
    {objects found : List (DetctorResult Mat)} {retvalue status : InsertImgStatus}
    (all : ∀ object ∈ objects, object.Carries carried)
    (looped : recordLoop output objectSize numBatch remaining result objects retvalue =
      .ok (found,status)) :
    ∀ object ∈ found, object.Carries carried := by
  have within := recordLoop_within _ _ _ _ _ _ _ _ looped
  rw [recordLoop_eq _ _ _ _ _ _ _ within] at looped
  cases looped
  exact withBoxes_carries output _ objects all

private theorem split_queue [CvMat Mat] (d : Detector Mat) (orgimg : Mat) :
    (d.split orgimg).imginfoque = d.imginfoque := by
  unfold Detector.split
  split
  · rfl
  · rfl

theorem fill_queue [CvMat Mat] (d : Detector Mat) (is : ImageInfo Mat) :
    (d.fill is).imginfoque = d.imginfoque ++ [is] := by
  unfold Detector.fill
  rw [split_queue]
  unfold Detector.push
  simp only
  split
  · rfl
  · rfl

private theorem swap_queue (d : Detector Mat) : d.swap.imginfoque = d.imginfoque := by
  unfold Detector.swap
  split
  · rfl
  · rfl

theorem load_queue {env : LoadEnv} {batch : Nat} {d : Detector Mat} {ret : Int}
    (loaded : Detector.new.load env batch = .ok (ret,d)) : d.imginfoque = [] := by
  simp only [Detector.load,Detector.new,Bool.false_eq_true,if_false] at loaded
  split at loaded
  · cases loaded
    rfl
  split at loaded
  · contradiction
  split at loaded
  · contradiction
  split at loaded
  · cases loaded
    rfl
  split at loaded
  · contradiction
  cases loaded
  rfl

variable [CvMat Mat]

private theorem collect_carries {ie : InferenceEngine Mat} {waited : StatusCode}
    {objects left : List (DetctorResult Mat)} {d next : Detector Mat} {status : InsertImgStatus}
    (infos : ∀ info ∈ d.imginfoque, info.Carries carried)
    (collected : d.collect ie waited objects = .ok (next,left,status)) :
    (∀ info ∈ next.imginfoque, info.Carries carried) ∧
      (status = .get ∨ status = .processed → ∀ object ∈ left, object.Carries carried) := by
  unfold Detector.collect at collected
  simp only [bind,Except.bind] at collected
  split at collected
  · split at collected
    · contradiction
    next popped emptied =>
    split at collected
    · contradiction
    next outcome looped =>
    cases collected
    have carries := popInfos_carries _ _ _ _ infos emptied
    exact ⟨carries.2,fun _ => recordLoop_carries carries.1 looped⟩
  · cases collected
    refine ⟨infos,?_⟩
    intro shown
    rcases shown with get | processed
    · contradiction
    · contradiction

/-- If all that is queued and what is inserted carry something, then so does all
that is queued after the call, and all that it returns. -/
theorem insertImage_carries {ie : InferenceEngine Mat} {waited : StatusCode} {orgimg : Mat}
    {objects left : List (DetctorResult Mat)} {inputid frameno channelid : Int}
    {d next : Detector Mat} {status : InsertImgStatus}
    (infos : ∀ info ∈ d.imginfoque, info.Carries carried)
    (inserted : carried inputid channelid orgimg)
    (returns : d.insertImage ie waited orgimg objects inputid frameno channelid =
      .ok (next,left,status)) :
    (∀ info ∈ next.imginfoque, info.Carries carried) ∧
      (status = .get ∨ status = .processed → ∀ object ∈ left, object.Carries carried) := by
  unfold Detector.insertImage at returns
  split at returns
  · cases returns
    exact ⟨infos,fun shown => by simp at shown⟩
  simp only at returns
  have filled : ∀ info ∈ (d.fill ⟨⟨CvMat.cols orgimg,CvMat.rows orgimg⟩,inputid,frameno,channelid,
      orgimg⟩).imginfoque, info.Carries carried := by
    intro info member
    rw [fill_queue] at member
    rcases List.mem_append.mp member with before | new
    · exact infos info before
    · rw [List.mem_singleton.mp new]
      exact inserted
  split at returns
  · simp only [bind,Except.bind] at returns
    split at returns
    · contradiction
    next outcome collected =>
    cases returns
    rw [swap_queue]
    refine collect_carries ?_ collected
    exact filled
  · cases returns
    exact ⟨filled,fun shown => by simp at shown⟩

end Metadata

end VideoAnalytics
