import VideoAnalytics.DetectorRecords
import VideoAnalytics.Library.Batching

/-! InsertImage refines the batcher: the slots of the target blob are the batch
being filled, the metadata queue is its queue, and the last starts of the two
requests are its two buffers. -/
namespace VideoAnalytics

open Batching

/-- The parts of a loaded network that InsertImage uses. -/
structure Shape where
  numBatch : Nat
  maxProposalCount : Nat
  objectSize : Nat
  inputGeometry : Size
  numChannels : Nat

section Refinement

variable {Mat : Type}

def Detector.shape (d : Detector Mat) : Shape :=
  ⟨d.numBatch,d.maxProposalCount,d.objectSize,d.inputGeometry,d.numChannels⟩

def Shape.Fits [CvMat Mat] (shape : Shape) (orgimg : Mat) : Prop :=
  InFormat shape.inputGeometry shape.numChannels orgimg

instance [CvMat Mat] (shape : Shape) (orgimg : Mat) : Decidable (shape.Fits orgimg) :=
  inferInstanceAs (Decidable (InFormat shape.inputGeometry shape.numChannels orgimg))

def blobOf (items : List (ImageInfo Mat)) : Blob Mat := items.map fun info => some info.orgimg

/-- The Detector holds what the batcher says, the batch index aside. -/
structure Holds (shape : Shape) (d : Detector Mat) (s : Batcher (ImageInfo Mat)) : Prop where
  loaded : d.bLoad = true
  shape_eq : d.shape = shape
  mode : d.bisASync = s.async
  queue : d.imginfoque = s.queue
  enough : s.filling.length ≤ s.queue.length
  apart : d.inferRequestCurr ≠ d.inferRequestNext
  current : (d.requests d.inferRequestCurr).started = s.current.map blobOf
  next : (d.requests d.inferRequestNext).started = s.next.map blobOf
  slots : ∀ id, (d.requests id).input.length = shape.numBatch
  input : (d.requests d.target).input.take s.filling.length = blobOf s.filling
  wrapped : s.filling ≠ [] → d.inputChannels = some d.target

structure Represents (shape : Shape) (d : Detector Mat) (s : Batcher (ImageInfo Mat)) : Prop
    extends Holds shape d s where
  index : d.nbatchIndex = s.filling.length
  room : s.filling.length < shape.numBatch

private theorem Holds.numBatch {shape : Shape} {d : Detector Mat} {s : Batcher (ImageInfo Mat)}
    (holds : Holds shape d s) : d.numBatch = shape.numBatch :=
  congrArg Shape.numBatch holds.shape_eq

variable {shape : Shape} {d : Detector Mat} {s : Batcher (ImageInfo Mat)}

private theorem Holds.fits [CvMat Mat] {orgimg : Mat} (holds : Holds shape d s)
    (fits : shape.Fits orgimg) : InFormat d.inputGeometry d.numChannels orgimg := by
  rw [← holds.shape_eq] at fits
  exact fits

section Fill

variable [CvMat Mat] (is : ImageInfo Mat) (represents : Represents shape d s)
  (fits : shape.Fits is.orgimg)

include represents fits

private theorem fill_eq :
    d.fill is = {d with
      inputChannels := some d.target
      imginfoque := d.imginfoque ++ [is]
      requests := fun id => if id = d.target then {d.requests d.target with
        input := (d.requests d.target).input.set s.filling.length (some is.orgimg)}
        else d.requests id} := by
  have wrapped : (if d.nbatchIndex = 0 then d.wrapInputLayer d.target else d) =
      {d with inputChannels := some d.target} := by
    split
    · rfl
    · next later =>
      have some_filling : s.filling ≠ [] := by
        intro empty
        rw [represents.index,empty] at later
        exact later rfl
      rw [← represents.wrapped some_filling]
  simp only [Detector.fill,wrapped]
  simp only [Detector.push,Detector.split,Detector.setRequest,represents.index,
    represents.fits fits,if_true]

theorem fill_holds :
    Holds shape (d.fill is) {s with filling := s.filling ++ [is], queue := s.queue ++ [is]} := by
  have room := represents.room
  have same_target : (d.fill is).target = d.target := by
    rw [fill_eq is represents fits]
    rfl
  have length := represents.slots d.target
  rw [fill_eq is represents fits] at same_target ⊢
  refine ⟨represents.loaded,represents.shape_eq,represents.mode,?_,?_,represents.apart,?_,?_,?_,
    ?_,fun _ => rfl⟩
  · simp [represents.queue]
  · simpa using represents.enough
  · simp only
    split
    · next same => rw [← same,represents.current]
    · exact represents.current
  · simp only
    split
    · next same => rw [← same,represents.next]
    · exact represents.next
  · intro id
    simp only
    split
    · rw [List.length_set,length]
    · exact represents.slots id
  · have inside : s.filling.length < (d.requests d.target).input.length := by omega
    rw [same_target]
    simp only [if_true,List.length_append,List.length_singleton]
    rw [List.take_add_one,List.take_set_of_le (Nat.le_refl _),represents.input]
    simp [blobOf,inside]

end Fill

private theorem swap_represents (represents : Represents shape d s) (emptied : s.filling = []) :
    Represents shape d.swap s.exchange := by
  have target_input : ∀ id : RequestId, (d.swap.requests id).input.length = shape.numBatch := by
    intro id
    unfold Detector.swap
    split <;> exact represents.slots id
  have mode := represents.mode
  cases async : s.async with
  | false =>
    rw [async] at mode
    simpa [Detector.swap,Batcher.exchange,async,mode] using represents
  | true =>
    rw [async] at mode
    simp only [Detector.swap,Batcher.exchange,async,mode,if_true] at target_input ⊢
    refine ⟨⟨represents.loaded,represents.shape_eq,by simp,represents.queue,represents.enough,
      represents.apart.symm,represents.next,represents.current,target_input,?_,?_⟩,
      represents.index,represents.room⟩
    · simp [emptied,blobOf]
    · intro some_filling
      exact absurd emptied some_filling

theorem start_queue (s : Batcher (ImageInfo Mat)) : s.start.queue = s.queue := by
  unfold Batcher.start
  split <;> rfl

private theorem start_filling (s : Batcher (ImageInfo Mat)) : s.start.filling = [] := by
  unfold Batcher.start
  split <;> rfl

private theorem collect_filling (s : Batcher (ImageInfo Mat)) (size : Nat) (ok : Bool) :
    (s.collect size ok).1.filling = s.filling := by
  unfold Batcher.collect
  cases s.current <;> cases ok <;> rfl

theorem startFull_represents (holds : Holds shape d s) (positive : 0 < shape.numBatch)
    (full : s.filling.length = shape.numBatch) : Represents shape d.startFull s.start := by
  have whole : (d.requests d.target).input = blobOf s.filling := by
    rw [← holds.input,full,← holds.slots d.target,List.take_length]
  have started : d.startFull.requests = fun id => if id = d.target then
      {d.requests d.target with started := some (blobOf s.filling)} else d.requests id := by
    simp only [Detector.startFull,Detector.startAsync,Detector.setRequest,whole]
  have slots : ∀ id, (d.startFull.requests id).input.length = shape.numBatch := by
    intro id
    rw [started]
    simp only
    split <;> exact holds.slots _
  have emptied := start_filling s
  have mode : s.start.async = s.async := by
    unfold Batcher.start
    split <;> rfl
  have queue := start_queue s
  have requests : (d.startFull.requests d.inferRequestCurr).started = s.start.current.map blobOf ∧
      (d.startFull.requests d.inferRequestNext).started = s.start.next.map blobOf := by
    rw [started]
    unfold Detector.target Batcher.start
    rw [holds.mode]
    cases s.async with
    | true => simp [holds.apart,holds.current]
    | false => simp [holds.apart.symm,holds.next]
  refine ⟨⟨holds.loaded,holds.shape_eq,?_,?_,?_,holds.apart,requests.1,requests.2,slots,?_,?_⟩,?_,?_⟩
  · rw [mode]
    exact holds.mode
  · rw [queue]
    exact holds.queue
  · simp [emptied]
  · simp [emptied,blobOf]
  · intro some_filling
    exact absurd emptied some_filling
  · rw [emptied]
    rfl
  · rw [emptied]
    exact positive

def ImageInfo.plain (info : ImageInfo Mat) : DetctorResult Mat :=
  ⟨[],info.orgimg,info.isize,info.inputid,info.frameno,info.channelid⟩

theorem popInfos_eq (objects : List (DetctorResult Mat)) (queue : List (ImageInfo Mat))
    (enough : objects.length ≤ queue.length) :
    popInfos objects queue =
      .ok ((queue.take objects.length).map ImageInfo.plain,queue.drop objects.length) := by
  induction objects generalizing queue with
  | nil => rfl
  | cons object objects ih =>
    cases queue with
    | nil => simp at enough
    | cons front rest =>
      simp only [List.length_cons,Nat.add_le_add_iff_right] at enough
      simp [popInfos,ih rest enough,ImageInfo.plain,bind,Except.bind]

/-- What InsertImage returns for a delivery of the batcher. -/
def handOut (ie : InferenceEngine Mat) (shape : Shape) (objects : List (DetctorResult Mat))
    (next : Detector Mat) : Option (Delivery (ImageInfo Mat)) →
      Except Fault (Detector Mat × List (DetctorResult Mat) × InsertImgStatus)
  | none => .ok (next,objects,.inserted)
  | some delivery => do
    let (objects,retvalue) ← recordLoop (ie.infer (blobOf delivery.source)) shape.objectSize
      shape.numBatch shape.maxProposalCount 0 (delivery.items.map ImageInfo.plain) .processed
    .ok (next,objects,retvalue)

private theorem handOut_swap (ie : InferenceEngine Mat) (objects : List (DetctorResult Mat))
    (next : Detector Mat) (delivery : Option (Delivery (ImageInfo Mat))) :
    (do
      let (collected,objects,retvalue) ← handOut ie shape objects next delivery
      .ok (collected.swap,objects,retvalue)) = handOut ie shape objects next.swap delivery := by
  cases delivery with
  | none => rfl
  | some delivery =>
    simp only [handOut,bind,Except.bind]
    cases recordLoop (ie.infer (blobOf delivery.source)) shape.objectSize shape.numBatch
      shape.maxProposalCount 0 (delivery.items.map ImageInfo.plain) .processed <;> rfl

variable [CvMat Mat]

@[simp] theorem length_resize (objects : List (DetctorResult Mat)) (numBatch : Nat) :
    (resize objects numBatch).length = numBatch := by
  simp only [resize,List.length_append,List.length_take,List.length_replicate]
  omega

private theorem collect_refines (ie : InferenceEngine Mat) (waited : StatusCode)
    (objects : List (DetctorResult Mat)) (represents : Represents shape d s)
    (emptied : s.filling = []) (enough : shape.numBatch ≤ s.queue.length)
    (unstarted : ie.notStarted ≠ .ok) :
    ∃ next, Represents shape next (s.collect shape.numBatch (waited = .ok)).1 ∧
      d.collect ie waited objects =
        handOut ie shape objects next (s.collect shape.numBatch (waited = .ok)).2 := by
  have numBatch := represents.numBatch
  have current := represents.current
  cases started : s.current with
  | none =>
    rw [started] at current
    refine ⟨d,?_,?_⟩
    · simpa [Batcher.collect,started] using represents
    · simp [Detector.collect,InferRequest.wait,current,unstarted,Batcher.collect,started,handOut]
  | some source =>
    rw [started] at current
    by_cases fine : waited = .ok
    · have popped := popInfos_eq (resize objects d.numBatch) d.imginfoque
        (by rwa [length_resize,numBatch,represents.queue])
      rw [length_resize,represents.queue] at popped
      refine ⟨{d with imginfoque := s.queue.drop shape.numBatch},?_,?_⟩
      · simp only [Batcher.collect,started,fine,decide_true,if_true]
        exact ⟨⟨represents.loaded,represents.shape_eq,represents.mode,rfl,by simp [emptied],
          represents.apart,current,represents.next,represents.slots,represents.input,
          represents.wrapped⟩,represents.index,represents.room⟩
      · rw [← represents.shape_eq]
        simp only [Detector.collect,InferRequest.wait,current,Option.map_some,Option.isSome_some,
          if_true,fine,represents.queue,popped,Batcher.collect,started,decide_true,handOut,
          InferRequest.output,Option.getD_some,bind,Except.bind]
        rfl
    · refine ⟨d,?_,?_⟩
      · simpa [Batcher.collect,started,fine] using represents
      · simp [Detector.collect,InferRequest.wait,current,Batcher.collect,started,handOut,fine]

/-- One call of InsertImage with an image is one insertion into the batcher. -/
theorem insertImage_refines (ie : InferenceEngine Mat) (waited : StatusCode) (orgimg : Mat)
    (objects : List (DetctorResult Mat)) (inputid frameno channelid : Int)
    (represents : Represents shape d s)
    (image : CvMat.cols orgimg ≠ 0 ∧ CvMat.rows orgimg ≠ 0) (fits : shape.Fits orgimg)
    (unstarted : ie.notStarted ≠ .ok) :
    ∃ next, Represents shape next (s.insert shape.numBatch
        ⟨⟨CvMat.cols orgimg,CvMat.rows orgimg⟩,inputid,frameno,channelid,orgimg⟩ (waited = .ok)).1 ∧
      d.insertImage ie waited orgimg objects inputid frameno channelid =
        handOut ie shape objects next (s.insert shape.numBatch
          ⟨⟨CvMat.cols orgimg,CvMat.rows orgimg⟩,inputid,frameno,channelid,orgimg⟩ (waited = .ok)).2 := by
  generalize info_eq : ImageInfo.mk (Size.mk (CvMat.cols orgimg) (CvMat.rows orgimg)) inputid frameno
    channelid orgimg = info
  have fits_info : shape.Fits info.orgimg := by rwa [← info_eq]
  have holds := fill_holds info represents fits_info
  have index : (d.fill info).nbatchIndex = s.filling.length := by
    rw [fill_eq info represents fits_info]
    exact represents.index
  have checked : ¬(CvMat.cols orgimg = 0 ∨ CvMat.rows orgimg = 0 ∨ (!d.bLoad) = true) := by
    simp [image.1,image.2,represents.loaded]
  have numBatch := holds.numBatch
  have room := represents.room
  simp only [Detector.insertImage,checked,if_false,info_eq]
  rcases Nat.lt_or_ge (s.filling.length + 1) shape.numBatch with unfinished | full
  · have waiting : ¬(d.fill info).nbatchIndex + 1 ≥ (d.fill info).numBatch := by
      rw [index,numBatch]
      omega
    rw [insert_room _ unfinished,if_neg waiting]
    refine ⟨{d.fill info with nbatchIndex := (d.fill info).nbatchIndex + 1},
      ⟨⟨holds.loaded,holds.shape_eq,holds.mode,holds.queue,holds.enough,holds.apart,holds.current,
        holds.next,holds.slots,holds.input,holds.wrapped⟩,?_,?_⟩,rfl⟩
    · simp [index]
    · simpa using unfinished
  · have complete : (d.fill info).nbatchIndex + 1 ≥ (d.fill info).numBatch := by
      rw [index,numBatch]
      exact full
    have unready : ¬s.filling.length + 1 < shape.numBatch := Nat.not_lt.mpr full
    have exactly : (s.filling ++ [info]).length = shape.numBatch := by
      rw [List.length_append,List.length_singleton]
      omega
    have enough := holds.enough
    rw [exactly,← start_queue] at enough
    have started := startFull_represents holds (by omega) exactly
    obtain ⟨next,collected,returned⟩ :=
      collect_refines ie waited objects started (start_filling _) enough unstarted
    have emptied := (collect_filling (Batcher.start
      {s with filling := s.filling ++ [info], queue := s.queue ++ [info]}) shape.numBatch
      (decide (waited = .ok))).trans (start_filling _)
    rw [if_pos complete,returned]
    simp only [Batcher.insert,List.length_append,List.length_singleton,unready,if_false]
    exact ⟨next.swap,swap_represents collected emptied,handOut_swap ie objects next _⟩

end Refinement

end VideoAnalytics
