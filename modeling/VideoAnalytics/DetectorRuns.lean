import VideoAnalytics.DetectorRefines

/-! Sequences of InsertImage and SetMode calls on a loaded Detector, with the
blob whose output each delivered result was read from. -/
namespace VideoAnalytics

open Batching

structure ImageCall (Mat : Type) where
  orgimg : Mat
  objects : List (DetctorResult Mat)
  inputid : Int
  frameno : Int
  channelid : Int
  waited : StatusCode

inductive DetectorCall (Mat : Type)
  | insertImage (call : ImageCall Mat)
  | setMode (isSync : Bool)

/-- What InsertImage returns, and the blob its boxes were computed from. -/
structure Returned (Mat : Type) where
  status : InsertImgStatus
  objects : List (DetctorResult Mat)
  blob : Option (Blob Mat)

section Runs

variable {Mat : Type}

def results (ie : InferenceEngine Mat) (shape : Shape) (blob : Blob Mat)
    (items : List (ImageInfo Mat)) : List (DetctorResult Mat) × InsertImgStatus :=
  let output := ie.infer blob
  let positions := records output shape.objectSize shape.numBatch shape.maxProposalCount 0
  (withBoxes output positions (items.map ImageInfo.plain),if positions = [] then .processed else .get)

def returned (ie : InferenceEngine Mat) (shape : Shape) (objects : List (DetctorResult Mat)) :
    Option (Delivery (ImageInfo Mat)) → Returned Mat
  | none => ⟨.inserted,objects,none⟩
  | some delivery =>
    let (objects,status) := results ie shape (blobOf delivery.source) delivery.items
    ⟨status,objects,some (blobOf delivery.source)⟩

/-- The image ids of the records are those of images in the batch. -/
def IdsWithin (ie : InferenceEngine Mat) (shape : Shape) : Prop :=
  ∀ blob k, k < shape.maxProposalCount →
    floatToInt (ie.infer blob (k * shape.objectSize)) < shape.numBatch

/-- The blob of the last start of the request that a full batch waits for. -/
def Detector.readBlob [CvMat Mat] (d : Detector Mat) (is : ImageInfo Mat) : Option (Blob Mat) :=
  ((d.fill is).startFull.requests (d.fill is).startFull.inferRequestCurr).started

variable {ie : InferenceEngine Mat} {shape : Shape} {d : Detector Mat}
  {s : Batcher (ImageInfo Mat)}

private theorem handOut_total (objects : List (DetctorResult Mat)) (next : Detector Mat)
    (delivery : Option (Delivery (ImageInfo Mat))) (ids : IdsWithin ie shape)
    (whole : ∀ handed, delivery = some handed → handed.items.length = shape.numBatch) :
    handOut ie shape objects next delivery =
      .ok (next,(returned ie shape objects delivery).objects,
        (returned ie shape objects delivery).status) := by
  cases delivery with
  | none => rfl
  | some handed =>
    have length := whole handed rfl
    have within : ∀ position ∈ records (ie.infer (blobOf handed.source)) shape.objectSize
        shape.numBatch shape.maxProposalCount 0,
        (floatToInt (ie.infer (blobOf handed.source) position)).toNat <
          (handed.items.map ImageInfo.plain).length := by
      intro position member
      obtain ⟨k,inside,rfl,sign⟩ := records_position _ _ _ _ _ position member
      have small := ids (blobOf handed.source) k inside
      rw [Nat.zero_add] at sign ⊢
      rw [List.length_map,length]
      omega
    simp only [handOut,recordLoop_eq _ _ _ _ _ _ _ within,bind,Except.bind]
    rfl

theorem handOut_returned (objects : List (DetctorResult Mat)) (next final : Detector Mat)
    (delivery : Option (Delivery (ImageInfo Mat))) (left : List (DetctorResult Mat))
    (status : InsertImgStatus)
    (ok : handOut ie shape objects next delivery = .ok (final,left,status)) :
    final = next ∧ left = (returned ie shape objects delivery).objects ∧
      status = (returned ie shape objects delivery).status := by
  cases delivery with
  | none =>
    simp only [handOut,Except.ok.injEq,Prod.mk.injEq] at ok
    obtain ⟨rfl,rfl,rfl⟩ := ok
    exact ⟨rfl,rfl,rfl⟩
  | some handed =>
    simp only [handOut,bind,Except.bind] at ok
    split at ok
    · contradiction
    · next outcome looped =>
      have within := recordLoop_within _ _ _ _ _ _ _ _ looped
      rw [recordLoop_eq _ _ _ _ _ _ _ within] at looped
      obtain rfl := Except.ok.inj looped
      simp only [Except.ok.injEq,Prod.mk.injEq] at ok
      obtain ⟨rfl,rfl,rfl⟩ := ok
      exact ⟨rfl,rfl,rfl⟩

/-- A delivery is computed from the blob that the waited request was started with. -/
theorem readBlob_eq [CvMat Mat] (is : ImageInfo Mat) (ok : Bool)
    (represents : Represents shape d s) (fits : shape.Fits is.orgimg)
    (handed : Delivery (ImageInfo Mat)) (due : (s.insert shape.numBatch is ok).2 = some handed) :
    d.readBlob is = some (blobOf handed.source) := by
  have holds := fill_holds is represents fits
  have room := represents.room
  simp only [Batcher.insert] at due
  split at due
  · contradiction
  next complete =>
  simp only [List.length_append,List.length_singleton] at complete
  have started := startFull_represents holds (by omega)
    (by simp only [List.length_append,List.length_singleton]; omega)
  have current := started.current
  unfold Detector.readBlob
  rw [current]
  simp only [Batcher.collect] at due
  split at due
  · next source latched =>
    rw [latched]
    split at due
    · obtain rfl := Option.some.inj due
      rfl
    · contradiction
  · contradiction

private theorem returned_eq (objects : List (DetctorResult Mat))
    (delivery : Option (Delivery (ImageInfo Mat))) (read : Option (Blob Mat))
    (blob : ∀ handed, delivery = some handed → read = some (blobOf handed.source)) :
    Returned.mk (returned ie shape objects delivery).status
      (returned ie shape objects delivery).objects
      (if (returned ie shape objects delivery).status = .processed ∨
        (returned ie shape objects delivery).status = .get then read else none) =
      returned ie shape objects delivery := by
  cases delivery with
  | none => simp [returned]
  | some handed =>
    have shown : (results ie shape (blobOf handed.source) handed.items).2 = .processed ∨
        (results ie shape (blobOf handed.source) handed.items).2 = .get := by
      unfold results
      simp only
      split
      · exact .inl rfl
      · exact .inr rfl
    simp [returned,shown,blob handed rfl]

theorem setMode_represents (isSync : Bool) (represents : Represents shape d s) :
    Represents shape (d.setMode isSync) (s.switch isSync) := by
  have room := represents.room
  refine ⟨⟨represents.loaded,represents.shape_eq,rfl,rfl,Nat.le_refl _,represents.apart,
    represents.current,represents.next,represents.slots,?_,?_⟩,rfl,?_⟩
  · simp [Batcher.switch,blobOf]
  · intro some_filling
    exact absurd rfl some_filling
  · simp only [Batcher.switch,List.length_nil]
    omega

theorem load_represents (env : LoadEnv) (b : Nat) (d : Detector Mat) (positive : 0 < b)
    (loaded : Detector.new.load env b = .ok (0,d)) :
    Represents d.shape d (Batcher.empty true) ∧ d.numBatch = b := by
  simp only [Detector.load,Detector.new,Bool.false_eq_true,if_false] at loaded
  split at loaded
  · simp at loaded
  split at loaded
  · contradiction
  split at loaded
  · contradiction
  split at loaded
  · simp at loaded
  split at loaded
  · contradiction
  obtain ⟨-,rfl⟩ := Prod.mk.inj (Except.ok.inj loaded)
  refine ⟨⟨⟨rfl,rfl,rfl,rfl,Nat.le_refl _,by simp,rfl,rfl,by simp [Detector.shape],rfl,?_⟩,rfl,
    positive⟩,rfl⟩
  intro some_filling
  exact absurd rfl some_filling

variable [CvMat Mat]

def ImageCall.info (call : ImageCall Mat) : ImageInfo Mat :=
  ⟨⟨CvMat.cols call.orgimg,CvMat.rows call.orgimg⟩,call.inputid,call.frameno,call.channelid,
    call.orgimg⟩

def ImageCall.NonEmpty (call : ImageCall Mat) : Prop :=
  CvMat.cols call.orgimg ≠ 0 ∧ CvMat.rows call.orgimg ≠ 0

instance (call : ImageCall Mat) : Decidable call.NonEmpty := by
  unfold ImageCall.NonEmpty
  infer_instance

def detector (ie : InferenceEngine Mat) :
    Machine.System (Detector Mat) (DetectorCall Mat) (Returned Mat) where
  step d
    | .insertImage call =>
      match d.insertImage ie call.waited call.orgimg call.objects call.inputid call.frameno
        call.channelid with
      | .ok (next,objects,status) =>
        let blob := if status = .processed ∨ status = .get then d.readBlob call.info else none
        some (next,[⟨status,objects,blob⟩])
      | .error _ => none
    | .setMode isSync => some (d.setMode isSync,[])

theorem step_image (call : ImageCall Mat) (represents : Represents shape d s)
    (image : call.NonEmpty) (fits : shape.Fits call.orgimg) (unstarted : ie.notStarted ≠ .ok) {next : Detector Mat}
    {events : List (Returned Mat)}
    (stepped : (detector ie).step d (.insertImage call) = some (next,events)) :
    Represents shape next (s.insert shape.numBatch call.info (call.waited = .ok)).1 ∧
      events = [returned ie shape call.objects
        (s.insert shape.numBatch call.info (call.waited = .ok)).2] := by
  obtain ⟨after,kept,returns⟩ := insertImage_refines ie call.waited call.orgimg call.objects
    call.inputid call.frameno call.channelid represents image fits unstarted
  simp only [detector,returns] at stepped
  split at stepped
  · next ok =>
    obtain ⟨rfl,rfl,rfl⟩ := handOut_returned _ _ _ _ _ _ ok
    cases stepped
    refine ⟨kept,?_⟩
    rw [returned_eq]
    · rfl
    · exact readBlob_eq call.info (decide (call.waited = .ok)) represents fits
  · contradiction

private theorem step_image_total (call : ImageCall Mat) (represents : Represents shape d s)
    (image : call.NonEmpty) (fits : shape.Fits call.orgimg) (unstarted : ie.notStarted ≠ .ok) (ids : IdsWithin ie shape) :
    ∃ next events, (detector ie).step d (.insertImage call) = some (next,events) := by
  obtain ⟨after,kept,returns⟩ := insertImage_refines ie call.waited call.orgimg call.objects
    call.inputid call.frameno call.channelid represents image fits unstarted
  have whole : ∀ handed, (s.insert shape.numBatch call.info (decide (call.waited = .ok))).2 =
      some handed → handed.items.length = shape.numBatch := by
    intro handed due
    have enough := (fill_holds call.info represents fits).enough
    have room := represents.room
    simp only [List.length_append,List.length_singleton] at enough
    simp only [Batcher.insert] at due
    split at due
    · contradiction
    next complete =>
    simp only [List.length_append,List.length_singleton] at complete
    simp only [Batcher.collect] at due
    split at due
    · split at due
      · obtain rfl := Option.some.inj due
        rw [List.length_take,start_queue,List.length_append,List.length_singleton]
        omega
      · contradiction
    · contradiction
  have total := returns.trans (handOut_total call.objects after _ ids whole)
  simp only [detector,total]
  exact ⟨_,_,rfl⟩

/-- A sequence of calls with images returns, for each, what the batcher hands out. -/
theorem run_images (calls : List (ImageCall Mat)) (unstarted : ie.notStarted ≠ .ok)
    (images : ∀ call ∈ calls, call.NonEmpty) (formats : ∀ call ∈ calls, shape.Fits call.orgimg)
    (ids : IdsWithin ie shape) (represents : Represents shape d s) {final : Batcher (ImageInfo Mat)}
    {deliveries : List (Option (Delivery (ImageInfo Mat)))}
    (ran : (batching shape.numBatch).run s
      (calls.map fun call => .insert call.info (call.waited = .ok)) = some (final,deliveries)) :
    ∃ last, (detector ie).run d (calls.map .insertImage) =
      some (last,List.zipWith (fun call delivery => returned ie shape call.objects delivery) calls
        deliveries) := by
  induction calls generalizing d s deliveries with
  | nil =>
    obtain ⟨-,rfl⟩ : s = final ∧ [] = deliveries := by simpa using ran
    exact ⟨d,rfl⟩
  | cons call rest ih =>
    obtain ⟨next,emitted,tail,inserted,later,rfl⟩ := Machine.run_cons.mp ran
    obtain ⟨rfl,rfl⟩ : (s.insert shape.numBatch call.info (call.waited = .ok)).1 = next ∧
        [(s.insert shape.numBatch call.info (call.waited = .ok)).2] = emitted := by
      simpa [batching] using inserted
    have image := images call List.mem_cons_self
    have fits := formats call List.mem_cons_self
    obtain ⟨after,events,stepped⟩ := step_image_total call represents image fits unstarted ids
    obtain ⟨kept,shown⟩ := step_image call represents image fits unstarted stepped
    obtain ⟨last,ran_rest⟩ := ih (fun call member => images call (.tail _ member))
      (fun call member => formats call (.tail _ member)) kept later
    refine ⟨last,?_⟩
    rw [List.map_cons,Machine.run_cons]
    exact ⟨after,events,_,stepped,ran_rest,by rw [shown]; rfl⟩

end Runs

end VideoAnalytics
