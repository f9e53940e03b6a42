import VideoAnalytics.DetectorRuns
import VideoAnalytics.Library.BatchingMismatch

/-! Whether delivered boxes belong to the images they are delivered with. The
images of a run are numbered, so that equal pictures are told apart. -/
namespace VideoAnalytics

open Batching

/-- An image with the number of its call. -/
structure Numbered (Mat : Type) where
  serial : Nat
  image : Mat
  deriving DecidableEq, Repr

instance {Mat : Type} [CvMat Mat] : CvMat (Numbered Mat) where
  cols numbered := CvMat.cols numbered.image
  rows numbered := CvMat.rows numbered.image
  depth numbered := CvMat.depth numbered.image
  channels numbered := CvMat.channels numbered.image
  empty := ⟨0,CvMat.empty⟩

section Numbers

variable {Mat : Type}

def DetctorResult.number (serial : Nat) (object : DetctorResult Mat) : DetctorResult (Numbered Mat) :=
  ⟨object.boxs,⟨serial,object.orgimg⟩,object.imgsize,object.inputid,object.frameno,object.channelid⟩

def ImageCall.number (serial : Nat) (call : ImageCall Mat) : ImageCall (Numbered Mat) :=
  ⟨⟨serial,call.orgimg⟩,call.objects.map (DetctorResult.number serial),call.inputid,call.frameno,
    call.channelid,call.waited⟩

def number : Nat → List (DetectorCall Mat) → List (DetectorCall (Numbered Mat))
  | _, [] => []
  | serial, .insertImage call :: rest => .insertImage (call.number serial) :: number (serial + 1) rest
  | serial, .setMode isSync :: rest => .setMode isSync :: number (serial + 1) rest

end Numbers

section Pairing

variable {Mat : Type}

/-- The boxes of a delivered result were computed from a blob that contained
exactly the images whose metadata and Mats are delivered with them. -/
def Returned.Paired (ie : InferenceEngine Mat) (shape : Shape) (images : List (ImageInfo Mat))
    (event : Returned Mat) : Prop :=
  ∀ blob, event.blob = some blob → ∃ items, (∀ item ∈ items, item ∈ images) ∧
    blob = blobOf items ∧ (event.objects,event.status) = results ie shape blob items

def DetctorResult.info (object : DetctorResult Mat) : ImageInfo Mat :=
  ⟨object.imgsize,object.inputid,object.frameno,object.channelid,object.orgimg⟩

variable {ie : InferenceEngine Mat} {shape : Shape} {d : Detector Mat}
  {s : Batcher (ImageInfo Mat)}

private theorem results_info (blob : Blob Mat) (items : List (ImageInfo Mat)) :
    (results ie shape blob items).1.map DetctorResult.info = items := by
  apply List.ext_getElem
  · simp [results,withBoxes]
  · intro i left right
    simp [results,withBoxes,DetctorResult.info,ImageInfo.plain]

theorem Returned.Paired.blob_eq {images : List (ImageInfo Mat)} {event : Returned Mat}
    (paired : event.Paired ie shape images) {blob : Blob Mat} (read : event.blob = some blob) :
    blob = blobOf (event.objects.map DetctorResult.info) := by
  obtain ⟨items,-,same,shown⟩ := paired blob read
  have objects : event.objects = (results ie shape blob items).1 := congrArg Prod.fst shown
  rw [objects,results_info]
  exact same

private theorem blobOf_inj {images first second : List (ImageInfo Mat)}
    (distinct : (images.map ImageInfo.orgimg).Nodup) (first_in : ∀ item ∈ first, item ∈ images)
    (second_in : ∀ item ∈ second, item ∈ images) (same : blobOf first = blobOf second) :
    first = second := by
  have lengths := congrArg List.length same
  simp only [blobOf,List.length_map] at lengths
  apply List.ext_getElem lengths
  intro i left right
  have mats : first[i].orgimg = second[i].orgimg := by
    have slot := congrArg (fun blob => blob[i]?) same
    simpa [blobOf,left,right] using slot
  exact List.inj_on_of_nodup_map distinct (first_in _ (List.getElem_mem left))
    (second_in _ (List.getElem_mem right)) mats

private theorem paired_iff_matched {images : List (ImageInfo Mat)}
    (objects : List (DetctorResult Mat))
    (distinct : (images.map ImageInfo.orgimg).Nodup) (delivery : Delivery (ImageInfo Mat))
    (holding : delivery.Holding fun item => item ∈ images) :
    (returned ie shape objects (some delivery)).Paired ie shape images ↔ delivery.Matched := by
  constructor
  · intro paired
    have same : blobOf delivery.source =
        blobOf ((results ie shape (blobOf delivery.source) delivery.items).1.map
          DetctorResult.info) := paired.blob_eq rfl
    rw [results_info] at same
    exact blobOf_inj distinct holding.1 holding.2 same
  · intro matched blob read
    obtain rfl := Option.some.inj read
    exact ⟨delivery.items,holding.2,by rw [show delivery.source = delivery.items from matched],rfl⟩

/-- The trace of a run shows the deliveries of the batcher and no others. -/
structure Shows (ie : InferenceEngine Mat) (shape : Shape) (trace : List (Returned Mat))
    (deliveries : List (Option (Delivery (ImageInfo Mat)))) : Prop where
  sound : ∀ event ∈ trace, event.blob ≠ none → ∃ objects delivery,
    some delivery ∈ deliveries ∧ event = returned ie shape objects (some delivery)
  complete : ∀ delivery, some delivery ∈ deliveries → ∃ objects,
    returned ie shape objects (some delivery) ∈ trace

private theorem shows_append {first second : List (Returned Mat)}
    {before after : List (Option (Delivery (ImageInfo Mat)))}
    (earlier : Shows ie shape first before) (later : Shows ie shape second after) :
    Shows ie shape (first ++ second) (before ++ after) := by
  refine ⟨?_,?_⟩
  · intro event member read
    rcases List.mem_append.mp member with left | right
    · obtain ⟨objects,delivery,inside,same⟩ := earlier.sound event left read
      exact ⟨objects,delivery,List.mem_append_left _ inside,same⟩
    · obtain ⟨objects,delivery,inside,same⟩ := later.sound event right read
      exact ⟨objects,delivery,List.mem_append_right _ inside,same⟩
  · intro delivery member
    rcases List.mem_append.mp member with left | right
    · obtain ⟨objects,inside⟩ := earlier.complete delivery left
      exact ⟨objects,List.mem_append_left _ inside⟩
    · obtain ⟨objects,inside⟩ := later.complete delivery right
      exact ⟨objects,List.mem_append_right _ inside⟩

private theorem shows_nil : Shows ie shape [] [] := ⟨by simp,by simp⟩

private theorem shows_returned (objects : List (DetctorResult Mat))
    (delivery : Option (Delivery (ImageInfo Mat))) :
    Shows ie shape [returned ie shape objects delivery] [delivery] := by
  refine ⟨?_,?_⟩
  · intro event member read
    obtain rfl := List.mem_singleton.mp member
    cases delivery with
    | none => exact absurd rfl read
    | some handed => exact ⟨objects,handed,List.mem_singleton_self _,rfl⟩
  · intro handed member
    obtain rfl := List.mem_singleton.mp member
    exact ⟨objects,List.mem_singleton_self _⟩

variable [CvMat Mat]

def DetectorCall.action : DetectorCall Mat → Option (Action (ImageInfo Mat))
  | .insertImage call => if call.NonEmpty then some (.insert call.info (call.waited = .ok)) else none
  | .setMode isSync => some (.switch isSync)

def DetectorCall.info : DetectorCall Mat → Option (ImageInfo Mat)
  | .insertImage call => if call.NonEmpty then some call.info else none
  | .setMode _ => none

def imagesOf (calls : List (DetectorCall Mat)) : List (ImageInfo Mat) :=
  calls.filterMap DetectorCall.info

/-- The images of the calls are in the format of the network. -/
def FormatsFit (shape : Shape) (calls : List (DetectorCall Mat)) : Prop :=
  ∀ item ∈ imagesOf calls, shape.Fits item.orgimg

instance (shape : Shape) (calls : List (DetectorCall Mat)) : Decidable (FormatsFit shape calls) :=
  inferInstanceAs (Decidable (∀ item ∈ imagesOf calls, shape.Fits item.orgimg))

private theorem step_empty (call : ImageCall Mat) (empty : ¬call.NonEmpty) :
    (detector ie).step d (.insertImage call) = some (d,[⟨.null,call.objects,none⟩]) := by
  have rejected : CvMat.cols call.orgimg = 0 ∨ CvMat.rows call.orgimg = 0 ∨ (!d.bLoad) = true := by
    simp only [ImageCall.NonEmpty] at empty
    omega
  simp only [detector,Detector.insertImage,rejected,if_true,reduceCtorEq,or_self,if_false]

/-- Every run of calls that returns is a run of the batcher on their images. -/
theorem run_refines (calls : List (DetectorCall Mat)) (unstarted : ie.notStarted ≠ .ok)
    (formats : FormatsFit shape calls) (represents : Represents shape d s) {final : Detector Mat} {trace : List (Returned Mat)}
    (ran : (detector ie).run d calls = some (final,trace)) :
    ∃ last deliveries, (batching shape.numBatch).run s (calls.filterMap DetectorCall.action) =
      some (last,deliveries) ∧ Shows ie shape trace deliveries := by
  induction calls generalizing d s trace with
  | nil =>
    obtain ⟨-,rfl⟩ : d = final ∧ [] = trace := by simpa using ran
    exact ⟨s,[],rfl,shows_nil⟩
  | cons call rest ih =>
    obtain ⟨next,events,tail,stepped,later,rfl⟩ := Machine.run_cons.mp ran
    cases call with
    | setMode isSync =>
      obtain ⟨rfl,rfl⟩ : d.setMode isSync = next ∧ [] = events := by simpa [detector] using stepped
      obtain ⟨last,deliveries,inserted,shows⟩ := ih formats (setMode_represents isSync represents) later
      refine ⟨last,deliveries,?_,shows⟩
      have action : DetectorCall.action (.setMode isSync : DetectorCall Mat) =
          some (.switch isSync) := rfl
      rw [List.filterMap_cons_some action,Machine.run_cons]
      exact ⟨s.switch isSync,[],deliveries,rfl,inserted,rfl⟩
    | insertImage call =>
      by_cases image : call.NonEmpty
      · have info : DetectorCall.info (.insertImage call) = some call.info := if_pos image
        rw [FormatsFit,imagesOf,List.filterMap_cons_some info] at formats
        have fits := formats call.info List.mem_cons_self
        obtain ⟨kept,rfl⟩ := step_image call represents image fits unstarted stepped
        obtain ⟨last,deliveries,inserted,shows⟩ :=
          ih (fun item member => formats item (.tail _ member)) kept later
        refine ⟨last,_ :: deliveries,?_,shows_append (shows_returned _ _) shows⟩
        have action : DetectorCall.action (.insertImage call) =
            some (.insert call.info (call.waited = .ok)) := if_pos image
        rw [List.filterMap_cons_some action,Machine.run_cons]
        exact ⟨_,_,deliveries,rfl,inserted,rfl⟩
      · rw [step_empty call image] at stepped
        cases stepped
        have info : DetectorCall.info (.insertImage call) = none := if_neg image
        rw [FormatsFit,imagesOf,List.filterMap_cons_none info] at formats
        obtain ⟨last,deliveries,inserted,shows⟩ := ih formats represents later
        have action : DetectorCall.action (.insertImage call) = none := if_neg image
        refine ⟨last,deliveries,by rwa [List.filterMap_cons_none action],?_⟩
        have silent : Shows ie shape [⟨.null,call.objects,none⟩] [] := ⟨by simp,by simp⟩
        exact shows_append silent shows

private theorem actions_holding (calls : List (DetectorCall Mat)) :
    ∀ action ∈ calls.filterMap DetectorCall.action,
      action.Holding fun item => item ∈ imagesOf calls := by
  intro action member
  obtain ⟨call,inside,same⟩ := List.mem_filterMap.mp member
  cases call with
  | setMode isSync =>
    obtain rfl := Option.some.inj same
    trivial
  | insertImage call =>
    simp only [DetectorCall.action] at same
    split at same
    · next image =>
      obtain rfl := Option.some.inj same
      exact List.mem_filterMap.mpr ⟨.insertImage call,inside,if_pos image⟩
    · contradiction

theorem run_paired_iff (calls : List (DetectorCall Mat)) (unstarted : ie.notStarted ≠ .ok)
    (distinct : ((imagesOf calls).map ImageInfo.orgimg).Nodup) (formats : FormatsFit shape calls)
    (async : Bool) (represents : Represents shape d (Batcher.empty async)) {final : Detector Mat}
    {trace : List (Returned Mat)} (ran : (detector ie).run d calls = some (final,trace)) :
    ∃ last deliveries, (batching shape.numBatch).run (Batcher.empty async)
        (calls.filterMap DetectorCall.action) = some (last,deliveries) ∧
      ((∀ event ∈ trace, event.Paired ie shape (imagesOf calls)) ↔ Matching deliveries) := by
  obtain ⟨last,deliveries,inserted,shows⟩ := run_refines calls unstarted formats represents ran
  have empty : Holding (fun item => item ∈ imagesOf calls) (Batcher.empty async) :=
    ⟨by simp [Batcher.empty],by simp [Batcher.empty],by simp [Batcher.empty],by simp [Batcher.empty]⟩
  have holding := empty.run _ (actions_holding calls) inserted
  refine ⟨last,deliveries,inserted,?_⟩
  constructor
  · intro paired event member delivery due
    subst due
    obtain ⟨objects,inside⟩ := shows.complete delivery member
    exact (paired_iff_matched objects distinct delivery (holding delivery member)).mp
      (paired _ inside)
  · intro matching event member blob read
    obtain ⟨objects,delivery,inside,same⟩ := shows.sound event member (by simp [read])
    subst same
    exact (paired_iff_matched objects distinct delivery (holding delivery inside)).mpr
      (matching _ inside delivery rfl) blob read

theorem actions_item (calls : List (DetectorCall Mat)) :
    (calls.filterMap DetectorCall.action).filterMap Action.item = imagesOf calls := by
  rw [List.filterMap_filterMap]
  apply List.filterMap_congr
  intro call member
  cases call with
  | setMode isSync => rfl
  | insertImage call =>
    simp only [DetectorCall.action,DetectorCall.info]
    split <;> rfl

private theorem number_serial (calls : List (DetectorCall Mat)) (serial : Nat) :
    ∀ item ∈ imagesOf (number serial calls), serial ≤ item.orgimg.serial := by
  induction calls generalizing serial with
  | nil => simp [number,imagesOf]
  | cons call rest ih =>
    intro item member
    cases call with
    | setMode isSync =>
      have later : item ∈ imagesOf (number (serial + 1) rest) := member
      exact Nat.le_of_succ_le (ih (serial + 1) item later)
    | insertImage call =>
      simp only [number,imagesOf,List.filterMap_cons,DetectorCall.info] at member
      split at member
      · exact Nat.le_of_succ_le (ih (serial + 1) item member)
      · next info found =>
        rcases List.mem_cons.mp member with rfl | later
        · split at found
          · obtain rfl := Option.some.inj found
            exact Nat.le_refl _
          · contradiction
        · exact Nat.le_of_succ_le (ih (serial + 1) item later)

theorem number_distinct (calls : List (DetectorCall Mat)) (serial : Nat) :
    ((imagesOf (number serial calls)).map ImageInfo.orgimg).Nodup := by
  induction calls generalizing serial with
  | nil => simp [number,imagesOf]
  | cons call rest ih =>
    cases call with
    | setMode isSync => exact ih (serial + 1)
    | insertImage call =>
      simp only [number,imagesOf,List.filterMap_cons,DetectorCall.info]
      split
      · exact ih (serial + 1)
      · next info found =>
        refine List.nodup_cons.mpr ⟨?_,ih (serial + 1)⟩
        intro member
        obtain ⟨item,inside,same⟩ := List.mem_map.mp member
        have above := number_serial rest (serial + 1) item inside
        split at found
        · obtain rfl := Option.some.inj found
          rw [same] at above
          exact Nat.not_succ_le_self serial above
        · contradiction

end Pairing

end VideoAnalytics
