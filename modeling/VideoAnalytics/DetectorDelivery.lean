import VideoAnalytics.DetectorRuns

/-! The Detector without failures delivers every image once, in order, and with
the boxes computed from its own slot of the blob. -/
namespace VideoAnalytics

open Batching

section Delivery

variable {Mat : Type} [CvMat Mat]

/-- What call k, counted from zero, returns: with the last image of a batch the
batch itself in synchronous mode, and the batch before it in asynchronous mode. -/
def delivered (ie : InferenceEngine Mat) (shape : Shape) (async : Bool)
    (calls : List (ImageCall Mat)) (k : Nat) (call : ImageCall Mat) : Returned Mat :=
  let b := shape.numBatch
  let behind := if async then 2 * b else b
  if b ∣ k + 1 ∧ behind ≤ k + 1 then
    let batch := ((calls.drop (k + 1 - behind)).take b).map ImageCall.info
    let (objects,status) := results ie shape (blobOf batch) batch
    ⟨status,objects,some (blobOf batch)⟩
  else ⟨.inserted,call.objects,none⟩

private theorem delivered_eq (ie : InferenceEngine Mat) (shape : Shape) (async : Bool)
    (calls : List (ImageCall Mat)) (k : Nat) (call : ImageCall Mat) :
    delivered ie shape async calls k call = returned ie shape call.objects
      (expected shape.numBatch async (calls.map ImageCall.info) k) := by
  unfold delivered expected lag
  simp only [List.map_take,List.map_drop]
  split <;> split <;> rfl

/-- Every call of InsertImage on a loaded Detector returns, and the deliveries
are the batches in order: without a lag in synchronous mode, and with a lag of
one batch in the asynchronous mode that Load leaves it in. -/
theorem images_delivered_in_order (ie : InferenceEngine Mat) (env : LoadEnv) (b : Nat)
    (d : Detector Mat) (async : Bool) (calls : List (ImageCall Mat)) (positive : 1 ≤ b)
    (loaded : Detector.new.load env b = .ok (0,d)) (unstarted : ie.notStarted ≠ .ok)
    (images : ∀ call ∈ calls, call.NonEmpty) (formats : ∀ call ∈ calls, d.shape.Fits call.orgimg)
    (fine : ∀ call ∈ calls, call.waited = .ok) (ids : IdsWithin ie d.shape) :
    ∃ last, (detector ie).run (if async then d else d.setMode false) (calls.map .insertImage) =
      some (last,calls.mapIdx (delivered ie d.shape async calls)) := by
  obtain ⟨represents,-⟩ := load_represents env b d positive loaded
  have starts : Represents d.shape (if async then d else d.setMode false) (Batcher.empty async) := by
    cases async with
    | true => exact represents
    | false => exact setMode_represents false represents
  have batch_positive : 0 < d.shape.numBatch := by
    have room := represents.room
    omega
  have schedule : ∃ s q, (batching d.shape.numBatch).run (Batcher.empty async)
      ((calls.map ImageCall.info).map fun info => .insert info true) =
        some (s,(List.range (calls.map ImageCall.info).length).map
          (expected d.shape.numBatch async (calls.map ImageCall.info))) ∧
      Reached d.shape.numBatch async (calls.map ImageCall.info) q s :=
    run_insertions (calls.map ImageCall.info) batch_positive
  obtain ⟨s,q,ran,-⟩ := schedule
  have same_actions : (calls.map ImageCall.info).map (fun info => Action.insert info true) =
      calls.map fun call => .insert call.info (call.waited = .ok) := by
    rw [List.map_map]
    apply List.map_congr_left
    intro call member
    simp [fine call member]
  rw [same_actions,List.length_map] at ran
  obtain ⟨last,returns⟩ := run_images calls unstarted images formats ids starts ran
  refine ⟨last,?_⟩
  rw [returns]
  congr 2
  apply List.ext_getElem
  · simp
  · intro k left right
    simp [delivered_eq]

end Delivery

instance : CvMat Size where
  cols := Size.width
  rows := Size.height
  depth _ := CV_8U
  channels _ := 3
  empty := ⟨0,0⟩

def nothingFound (Mat : Type) : InferenceEngine Mat := ⟨fun _ _ => -1,.error 0⟩

def ssdLoaded : LoadEnv := ⟨true,true,[1,1,100,7],true,[300,300,3,2]⟩

def bothRecords : List Rat := [0,1,7 / 8,1 / 4,1 / 4,1 / 2,1 / 2,1,2,1 / 2,0,0,1,2,-1]

/-- Finds something in the first slot of a blob and in the second. -/
def bothFound : InferenceEngine Size where
  infer _ k := bothRecords.getD k 0
  notStarted := .error 0

def fourImages : List (ImageCall Size) :=
  [⟨⟨300,300⟩,[],0,1,0,.ok⟩,⟨⟨300,300⟩,[],1,1,0,.ok⟩,⟨⟨300,300⟩,[],0,2,0,.ok⟩,
    ⟨⟨300,300⟩,[],1,2,0,.ok⟩]

private theorem bothFound_ids (shape : Shape) (two : shape.numBatch = 2)
    (seven : shape.objectSize = 7) : IdsWithin bothFound shape := by
  intro blob k inside
  rw [two,seven]
  change floatToInt (bothRecords.getD (k * 7) 0) < _
  rcases Nat.lt_or_ge k 3 with low | high
  · have cases : k = 0 ∨ k = 1 ∨ k = 2 := by omega
    rcases cases with rfl | rfl | rfl <;> decide
  · rw [List.getD_eq_getElem?_getD,List.getElem?_eq_none (by simp [bothRecords]; omega)]
    decide

def loadedDetector (b : Nat) : Detector Size :=
  match Detector.new.load ssdLoaded b with
  | .ok (_,d) => d
  | .error _ => Detector.new

/-- The fourth call returns the first two images with a box each. -/
theorem images_delivered_in_order_two : ∃ last,
    (detector bothFound).run (loadedDetector 2) (fourImages.map .insertImage) =
      some (last,fourImages.mapIdx (delivered bothFound (loadedDetector 2).shape true fourImages)) ∧
    (delivered bothFound (loadedDetector 2).shape true fourImages 3 ⟨⟨300,300⟩,[],1,2,0,.ok⟩).objects =
      [⟨[⟨1,7 / 8,75,150,75,150⟩],⟨300,300⟩,⟨300,300⟩,0,1,0⟩,
        ⟨[⟨2,1 / 2,0,299,0,299⟩],⟨300,300⟩,⟨300,300⟩,1,1,0⟩] := by
  obtain ⟨last,ran⟩ := images_delivered_in_order bothFound ssdLoaded 2 (loadedDetector 2) true fourImages
    (by decide) rfl (by decide) (by decide) (by decide) (by decide)
    (bothFound_ids (loadedDetector 2).shape rfl rfl)
  exact ⟨last,ran,by decide +kernel⟩

end VideoAnalytics
