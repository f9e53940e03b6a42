import VideoAnalytics.PipelineOrder
import VideoAnalytics.PipelineStatistics

/-! From the decoders to the results. Each Detector is the batcher of the frames of
its channels, so that what a channel's decoder stores is handed out in order, or
waits in the metadata of one Detector, or is on its way there. -/
namespace VideoAnalytics.Pipeline

open Function (update)
open Batching

section Delivery

variable {Mat : Type}

def Event.deliveredOf (nChannel : Nat) : Event Mat → List (Picture Mat)
  | .delivered objects =>
    (objects.map DetctorResult.orgimg).filter fun picture => picture.channel = nChannel
  | _ => []

def deliveredFrames (nChannel : Nat) (trace : List (Event Mat)) : List (Picture Mat) :=
  trace.flatMap (Event.deliveredOf nChannel)

/-- The instance whose Detector the frames of a channel are handed to. -/
def Config.instanceOf (cfg : Config) (nChannel : Nat) : Nat :=
  if cfg.workloadBalance then Pipeline.instanceOf nChannel else 0

def picturesOf (nChannel : Nat) (infos : List (ImageInfo (Picture Mat))) : List (Picture Mat) :=
  (infos.map ImageInfo.orgimg).filter fun picture => picture.channel = nChannel

/-- The pictures of a channel that wait in the metadata of its Detector. -/
def World.awaiting (cfg : Config) (w : World Mat) (nChannel : Nat) : List (Picture Mat) :=
  picturesOf nChannel (w.gDetector (cfg.instanceOf nChannel)).imginfoque

@[simp] theorem deliveredFrames_append (nChannel : Nat) (first second : List (Event Mat)) :
    deliveredFrames nChannel (first ++ second) =
      deliveredFrames nChannel first ++ deliveredFrames nChannel second := List.flatMap_append

/-- The results of one batch, each with the boxes of its own slot. -/
def Batch (ie : InferenceEngine (Picture Mat)) (shape : Shape) (objects : List (Result Mat)) :
    Prop :=
  ∃ batch, (batch = [] ∨ batch.length = shape.numBatch) ∧
    objects = (results ie shape (blobOf batch) batch).1

private theorem results_orgimg (ie : InferenceEngine (Picture Mat)) (shape : Shape)
    (blob : Blob (Picture Mat)) (items : List (ImageInfo (Picture Mat))) :
    (results ie shape blob items).1.map DetctorResult.orgimg = items.map ImageInfo.orgimg := by
  apply List.ext_getElem
  · simp [results,withBoxes]
  · intro k left right
    simp [results,withBoxes,ImageInfo.plain]

section Insertion

variable {ie : InferenceEngine (Picture Mat)} {shape : Shape}
  {d next : Detector (Picture Mat)} {s : Batcher (ImageInfo (Picture Mat))}

private theorem handled_returned (objects : List (Result Mat))
    (delivery : Option (Delivery (ImageInfo (Picture Mat)))) :
    handled (returned ie shape objects delivery).status
      (returned ie shape objects delivery).objects =
        delivery.elim [] fun handed => (results ie shape (blobOf handed.source) handed.items).1 := by
  cases delivery with
  | none => rfl
  | some handed =>
    unfold handled returned results
    simp only [Option.elim_some]
    split_ifs with none_found shown
    · rfl
    · simp at shown
    · rfl
    · simp at *

variable [CvMat Mat]

/-- What a call of InsertImage hands out is the front of the metadata queue. -/
theorem insertImage_collects {orgimg : Picture Mat} {objects left : List (Result Mat)}
    {inputid frameno channelid : Int} {faceret : InsertImgStatus}
    (represents : Represents shape d s) (inStep : InStep shape.numBatch s)
    (image : CvMat.cols orgimg ≠ 0 ∧ CvMat.rows orgimg ≠ 0) (fits : shape.Fits orgimg)
    (unstarted : ie.notStarted ≠ .ok) (returns : d.insertImage ie .ok orgimg objects inputid frameno channelid =
      .ok (next,left,faceret)) :
    ∃ after batch, Represents shape next after ∧ InStep shape.numBatch after ∧
      after.async = s.async ∧
      d.imginfoque ++ [⟨⟨CvMat.cols orgimg,CvMat.rows orgimg⟩,inputid,frameno,channelid,orgimg⟩] =
        batch ++ next.imginfoque ∧
      (batch = [] ∨ batch.length = shape.numBatch) ∧
      handled faceret left = (results ie shape (blobOf batch) batch).1 := by
  obtain ⟨out,kept,same⟩ := insertImage_refines ie .ok orgimg objects inputid frameno channelid
    represents image fits unstarted
  rw [returns] at same
  obtain ⟨rfl,rfl,rfl⟩ := handOut_returned _ _ _ _ _ _ same.symm
  rw [handled_returned]
  generalize ImageInfo.mk (Size.mk (CvMat.cols orgimg) (CvMat.rows orgimg)) inputid frameno
    channelid orgimg = info at kept ⊢
  rw [decide_eq_true (rfl : StatusCode.ok = .ok)] at kept ⊢
  have inserted := inStep_insert info inStep
  generalize s.insert shape.numBatch info true = outcome at inserted kept ⊢
  obtain ⟨after,delivery⟩ := outcome
  have queue := inserted_queue inStep inserted
  have mode : after.async = s.async := by cases inserted <;> assumption
  have stepped : InStep shape.numBatch after := by cases inserted <;> assumption
  rw [← represents.queue,← kept.queue] at queue
  cases delivery with
  | none => exact ⟨after,[],kept,stepped,mode,queue,.inl rfl,rfl⟩
  | some handed =>
    obtain ⟨matched,whole⟩ := inserted_batch inStep inserted
    refine ⟨after,handed.items,kept,stepped,mode,queue,.inr whole,?_⟩
    change (results ie shape (blobOf handed.source) handed.items).1 = _
    rw [matched]

end Insertion

section Pictures

/-- The pixels that a decoder has in its hands or in the buffer that it stores. -/
def Channel.pixels (channel : Channel Mat) : Option Mat :=
  match channel.decoder with
  | .decoding => none
  | .get pixels => some pixels
  | .writeChannel _ pixels => some pixels
  | .writeFrameno _ pixels => some pixels
  | .writeImgbuf _ pixels _ => some pixels
  | .store buffer => some (channel.buffers buffer).imgbuf.pixels
  | .post => none

/-- The frames that are decoded for inference have a property. -/
def Action.Decodes (property : Mat → Prop) : Action Mat → Prop
  | .decode _ (some pixels) => property pixels
  | _ => True

instance (property : Mat → Prop) [DecidablePred property] (action : Action Mat) :
    Decidable (action.Decodes property) := by
  unfold Action.Decodes
  split <;> infer_instance

private theorem Action.Decodes.imp {property weaker : Mat → Prop} {action : Action Mat}
    (decodes : action.Decodes property) (implies : ∀ pixels, property pixels → weaker pixels) :
    action.Decodes weaker := by
  cases action with
  | decode nChannel pixels =>
    cases pixels with
    | none => trivial
    | some pixels => exact implies pixels decodes
  | _ => trivial

structure Pictured (property : Mat → Prop) (w : World Mat) (trace : List (Event Mat)) : Prop where
  decoders : ∀ nChannel pixels, (w.channels nChannel).pixels = some pixels → property pixels
  stored : ∀ nChannel, ∀ frame ∈ storedFrames nChannel trace, property frame.pixels

private theorem start_pictured (property : Mat → Prop) (cfg : Config)
    (detectors : Nat → Detector (Picture Mat)) (blank : Mat) :
    Pictured property (start cfg detectors blank) [] := by
  refine ⟨?_,fun nChannel => List.forall_mem_nil _⟩
  intro nChannel pixels held
  contradiction

variable {property : Mat → Prop} {w next : World Mat} {action : Action Mat}
  {events trace : List (Event Mat)} {nChannel posted : Nat} {channel after : Channel Mat}

private theorem stepped_pixels (decodes : action.Decodes property)
    (good : ∀ pixels, channel.pixels = some pixels → property pixels)
    (stepped : channel.Stepped nChannel action after events posted) :
    (∀ pixels, after.pixels = some pixels → property pixels) ∧
      ∀ frame ∈ storedFrames nChannel events, property frame.pixels := by
  unfold Channel.pixels at good
  cases stepped with
  | decode decoded here =>
    refine ⟨?_,List.forall_mem_nil _⟩
    intro pixels held
    cases decoded with
    | none => contradiction
    | some decoded =>
      cases held
      exact decodes
  | store buffer here =>
    rw [here] at good
    refine ⟨fun pixels held => by contradiction,?_⟩
    intro frame member
    obtain rfl : frame = (channel.buffers buffer).imgbuf := by
      simpa [storedFrames,Event.storedIn] using member
    exact good _ rfl
  | writeImgbuf buffer pixels frameno here =>
    rw [here] at good
    refine ⟨?_,List.forall_mem_nil _⟩
    intro written held
    obtain rfl := Option.some.inj held
    rw [write_self]
    exact good _ rfl
  | post here => exact ⟨fun pixels held => by contradiction,List.forall_mem_nil _⟩
  | thrFps => exact ⟨good,List.forall_mem_nil _⟩
  | get pixels buffer lists here got =>
    rw [here] at good
    exact ⟨good,List.forall_mem_nil _⟩
  | writeChannel buffer pixels here =>
    rw [here] at good
    exact ⟨good,List.forall_mem_nil _⟩
  | writeFrameno buffer pixels here =>
    rw [here] at good
    exact ⟨good,List.forall_mem_nil _⟩

private theorem keep_pictured (pictured : Pictured property w trace)
    (pixels : ∀ number, (next.channels number).pixels = (w.channels number).pixels)
    (unstored : ∀ number, storedFrames number events = []) :
    Pictured property next (trace ++ events) := by
  constructor
  · intro number
    rw [pixels number]
    exact pictured.decoders number
  · intro number
    rw [storedFrames_append,unstored,List.append_nil]
    exact pictured.stored number

private theorem setChannel_pixels (w : World Mat) (number : Nat) (lists : DualPipe.Lists)
    (other : Nat) :
    ((w.setChannel number {w.channels number with dpipe := lists}).channels other).pixels =
      (w.channels other).pixels := by
  by_cases mine : other = number
  · rw [mine,setChannel_self]
    rfl
  · rw [setChannel_of_ne w _ mine]

variable [CvMat Mat] {cfg : Config} {ie : Nat → InferenceEngine (Picture Mat)}

private theorem step_pictured (decodes : action.Decodes property)
    (pictured : Pictured property w trace) (stepped : Stepped cfg ie w action next events) :
    Pictured property next (trace ++ events) := by
  cases stepped with
  | channel number acted after emitted posted inside stepped =>
    obtain ⟨held,stored⟩ := stepped_pixels decodes (pictured.decoders number) stepped
    constructor
    · intro other
      rw [post_channels]
      by_cases mine : other = number
      · rw [mine,setChannel_self]
        exact held
      · rw [setChannel_of_ne w after mine]
        exact pictured.decoders other
    · intro other
      rw [storedFrames_append]
      by_cases mine : other = number
      · rw [mine]
        exact List.forall_mem_append.mpr ⟨pictured.stored number,stored⟩
      · rw [stepped_elsewhere stepped mine,List.append_nil]
        exact pictured.stored other
  | load who dpipe buffer lists here inside loaded =>
    exact keep_pictured pictured (setChannel_pixels w dpipe lists) fun _ => rfl
  | put who dpipe buffer frame here =>
    exact keep_pictured pictured (setChannel_pixels w dpipe _) fun _ => rfl
  | _ => exact keep_pictured pictured (fun _ => rfl) fun _ => rfl

end Pictures

section Collection

/-- Every Detector is a batcher in step, of the frames of its own channels. What
was inserted of a channel is what was handed out of it and what still waits. -/
structure Collected (cfg : Config) (ie : Nat → InferenceEngine (Picture Mat))
    (shape : Nat → Shape) (w : World Mat) (trace : List (Event Mat)) : Prop where
  batchers : ∀ number, ∃ s, Represents (shape number) (w.gDetector number) s ∧
    InStep (shape number).numBatch s ∧ s.async = !cfg.testKcf
  placed : ∀ number, ∀ info ∈ (w.gDetector number).imginfoque,
    ∃ nChannel : Nat, info.orgimg.channel = nChannel ∧ cfg.instanceOf nChannel = number
  handed : ∀ nChannel,
    insertedFrames nChannel trace = deliveredFrames nChannel trace ++ w.awaiting cfg nChannel
  batches : ∀ objects, .delivered objects ∈ trace →
    ∃ number, Batch (ie number) (shape number) objects

variable {cfg : Config} {ie : Nat → InferenceEngine (Picture Mat)} {shape : Nat → Shape}
  {w next : World Mat} {trace events : List (Event Mat)} {action : Action Mat} {who : Consumer}

private theorem load_numBatch {env : LoadEnv} {batch : Nat} {d : Detector (Picture Mat)}
    (loaded : Detector.new.load env batch = .ok (0,d)) : d.numBatch = batch := by
  rcases Nat.eq_zero_or_pos batch with empty | positive
  · subst empty
    simp only [Detector.load,Detector.new,Bool.false_eq_true,if_false] at loaded
    split at loaded
    · simp at loaded
    split at loaded
    · contradiction
    split at loaded
    · contradiction
    split at loaded
    · simp at loaded
    split at loaded
    · contradiction
    cases loaded
    rfl
  · exact (load_represents env batch d positive loaded).2

private theorem configured_represents {d : Detector (Picture Mat)} (configured : Configured cfg d)
    (positive : 0 < d.numBatch) : Represents d.shape d (Batcher.empty !cfg.testKcf) := by
  obtain ⟨env,batch,loaded,returns,same⟩ := configured
  have batched := load_numBatch returns
  cases build : cfg.testKcf with
  | false =>
    rw [build,if_neg Bool.false_ne_true] at same
    subst same
    exact (load_represents env batch d (batched ▸ positive) returns).1
  | true =>
    rw [build,if_pos rfl] at same
    subst same
    have loaded_positive : 0 < batch := batched ▸ positive
    exact setMode_represents false (load_represents env batch loaded loaded_positive returns).1

private theorem start_collected {detectors : Nat → Detector (Picture Mat)} (blank : Mat)
    (configured : ∀ number, Configured cfg (detectors number))
    (positive : ∀ number, 0 < (detectors number).numBatch) :
    Collected cfg ie (fun number => (detectors number).shape) (start cfg detectors blank) [] := by
  have queues : ∀ number, (detectors number).imginfoque = [] :=
    fun number => configured_queue (configured number)
  refine ⟨?_,?_,?_,fun _ member => absurd member List.not_mem_nil⟩
  · intro number
    exact ⟨_,configured_represents (configured number) (positive number),
      inStep_empty _ (positive number),rfl⟩
  · intro number info member
    change info ∈ (detectors number).imginfoque at member
    rw [queues] at member
    contradiction
  · intro nChannel
    change [] = [] ++ picturesOf nChannel (detectors _).imginfoque
    rw [queues]
    rfl

private theorem undelivered {events : List (Event Mat)}
    (delivered : ∀ objects, .delivered objects ∉ events) (number : Nat) :
    deliveredFrames number events = [] := by
  apply List.flatMap_eq_nil_iff.mpr
  intro event member
  cases event with
  | delivered objects => exact absurd member (delivered objects)
  | _ => rfl

private theorem keep_collected (collected : Collected cfg ie shape w trace)
    (detectors : next.gDetector = w.gDetector)
    (inserted : ∀ number, insertedFrames number events = [])
    (delivered : ∀ objects, .delivered objects ∉ events) :
    Collected cfg ie shape next (trace ++ events) := by
  refine ⟨?_,?_,?_,?_⟩
  · rw [detectors]
    exact collected.batchers
  · rw [detectors]
    exact collected.placed
  · intro nChannel
    unfold World.awaiting
    rw [insertedFrames_append,inserted,deliveredFrames_append,undelivered delivered,detectors,
      List.append_nil,List.append_nil]
    exact collected.handed nChannel
  · intro objects member
    rcases List.mem_append.mp member with before | now
    · exact collected.batches objects before
    · exact absurd now (delivered objects)

/-- A frame is handed to the instance of its channel. -/
theorem roles_instance {dpipe buffer : Nat} {frame : Picture Mat} {channel frameno : Option Int}
    (roles : Roles cfg w) (here : w.consumers who = .insert dpipe buffer frame channel frameno) :
    cfg.instanceOf dpipe = who.instance := by
  unfold Config.instanceOf
  cases build : cfg.workloadBalance with
  | true =>
    have own := (roles.balanced build).consumers who
    rw [here] at own
    cases who with
    | scheduler => contradiction
    | infer nChannel => exact own
  | false =>
    cases who with
    | scheduler => rfl
    | infer nChannel =>
      rw [(roles.unbalanced build).1.waiting nChannel] at here
      contradiction

private theorem picturesOf_append (nChannel : Nat) (first second : List (ImageInfo (Picture Mat))) :
    picturesOf nChannel (first ++ second) =
      picturesOf nChannel first ++ picturesOf nChannel second := by
  unfold picturesOf
  rw [List.map_append,List.filter_append]

private theorem picturesOf_elsewhere {nChannel number : Nat}
    {infos : List (ImageInfo (Picture Mat))}
    (placed : ∀ info ∈ infos, ∃ own : Nat, info.orgimg.channel = own ∧ cfg.instanceOf own = number)
    (different : cfg.instanceOf nChannel ≠ number) : picturesOf nChannel infos = [] := by
  apply List.filter_eq_nil_iff.mpr
  intro picture member
  obtain ⟨info,inside,rfl⟩ := List.mem_map.mp member
  obtain ⟨own,channel,instance_eq⟩ := placed info inside
  rw [decide_eq_true_eq,channel]
  intro same
  obtain rfl : own = nChannel := Int.ofNat.inj same
  exact different instance_eq

private theorem inserted_pictures {nChannel : Nat} (who : Consumer) (frame : Picture Mat)
    (channel frameno channelid : Int) (isize : Size) (objects : List (Result Mat)) :
    insertedFrames nChannel [.inserted who frame channel frameno,.delivered objects] =
      picturesOf nChannel [⟨isize,channel,frameno,channelid,frame⟩] := by
  by_cases mine : frame.channel = nChannel
  · simp [insertedFrames,Event.insertedOf,picturesOf,mine]
  · simp [insertedFrames,Event.insertedOf,picturesOf,mine]

private theorem batch_pictures {nChannel : Nat} {ie : InferenceEngine (Picture Mat)} {shape : Shape}
    {blob : Blob (Picture Mat)} (who : Consumer) (frame : Picture Mat) (channel frameno : Int)
    (batch : List (ImageInfo (Picture Mat))) :
    deliveredFrames nChannel [.inserted who frame channel frameno,
      .delivered (results ie shape blob batch).1] = picturesOf nChannel batch := by
  simp [deliveredFrames,Event.deliveredOf,results_orgimg,picturesOf]

variable [CvMat Mat]

private theorem insertImage_collected {dpipe buffer : Nat} {frame : Picture Mat}
    {channel frameno : Int}
    {d : Detector (Picture Mat)} {objects : List (Result Mat)} {faceret : InsertImgStatus}
    (sound : Sound cfg.pool w) (roles : Roles cfg w) (collected : Collected cfg ie shape w trace)
    (unstarted : ∀ number, (ie number).notStarted ≠ .ok)
    (image : CvMat.cols frame ≠ 0 ∧ CvMat.rows frame ≠ 0)
    (fits : (shape who.instance).Fits frame)
    (here : w.consumers who = .insert dpipe buffer frame (some channel) (some frameno))
    (returns : (w.gDetector who.instance).insertImage (ie who.instance) .ok frame
      (w.passed who) channel frameno 0 = .ok (d,objects,faceret)) :
    Collected cfg ie shape (w.inserted who dpipe d objects faceret)
      (trace ++ [.inserted who frame channel frameno,.delivered (handled faceret objects)]) := by
  have own : frame.channel = dpipe := by
    have copied := sound.copied who
    rw [here] at copied
    exact copied.1
  have instance_eq := roles_instance roles here
  obtain ⟨s,represents,inStep,mode⟩ := collected.batchers who.instance
  obtain ⟨after,batch,kept,stepped,same_mode,queue,whole,shown⟩ :=
    insertImage_collects represents inStep image fits (unstarted who.instance) returns
  rw [shown]
  have detectors : ∀ number, (w.inserted who dpipe d objects faceret).gDetector number =
      if number = who.instance then d else w.gDetector number := by
    intro number
    exact Function.update_apply w.gDetector who.instance d number
  have waiting : ∀ info ∈ batch ++ d.imginfoque,
      ∃ nChannel : Nat, info.orgimg.channel = nChannel ∧ cfg.instanceOf nChannel = who.instance := by
    rw [← queue]
    intro info member
    rcases List.mem_append.mp member with before | now
    · exact collected.placed who.instance info before
    · rw [List.mem_singleton.mp now]
      exact ⟨dpipe,own,instance_eq⟩
  refine ⟨?_,?_,?_,?_⟩
  · intro number
    rw [detectors]
    split_ifs with mine
    · subst mine
      exact ⟨after,kept,stepped,same_mode.trans mode⟩
    · exact collected.batchers number
  · intro number info member
    rw [detectors] at member
    split_ifs at member with mine
    · subst mine
      exact waiting info (List.mem_append_right batch member)
    · exact collected.placed number info member
  · intro nChannel
    rw [insertedFrames_append,deliveredFrames_append,batch_pictures,collected.handed,
      List.append_assoc,List.append_assoc,
      inserted_pictures who frame channel frameno 0 ⟨CvMat.cols frame,CvMat.rows frame⟩]
    congr 1
    unfold World.awaiting
    rw [detectors]
    by_cases mine : cfg.instanceOf nChannel = who.instance
    · rw [mine,if_pos rfl,← picturesOf_append,← picturesOf_append,queue]
    · have nothing : ∀ infos ⊆ batch ++ d.imginfoque, picturesOf nChannel infos = [] :=
        fun infos within => picturesOf_elsewhere (fun info member => waiting info (within member)) mine
      rw [if_neg mine,nothing batch (List.subset_append_left ..),nothing [_] ?_,List.append_nil]
      · rfl
      · rw [← queue]
        exact List.subset_append_right ..
  · intro delivered member
    rcases List.mem_append.mp member with before | now
    · exact collected.batches delivered before
    · simp only [List.mem_cons,reduceCtorEq,Event.delivered.injEq,List.not_mem_nil,or_false,
        false_or] at now
      rw [now]
      exact ⟨who.instance,batch,whole,rfl⟩

end Collection

section Runs

variable [CvMat Mat] {cfg : Config} {ie : Nat → InferenceEngine (Picture Mat)}
  {shape : Nat → Shape} {w next : World Mat} {trace events : List (Event Mat)}
  {action : Action Mat}

def NonEmpty (pixels : Mat) : Prop := CvMat.cols pixels ≠ 0 ∧ CvMat.rows pixels ≠ 0

/-- Decoders pass on pictures only, and every Wait on a started request is fine. -/
def Action.Fine : Action Mat → Prop
  | .decode _ (some pixels) => NonEmpty pixels
  | .insertImage _ waited => waited = .ok
  | _ => True

instance (pixels : Mat) : Decidable (NonEmpty pixels) := by
  unfold NonEmpty
  infer_instance

instance (action : Action Mat) : Decidable action.Fine := by
  unfold Action.Fine
  split
  · infer_instance
  · infer_instance
  · infer_instance

/-- The pixels can be split into a slot of every Detector. -/
def Suits (shape : Nat → Shape) (pixels : Mat) : Prop :=
  NonEmpty pixels ∧ ∀ number, (shape number).Fits pixels

structure Delivering (cfg : Config) (ie : Nat → InferenceEngine (Picture Mat))
    (shape : Nat → Shape) (w : World Mat) (trace : List (Event Mat)) : Prop where
  ordered : Ordered cfg w trace
  pictured : Pictured (Suits shape) w trace
  collected : Collected cfg ie shape w trace

/-- A frame that is inserted was stored before. -/
theorem inserted_image {who : Consumer} {waited : StatusCode} {frame : Picture Mat}
    {channel frameno : Int} {objects : List (Result Mat)} {dpipe : Nat}
    (ordered : Ordered cfg w trace) (pictured : Pictured (Suits shape) w trace)
    (own : frame.channel = dpipe)
    (stepped : Stepped cfg ie w (.insertImage who waited) next
      [.inserted who frame channel frameno,.delivered objects]) : Suits shape frame.pixels := by
  have passing := (step_ordered ordered stepped).passing dpipe
  have unstored : storedFrames dpipe [Event.inserted who frame channel frameno,
    .delivered objects] = [] := rfl
  have now : frame ∈ insertedFrames dpipe [Event.inserted who frame channel frameno,
      .delivered objects] := by
    simp [insertedFrames,Event.insertedOf,own]
  rw [storedFrames_append,unstored,List.append_nil,insertedFrames_append] at passing
  have stored : frame ∈ storedFrames dpipe trace := by
    rw [passing]
    exact List.mem_append_left _ (List.mem_append_right _ now)
  exact pictured.stored dpipe frame stored

private theorem step_collected (unstarted : ∀ number, (ie number).notStarted ≠ .ok)
    (fine : action.Fine) (delivering : Delivering cfg ie shape w trace)
    (stepped : Stepped cfg ie w action next events) :
    Collected cfg ie shape next (trace ++ events) := by
  have collected := delivering.collected
  cases stepped with
  | channel number acted after emitted posted inside stepped =>
    refine keep_collected collected rfl (fun _ => stepped_inserted stepped) ?_
    intro objects member
    cases stepped <;> simp at member
  | insertImage who waited dpipe buffer frame channel frameno detector objects faceret here returns =>
    obtain rfl : waited = .ok := fine
    have copied := delivering.ordered.sound.copied who
    rw [here] at copied
    have suits := inserted_image delivering.ordered delivering.pictured copied.1
      (.insertImage who .ok dpipe buffer frame channel frameno detector objects faceret here returns :
        Stepped cfg ie w _ _ _)
    exact insertImage_collected delivering.ordered.sound delivering.ordered.roles collected
      unstarted suits.1 (suits.2 who.instance) here returns
  | _ => exact keep_collected collected rfl (fun _ => rfl) (by simp)

private theorem run_delivering {detectors : Nat → Detector (Picture Mat)} {blank : Mat}
    {actions : List (Action Mat)} (configured : ∀ number, Configured cfg (detectors number))
    (positive : ∀ number, 0 < (detectors number).numBatch)
    (unstarted : ∀ number, (ie number).notStarted ≠ .ok) (fine : ∀ action ∈ actions, action.Fine)
    (formats : ∀ action ∈ actions, action.Decodes fun pixels =>
      ∀ number, (detectors number).shape.Fits pixels)
    (ran : (pipeline cfg ie).run (start cfg detectors blank) actions = some (w,trace)) :
    Delivering cfg ie (fun number => (detectors number).shape) w trace := by
  have started : Delivering cfg ie (fun number => (detectors number).shape)
      (start cfg detectors blank) [] :=
    ⟨start_ordered cfg detectors blank,start_pictured (Suits _) cfg detectors blank,
      start_collected blank configured positive⟩
  refine Machine.run_invariant_along (Delivering cfg ie fun number => (detectors number).shape) ?_
    started ((Machine.along_actions ran).mpr fun action member =>
      And.intro (fine action member) (formats action member)) ran
  rintro state seen action next emitted delivering ⟨condition,format⟩ stepped
  have spec := step_stepped stepped
  have decodes : action.Decodes (Suits fun number => (detectors number).shape) := by
    cases action with
    | decode nChannel pixels =>
      cases pixels with
      | none => trivial
      | some pixels => exact ⟨condition,format⟩
    | _ => trivial
  exact ⟨step_ordered delivering.ordered spec,step_pictured decodes delivering.pictured spec,
    step_collected unstarted condition delivering spec⟩

/-- Every frame that a decoder stored is handed out in order, or waits in the
metadata of its channel's Detector, or is on its way there. Less than two batches
wait in asynchronous mode, and less than one in synchronous mode. What is handed
out at a time is the results of one batch. -/
theorem stored_frames_delivered (cfg : Config) (ie : Nat → InferenceEngine (Picture Mat))
    (detectors : Nat → Detector (Picture Mat)) (blank : Mat) (actions : List (Action Mat))
    (w : World Mat) (trace : List (Event Mat))
    (configured : ∀ number, Configured cfg (detectors number))
    (positive : ∀ number, 0 < (detectors number).numBatch)
    (unstarted : ∀ number, (ie number).notStarted ≠ .ok) (fine : ∀ action ∈ actions, action.Fine)
    (formats : ∀ action ∈ actions, action.Decodes fun pixels =>
      ∀ number, (detectors number).shape.Fits pixels)
    (ran : (pipeline cfg ie).run (start cfg detectors blank) actions = some (w,trace)) :
    (∀ nChannel, storedFrames nChannel trace =
      deliveredFrames nChannel trace ++ w.awaiting cfg nChannel ++ w.underway nChannel) ∧
    (∀ number, (w.gDetector number).imginfoque.length <
      lag (detectors number).numBatch (!cfg.testKcf)) ∧
    ∀ objects, .delivered objects ∈ trace →
      ∃ number, Batch (ie number) (detectors number).shape objects := by
  obtain ⟨ordered,-,collected⟩ := run_delivering configured positive unstarted fine formats ran
  refine ⟨?_,?_,collected.batches⟩
  · intro nChannel
    rw [ordered.passing,collected.handed]
  · intro number
    obtain ⟨s,represents,inStep,mode⟩ := collected.batchers number
    rw [represents.queue,← mode]
    exact inStep.waiting

end Runs

end Delivery

section Samples

theorem stored_frames_delivered_round : ∃ w trace,
    (pipeline twoChannels ssdEngines).run (start twoChannels (fun _ => ssdDetector 1) ⟨0,0⟩)
      wholeRound = some (w,trace) ∧
    deliveredFrames 0 trace = [⟨⟨300,300⟩,0,1⟩] ∧
    storedFrames 0 trace = deliveredFrames 0 trace ++ w.awaiting twoChannels 0 ++ w.underway 0 := by
  have shown : ((pipeline twoChannels ssdEngines).run
      (start twoChannels (fun _ => ssdDetector 1) ⟨0,0⟩) wholeRound).map
        (fun out => deliveredFrames 0 out.2) = some [⟨⟨300,300⟩,0,1⟩] := by
    decide +kernel
  obtain ⟨⟨w,trace⟩,ran,delivered⟩ := Option.map_eq_some_iff.mp shown
  have fine : ∀ action ∈ wholeRound, action.Fine := by
    decide
  have formats : ∀ action ∈ wholeRound,
      action.Decodes fun pixels => (ssdDetector 1).shape.Fits pixels := by
    decide
  exact ⟨w,trace,ran,delivered,(stored_frames_delivered twoChannels ssdEngines
    (fun _ => ssdDetector 1) ⟨0,0⟩ wholeRound w trace (fun _ => ssdDetector_configured _ 1 rfl)
    (fun _ => Nat.one_pos) (fun _ => by simp [ssdEngines,nothingFound]) fine
      (fun action member => (formats action member).imp fun _ fits _ => fits) ran).1 0⟩

end Samples

end VideoAnalytics.Pipeline
