import VideoAnalytics.Pipeline

/-! What each step of the threads does, said once for all invariants. -/
namespace VideoAnalytics.Pipeline

open Function (update)

section Steps

variable {Mat : Type}

@[simp] theorem post_channels (w : World Mat) (posted : Nat) :
    (w.post posted).channels = w.channels := rfl

@[simp] theorem setChannel_self (w : World Mat) (nChannel : Nat) (channel : Channel Mat) :
    (w.setChannel nChannel channel).channels nChannel = channel := by
  unfold World.setChannel
  exact Function.update_self nChannel channel w.channels

theorem setChannel_of_ne (w : World Mat) {nChannel other : Nat} (channel : Channel Mat)
    (different : other ≠ nChannel) :
    (w.setChannel nChannel channel).channels other = w.channels other := by
  unfold World.setChannel
  exact Function.update_of_ne different channel w.channels

@[simp] theorem goto_channels (w : World Mat) (who : Consumer) (pc : ConsumerPc Mat) :
    (w.goto who pc).channels = w.channels := rfl

@[simp] theorem goto_self (w : World Mat) (who : Consumer) (pc : ConsumerPc Mat) :
    (w.goto who pc).consumers who = pc := by
  unfold World.goto
  exact Function.update_self who pc w.consumers

theorem goto_of_ne (w : World Mat) {who other : Consumer} (pc : ConsumerPc Mat)
    (different : other ≠ who) : (w.goto who pc).consumers other = w.consumers other := by
  unfold World.goto
  exact Function.update_of_ne different pc w.consumers

theorem write_self (channel : Channel Mat) (buffer : Nat)
    (change : VsourceFrame Mat → VsourceFrame Mat) (pc : DecodePc Mat) :
    (channel.write buffer change pc).buffers buffer = change (channel.buffers buffer) := by
  unfold Channel.write
  exact Function.update_self buffer _ channel.buffers

theorem write_of_ne (channel : Channel Mat) {buffer other : Nat}
    (change : VsourceFrame Mat → VsourceFrame Mat) (pc : DecodePc Mat) (different : other ≠ buffer) :
    (channel.write buffer change pc).buffers other = channel.buffers other := by
  unfold Channel.write
  exact Function.update_of_ne different _ channel.buffers

/-- A step on one channel alone, with the tokens it posts to the scheduler. -/
inductive Channel.Stepped (nChannel : Nat) (channel : Channel Mat) :
    Action Mat → Channel Mat → List (Event Mat) → Nat → Prop
  | decode (pixels : Option Mat) (here : channel.decoder = .decoding) :
      Stepped nChannel channel (.decode nChannel pixels) {channel with
        nFrameProcessed := channel.nFrameProcessed + 1
        decoder := pixels.elim .decoding .get} [] 0
  | get (pixels : Mat) (buffer : Nat) (lists : DualPipe.Lists)
      (here : channel.decoder = .get pixels) (got : channel.dpipe.get = some (buffer,lists)) :
      Stepped nChannel channel (.decoder nChannel) {channel with
        dpipe := lists
        decoder := .writeChannel buffer pixels} [] 0
  | writeChannel (buffer : Nat) (pixels : Mat)
      (here : channel.decoder = .writeChannel buffer pixels) :
      Stepped nChannel channel (.decoder nChannel) (channel.write buffer
        (fun srcframe => {srcframe with channel := nChannel}) (.writeFrameno buffer pixels)) [] 0
  | writeFrameno (buffer : Nat) (pixels : Mat)
      (here : channel.decoder = .writeFrameno buffer pixels) :
      Stepped nChannel channel (.decoder nChannel) (channel.write buffer
        (fun srcframe => {srcframe with frameno := channel.nFrameProcessed})
        (.writeImgbuf buffer pixels channel.nFrameProcessed)) [] 0
  | writeImgbuf (buffer : Nat) (pixels : Mat) (frameno : Int)
      (here : channel.decoder = .writeImgbuf buffer pixels frameno) :
      Stepped nChannel channel (.decoder nChannel) (channel.write buffer
        (fun srcframe => {srcframe with imgbuf := ⟨pixels,nChannel,frameno⟩}) (.store buffer)) [] 0
  | store (buffer : Nat) (here : channel.decoder = .store buffer) :
      Stepped nChannel channel (.decoder nChannel) {channel with
        dpipe := channel.dpipe.store buffer
        decoder := .post} [.stored nChannel (channel.buffers buffer).imgbuf] 0
  | post (here : channel.decoder = .post) :
      Stepped nChannel channel (.decoder nChannel) {channel with decoder := .decoding} [] 1
  | thrFps : Stepped nChannel channel (.thrFps nChannel) {channel with nFrameProcessed := 0} [] 0

variable [CvMat Mat]

inductive Stepped (cfg : Config) (ie : Nat → InferenceEngine (Picture Mat)) (w : World Mat) :
    Action Mat → World Mat → List (Event Mat) → Prop
  | channel (nChannel : Nat) (action : Action Mat) (next : Channel Mat)
      (events : List (Event Mat)) (posted : Nat) (inside : nChannel < cfg.c)
      (stepped : (w.channels nChannel).Stepped nChannel action next events posted) :
      Stepped cfg ie w action ((w.setChannel nChannel next).post posted) events
  | wakeScheduler (here : w.consumers .scheduler = .wait) (token : 0 < w.gNewtaskAvaiable) :
      Stepped cfg ie w (.consumer .scheduler)
        ({w with gNewtaskAvaiable := w.gNewtaskAvaiable - 1}.goto .scheduler (.scan 0)) []
  | wakeInfer (nChannel : Nat) (here : w.consumers (.infer nChannel) = .wait)
      (token : 0 < w.gsemtInfer nChannel) :
      Stepped cfg ie w (.consumer (.infer nChannel))
        ({w with
          gsemtInfer := update w.gsemtInfer nChannel (w.gsemtInfer nChannel - 1)}.goto
            (.infer nChannel) .drain) []
  | load (who : Consumer) (dpipe buffer : Nat) (lists : DualPipe.Lists)
      (here : w.consumers who = .scan dpipe) (inside : dpipe < cfg.c)
      (loaded : (w.channels dpipe).dpipe.load = some (buffer,lists)) :
      Stepped cfg ie w (.consumer who)
        ((w.setChannel dpipe {w.channels dpipe with dpipe := lists}).goto who
          (if cfg.workloadBalance then .route dpipe buffer else .createMat dpipe buffer)) []
  | skip (who : Consumer) (dpipe : Nat) (here : w.consumers who = .scan dpipe)
      (inside : dpipe < cfg.c) (unfilled : (w.channels dpipe).dpipe.load = none)
      (balanced : cfg.workloadBalance = true) :
      Stepped cfg ie w (.consumer who) (w.goto who (.scan (dpipe + 1))) []
  | rest (who : Consumer) (dpipe : Nat) (here : w.consumers who = .scan dpipe)
      (outside : ¬dpipe < cfg.c) : Stepped cfg ie w (.consumer who) (w.goto who .wait) []
  | route (who : Consumer) (dpipe buffer : Nat) (here : w.consumers who = .route dpipe buffer) :
      Stepped cfg ie w (.consumer who) (w.route who dpipe buffer) []
  | postInfer (who : Consumer) (dpipe nInferThreadInstance : Nat)
      (here : w.consumers who = .postInfer dpipe nInferThreadInstance) :
      Stepped cfg ie w (.consumer who) (w.postInfer who dpipe nInferThreadInstance) []
  | drained (who : Consumer) (here : w.consumers who = .drain)
      (untasked : w.gtaskque who.instance = []) :
      Stepped cfg ie w (.consumer who) (w.goto who .wait) []
  | task (who : Consumer) (task : InferTask) (rest : List InferTask)
      (here : w.consumers who = .drain) (tasked : w.gtaskque who.instance = task :: rest) :
      Stepped cfg ie w (.consumer who)
        ({w with gtaskque := update w.gtaskque who.instance rest}.goto who
          (.createMat task.dpipe task.dbuffer)) []
  | createMat (who : Consumer) (dpipe buffer : Nat)
      (here : w.consumers who = .createMat dpipe buffer) :
      Stepped cfg ie w (.consumer who)
        (w.goto who (.put dpipe buffer ((w.channels dpipe).buffers buffer).imgbuf)) []
  | put (who : Consumer) (dpipe buffer : Nat) (frame : Picture Mat)
      (here : w.consumers who = .put dpipe buffer frame) :
      Stepped cfg ie w (.consumer who) (w.put who dpipe buffer frame) []
  | readChannel (who : Consumer) (dpipe buffer : Nat) (frame : Picture Mat)
      (frameno : Option Int) (here : w.consumers who = .insert dpipe buffer frame none frameno) :
      Stepped cfg ie w (.readChannel who) (w.goto who (.insert dpipe buffer frame
        (some ((w.channels dpipe).buffers buffer).channel) frameno)) []
  | readFrameno (who : Consumer) (dpipe buffer : Nat) (frame : Picture Mat)
      (channel : Option Int) (here : w.consumers who = .insert dpipe buffer frame channel none) :
      Stepped cfg ie w (.readFrameno who) (w.goto who (.insert dpipe buffer frame channel
        (some ((w.channels dpipe).buffers buffer).frameno))) []
  | insertImage (who : Consumer) (waited : StatusCode) (dpipe buffer : Nat) (frame : Picture Mat)
      (channel frameno : Int) (detector : Detector (Picture Mat)) (objects : List (Result Mat))
      (faceret : InsertImgStatus)
      (here : w.consumers who = .insert dpipe buffer frame (some channel) (some frameno))
      (returns : (w.gDetector who.instance).insertImage (ie who.instance) waited frame
        (w.passed who) channel frameno 0 = .ok (detector,objects,faceret)) :
      Stepped cfg ie w (.insertImage who waited) (w.inserted who dpipe detector objects faceret)
        [.inserted who frame channel frameno,.delivered (handled faceret objects)]
  | resume (who : Consumer) (dpipe : Nat) (here : w.consumers who = .deliver dpipe []) :
      Stepped cfg ie w (.consumer who) (w.goto who (who.resume dpipe)) []
  | push (who : Consumer) (dpipe : Nat) (object : Result Mat) (objects : List (Result Mat))
      (here : w.consumers who = .deliver dpipe (object :: objects))
      (tracked : who = .scheduler ∧ cfg.testKcf = true) :
      Stepped cfg ie w (.consumer who) (w.push who dpipe object objects)
        [.pushed object.channelid object]
  | count (who : Consumer) (dpipe : Nat) (object : Result Mat) (objects : List (Result Mat))
      (here : w.consumers who = .deliver dpipe (object :: objects))
      (counts : ¬(who = .scheduler ∧ cfg.testKcf = true)) :
      Stepped cfg ie w (.consumer who) (w.count who dpipe object objects)
        [.counted object.inputid]
  | postResult (who : Consumer) (dpipe : Nat) (object : Result Mat) (objects : List (Result Mat))
      (here : w.consumers who = .postResult dpipe object objects) :
      Stepped cfg ie w (.consumer who) (w.postResult who dpipe object objects)
        [.posted object.channelid]
  | tracker (nChannel : Nat) (token : 0 < w.gDetectResultAvaiable nChannel) :
      Stepped cfg ie w (.tracker nChannel) (w.tracker nChannel) []

variable {cfg : Config} {ie : Nat → InferenceEngine (Picture Mat)} {w next : World Mat}
  {events : List (Event Mat)}

omit [CvMat Mat] in
private theorem decode_stepped {nChannel : Nat} {pixels : Option Mat}
    (stepped : w.decode nChannel pixels = some (next,events)) :
    ∃ channel, (w.channels nChannel).Stepped nChannel (.decode nChannel pixels) channel events 0 ∧
      next = w.setChannel nChannel channel := by
  unfold World.decode at stepped
  simp only at stepped
  split at stepped
  · next here =>
    cases stepped
    exact ⟨_,.decode pixels here,rfl⟩
  · contradiction

omit [CvMat Mat] in
private theorem decoder_stepped {nChannel : Nat}
    (stepped : w.decoder nChannel = some (next,events)) :
    ∃ channel posted, (w.channels nChannel).Stepped nChannel (.decoder nChannel) channel events
      posted ∧ next = (w.setChannel nChannel channel).post posted := by
  unfold World.decoder at stepped
  simp only at stepped
  split at stepped
  · contradiction
  · next pixels here =>
    split at stepped
    · next buffer lists got =>
      cases stepped
      exact ⟨_,0,.get pixels buffer lists here got,rfl⟩
    · contradiction
  · next buffer pixels here =>
    cases stepped
    exact ⟨_,0,.writeChannel buffer pixels here,rfl⟩
  · next buffer pixels here =>
    cases stepped
    exact ⟨_,0,.writeFrameno buffer pixels here,rfl⟩
  · next buffer pixels frameno here =>
    cases stepped
    exact ⟨_,0,.writeImgbuf buffer pixels frameno here,rfl⟩
  · next buffer here =>
    cases stepped
    exact ⟨_,0,.store buffer here,rfl⟩
  · next here =>
    cases stepped
    exact ⟨_,1,.post here,rfl⟩

private theorem awake_stepped {who : Consumer} (here : w.consumers who = .wait)
    (woken : w.awake who = some next) : Stepped cfg ie w (.consumer who) next [] := by
  unfold World.awake at woken
  cases who with
  | scheduler =>
    simp only at woken
    split at woken
    · next token =>
      cases woken
      exact .wakeScheduler here token
    · contradiction
  | infer nChannel =>
    simp only at woken
    split at woken
    · next token =>
      cases woken
      exact .wakeInfer nChannel here token
    · contradiction

private theorem scan_stepped {who : Consumer} {dpipe : Nat} (here : w.consumers who = .scan dpipe)
    (scanned : w.scan cfg who dpipe = some next) : Stepped cfg ie w (.consumer who) next [] := by
  unfold World.scan at scanned
  split at scanned
  · next inside =>
    simp only at scanned
    split at scanned
    · next buffer lists loaded =>
      cases scanned
      exact .load who dpipe buffer lists here inside loaded
    · next unfilled =>
      split at scanned
      · next balanced =>
        cases scanned
        exact .skip who dpipe here inside unfilled balanced
      · contradiction
  · next outside =>
    cases scanned
    exact .rest who dpipe here outside

private theorem drain_stepped {who : Consumer} (here : w.consumers who = .drain) :
    Stepped cfg ie w (.consumer who) (w.drain who) [] := by
  unfold World.drain
  split
  · next untasked => exact .drained who here untasked
  · next task rest tasked => exact .task who task rest here tasked

private theorem deliver_stepped {who : Consumer} {dpipe : Nat} {objects : List (Result Mat)}
    (here : w.consumers who = .deliver dpipe objects) :
    Stepped cfg ie w (.consumer who) (w.deliver cfg who dpipe objects).1
      (w.deliver cfg who dpipe objects).2 := by
  cases objects with
  | nil => exact .resume who dpipe here
  | cons object rest =>
    simp only [World.deliver]
    split
    · next tracked => exact .push who dpipe object rest here tracked
    · next counts => exact .count who dpipe object rest here counts

private theorem consumer_stepped {who : Consumer}
    (stepped : w.consumer cfg who = some (next,events)) :
    Stepped cfg ie w (.consumer who) next events := by
  unfold World.consumer at stepped
  split at stepped
  · next here =>
    obtain ⟨woken,awake,same⟩ := Option.map_eq_some_iff.mp stepped
    cases same
    exact awake_stepped here awake
  · next dpipe here =>
    obtain ⟨scanned,scan,same⟩ := Option.map_eq_some_iff.mp stepped
    cases same
    exact scan_stepped here scan
  · next dpipe buffer here =>
    cases stepped
    exact .route who dpipe buffer here
  · next dpipe nInferThreadInstance here =>
    cases stepped
    exact .postInfer who dpipe nInferThreadInstance here
  · next here =>
    cases stepped
    exact drain_stepped here
  · next dpipe buffer here =>
    cases stepped
    exact .createMat who dpipe buffer here
  · next dpipe buffer frame here =>
    cases stepped
    exact .put who dpipe buffer frame here
  · contradiction
  · next dpipe objects here =>
    have delivered : Stepped cfg ie w (.consumer who) (w.deliver cfg who dpipe objects).1
        (w.deliver cfg who dpipe objects).2 := deliver_stepped here
    rwa [Option.some.inj stepped] at delivered
  · next dpipe object objects here =>
    cases stepped
    exact .postResult who dpipe object objects here

private theorem insertImage_stepped {who : Consumer} {waited : StatusCode}
    (stepped : w.insertImage ie who waited = some (next,events)) :
    Stepped cfg ie w (.insertImage who waited) next events := by
  unfold World.insertImage at stepped
  split at stepped
  · next dpipe buffer frame channel frameno here =>
    split at stepped
    · next detector objects faceret returns =>
      cases stepped
      exact .insertImage who waited dpipe buffer frame channel frameno detector objects faceret
        here returns
    · contradiction
  · contradiction

private theorem readChannel_stepped {who : Consumer} (read : w.readChannel who = some next) :
    Stepped cfg ie w (.readChannel who) next [] := by
  unfold World.readChannel at read
  split at read
  · next dpipe buffer frame frameno here =>
    cases read
    exact .readChannel who dpipe buffer frame frameno here
  · contradiction

private theorem readFrameno_stepped {who : Consumer} (read : w.readFrameno who = some next) :
    Stepped cfg ie w (.readFrameno who) next [] := by
  unfold World.readFrameno at read
  split at read
  · next dpipe buffer frame channel here =>
    cases read
    exact .readFrameno who dpipe buffer frame channel here
  · contradiction

theorem step_stepped {action : Action Mat}
    (stepped : (pipeline cfg ie).step w action = some (next,events)) :
    Stepped cfg ie w action next events := by
  cases action with
  | decode nChannel pixels =>
    obtain ⟨inside,decoded⟩ := Option.ite_none_right_eq_some.mp stepped
    obtain ⟨channel,spec,rfl⟩ := decode_stepped decoded
    exact .channel nChannel _ channel events 0 inside spec
  | decoder nChannel =>
    obtain ⟨inside,decoded⟩ := Option.ite_none_right_eq_some.mp stepped
    obtain ⟨channel,posted,spec,rfl⟩ := decoder_stepped decoded
    exact .channel nChannel _ channel events posted inside spec
  | thrFps nChannel =>
    obtain ⟨inside,reset⟩ := Option.ite_none_right_eq_some.mp stepped
    cases reset
    exact .channel nChannel _ _ [] 0 inside .thrFps
  | consumer who =>
    obtain ⟨-,consumed⟩ := Option.ite_none_right_eq_some.mp stepped
    exact consumer_stepped consumed
  | readChannel who =>
    obtain ⟨after,read,same⟩ := Option.map_eq_some_iff.mp stepped
    cases same
    exact readChannel_stepped read
  | readFrameno who =>
    obtain ⟨after,read,same⟩ := Option.map_eq_some_iff.mp stepped
    cases same
    exact readFrameno_stepped read
  | insertImage who waited => exact insertImage_stepped stepped
  | tracker nChannel =>
    obtain ⟨token,taken⟩ := Option.ite_none_right_eq_some.mp stepped
    cases taken
    exact .tracker nChannel token

end Steps

end VideoAnalytics.Pipeline
