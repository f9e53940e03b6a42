import VideoAnalytics.Library.Machine

/-! The loop of DecodeThreadFunc in the TEST_KCF_TRACK_WITH_GPU build: which
decoded frames go to the tracker, flagged or not, and which to the detector. One
step is one iteration, with the answers of the Media SDK as its argument. A frame
is its number in the order of decoding. -/
namespace VideoAnalytics.DecodeLoop

/-- mfxStatus as the loop tells it apart: warnings are above MFX_ERR_NONE, and
the other errors below. -/
inductive Status
  | errNone
  | errMoreData
  | errMoreSurface
  | warning (code : Nat)
  | error (code : Nat)
  deriving DecidableEq, Repr

def Status.isWarning : Status → Bool
  | .warning _ => true
  | _ => false

structure Answers where
  grunning : Bool
  read : Status
  readAgain : Status
  decodeFrameAsync : Status
  syncpDec : Bool
  srcTrackFrame : Bool
  runFrameVPPAsync : List (Status × Bool)
  syncOperation : Status

structure Decoder where
  sts : Status
  nFrame : Nat
  decoded : Nat
  left : Bool
  deriving DecidableEq, Repr

inductive Event
  | tracked (frame : Nat) (bROIRrefresh : Bool)
  | inferred (frame : Nat)
  deriving DecidableEq, Repr

/-- The condition of the while loop, once no break has left it. -/
def Decoder.goesOn (decoder : Decoder) : Bool :=
  !decoder.left && match decoder.sts with
    | .errNone => true
    | .errMoreData => true
    | .errMoreSurface => true
    | .warning _ => true
    | .error _ => false

def Decoder.break (decoder : Decoder) : Decoder := {decoder with left := true}

/-- The calls of RunFrameVPPAsync, repeated after a warning without output. -/
def runVpp : List (Status × Bool) → Option Status
  | [] => none
  | (sts,syncpVPP) :: rest =>
    if sts.isWarning && !syncpVPP then runVpp rest
    else if sts.isWarning then some .errNone
    else some sts

def Decoder.detect (infer : Int) (decoder : Decoder) (answers : Answers) (frame : Nat) :
    Option (Decoder × List Event) :=
  match runVpp answers.runFrameVPPAsync with
  | none => none
  | some .errMoreData => some ({decoder with sts := .errMoreData},[])
  | some .errMoreSurface => some ({decoder with sts := .errMoreSurface}.break,[])
  | some .errNone =>
    -- The status of SyncOperation is looked at only by the next iteration.
    let decoder := {decoder with sts := answers.syncOperation}
    if infer = 0 then some (decoder,[])
    else some ({decoder with nFrame := decoder.nFrame + 1},[.inferred frame])
  | some sts => some ({decoder with sts := sts,nFrame := decoder.nFrame + 1},[])

def Decoder.decodeFrame (infer : Int) (decoder : Decoder) (answers : Answers) :
    Option (Decoder × List Event) :=
  let sts := if answers.decodeFrameAsync.isWarning && answers.syncpDec then .errNone
    else answers.decodeFrameAsync
  if sts = .errNone then
    let frame := decoder.decoded + 1
    let decoder := {decoder with sts := sts,decoded := frame}
    if !answers.srcTrackFrame then some (decoder.break,[])
    else if decoder.nFrame % 6 = 0 then
      (decoder.detect infer answers frame).map fun (next,emitted) =>
        (next,.tracked frame true :: emitted)
    else some ({decoder with nFrame := decoder.nFrame + 1},[.tracked frame false])
  else some ({decoder with sts := sts},[])

/-- One iteration. `infer` is the flag that switches inference off with zero. -/
def Decoder.iterate (infer : Int) (decoder : Decoder) (answers : Answers) :
    Option (Decoder × List Event) :=
  if !answers.grunning then some (decoder.break,[])
  else if decoder.sts = .errMoreData then
    let sts := if answers.read ≠ .errNone then answers.readAgain else answers.read
    if sts ≠ .errNone then some ({decoder with sts := sts}.break,[])
    else {decoder with sts := sts}.decodeFrame infer answers
  else decoder.decodeFrame infer answers

def decodeLoop (infer : Int) : Machine.System Decoder Answers Event where
  step decoder answers := if decoder.goesOn then decoder.iterate infer answers else none

def start : Decoder := ⟨.errNone,0,0,false⟩

def keyFrames (trace : List Event) : List Nat :=
  trace.filterMap fun
    | .tracked frame true => some frame
    | .tracked _ false => none
    | .inferred _ => none

def inferredFrames (trace : List Event) : List Nat :=
  trace.filterMap fun
    | .tracked _ _ => none
    | .inferred frame => some frame

def Answers.YieldsKeyFrame (decoder : Decoder) (answers : Answers) : Prop :=
  decoder.nFrame % 6 = 0 ∧ (answers.decodeFrameAsync = .errNone ∨
    (answers.decodeFrameAsync.isWarning ∧ answers.syncpDec))

/-- A key frame is for inference, and VPP yields its picture. -/
def Answers.Detects (infer : Int) (decoder : Decoder) (answers : Answers) : Prop :=
  answers.YieldsKeyFrame decoder →
    infer ≠ 0 ∧ runVpp answers.runFrameVPPAsync = some .errNone

inductive Iterated (infer : Int) (decoder : Decoder) (answers : Answers) :
    Decoder → List Event → Prop
  | ended (next : Decoder) (emitted : List Event) (stops : next.goesOn = false) :
      Iterated infer decoder answers next emitted
  | quiet (next : Decoder) (same : next.decoded = decoder.decoded)
      (detects : answers.Detects infer decoder) : Iterated infer decoder answers next []
  | plain (next : Decoder) (more : next.decoded = decoder.decoded + 1)
      (detects : answers.Detects infer decoder) :
      Iterated infer decoder answers next [.tracked (decoder.decoded + 1) false]
  | detected (next : Decoder) (more : next.decoded = decoder.decoded + 1)
      (detects : answers.Detects infer decoder) :
      Iterated infer decoder answers next
        [.tracked (decoder.decoded + 1) true,.inferred (decoder.decoded + 1)]
  | missed (next : Decoder) (more : next.decoded = decoder.decoded + 1)
      (fails : ¬answers.Detects infer decoder) :
      Iterated infer decoder answers next [.tracked (decoder.decoded + 1) true]

private theorem detect_iterated (infer : Int) (decoder next : Decoder) (answers : Answers)
    (emitted : List Event) (key : answers.YieldsKeyFrame decoder)
    (detected : {decoder with sts := Status.errNone,decoded := decoder.decoded + 1}.detect infer
      answers (decoder.decoded + 1) = some (next,emitted)) :
    Iterated infer decoder answers next (.tracked (decoder.decoded + 1) true :: emitted) := by
  have needs : answers.Detects infer decoder →
      infer ≠ 0 ∧ runVpp answers.runFrameVPPAsync = some .errNone := fun detects => detects key
  unfold Decoder.detect at detected
  cases vpp : runVpp answers.runFrameVPPAsync with
  | none =>
    rw [vpp] at detected
    contradiction
  | some sts =>
    rw [vpp] at detected needs
    cases sts with
    | errNone =>
      by_cases off : infer = 0
      · simp only [if_pos off,Option.some.injEq,Prod.mk.injEq] at detected
        obtain ⟨rfl,rfl⟩ := detected
        exact .missed _ rfl fun detects => (needs detects).1 off
      · simp only [if_neg off,Option.some.injEq,Prod.mk.injEq] at detected
        obtain ⟨rfl,rfl⟩ := detected
        exact .detected _ rfl fun _ => ⟨off,vpp⟩
    | errMoreData =>
      simp only [Option.some.injEq,Prod.mk.injEq] at detected
      obtain ⟨rfl,rfl⟩ := detected
      exact .missed _ rfl fun detects => by simpa using (needs detects).2
    | errMoreSurface =>
      simp only [Option.some.injEq,Prod.mk.injEq] at detected
      obtain ⟨rfl,rfl⟩ := detected
      exact .ended _ _ rfl
    | warning code =>
      simp only [Option.some.injEq,Prod.mk.injEq] at detected
      obtain ⟨rfl,rfl⟩ := detected
      exact .missed _ rfl fun detects => by simpa using (needs detects).2
    | error code =>
      simp only [Option.some.injEq,Prod.mk.injEq] at detected
      obtain ⟨rfl,rfl⟩ := detected
      exact .missed _ rfl fun detects => by simpa using (needs detects).2

private theorem decodeFrame_iterated (infer : Int) (decoder next : Decoder) (answers : Answers)
    (emitted : List Event)
    (stepped : decoder.decodeFrame infer answers = some (next,emitted)) :
    Iterated infer decoder answers next emitted := by
  have yields : (if answers.decodeFrameAsync.isWarning && answers.syncpDec then Status.errNone
      else answers.decodeFrameAsync) = .errNone ↔ (answers.decodeFrameAsync = .errNone ∨
        (answers.decodeFrameAsync.isWarning ∧ answers.syncpDec)) := by
    by_cases warned : answers.decodeFrameAsync.isWarning && answers.syncpDec
    · have both := warned
      rw [Bool.and_eq_true] at both
      simp [both]
    · have both := warned
      rw [Bool.and_eq_true] at both
      rw [if_neg warned,or_iff_left both]
  unfold Decoder.decodeFrame at stepped
  by_cases decoded : (if answers.decodeFrameAsync.isWarning && answers.syncpDec then Status.errNone
      else answers.decodeFrameAsync) = .errNone
  · simp only [decoded,if_true] at stepped
    cases found : answers.srcTrackFrame with
    | false =>
      simp only [found,Bool.not_false,if_true,Option.some.injEq,Prod.mk.injEq] at stepped
      obtain ⟨rfl,rfl⟩ := stepped
      exact .ended _ _ rfl
    | true =>
      simp only [found,Bool.not_true,Bool.false_eq_true,if_false] at stepped
      by_cases key : decoder.nFrame % 6 = 0
      · simp only [key,if_true,Option.map_eq_some_iff,Prod.exists,Prod.mk.injEq] at stepped
        obtain ⟨after,events,detected,rfl,rfl⟩ := stepped
        exact detect_iterated infer decoder after answers events ⟨key,yields.mp decoded⟩ detected
      · simp only [key,if_false,Option.some.injEq,Prod.mk.injEq] at stepped
        obtain ⟨rfl,rfl⟩ := stepped
        exact .plain _ rfl fun yielded => absurd yielded.1 key
  · simp only [decoded,if_false,Option.some.injEq,Prod.mk.injEq] at stepped
    obtain ⟨rfl,rfl⟩ := stepped
    exact .quiet _ rfl fun yielded => absurd (yields.mpr yielded.2) decoded

private theorem iterate_iterated (infer : Int) (decoder next : Decoder) (answers : Answers)
    (emitted : List Event) (stepped : decoder.iterate infer answers = some (next,emitted)) :
    Iterated infer decoder answers next emitted := by
  unfold Decoder.iterate at stepped
  cases running : answers.grunning with
  | false =>
    simp only [running,Bool.not_false,if_true,Option.some.injEq,Prod.mk.injEq] at stepped
    obtain ⟨rfl,rfl⟩ := stepped
    exact .ended _ _ rfl
  | true =>
    simp only [running,Bool.not_true,Bool.false_eq_true,if_false] at stepped
    by_cases hungry : decoder.sts = .errMoreData
    · rw [if_pos hungry] at stepped
      by_cases refilled : (if answers.read ≠ .errNone then answers.readAgain else answers.read) =
          .errNone
      · rw [if_neg (not_not.mpr refilled)] at stepped
        have iterated := decodeFrame_iterated infer _ next answers emitted stepped
        cases iterated with
        | ended _ stops => exact .ended _ _ stops
        | quiet same detects => exact .quiet _ same detects
        | plain more detects => exact .plain _ more detects
        | detected more detects => exact .detected _ more detects
        | missed more fails => exact .missed _ more fails
      · simp only [if_pos refilled,Option.some.injEq,Prod.mk.injEq] at stepped
        obtain ⟨rfl,rfl⟩ := stepped
        exact .ended _ _ rfl
    · rw [if_neg hungry] at stepped
      exact decodeFrame_iterated infer decoder next answers emitted stepped

@[simp] theorem keyFrames_append (first second : List Event) :
    keyFrames (first ++ second) = keyFrames first ++ keyFrames second := List.filterMap_append

@[simp] theorem inferredFrames_append (first second : List Event) :
    inferredFrames (first ++ second) = inferredFrames first ++ inferredFrames second :=
  List.filterMap_append

private theorem run_continues (infer : Int) (iterations : List Answers) (before after : Decoder)
    (trace : List Event) (ran : (decodeLoop infer).run before iterations = some (after,trace))
    (continues : after.goesOn) : before.goesOn := by
  cases iterations with
  | nil =>
    simp only [Machine.run_nil,Option.some.injEq,Prod.mk.injEq] at ran
    rw [ran.1]
    exact continues
  | cons answers rest =>
    obtain ⟨next,emitted,tail,stepped,-,-⟩ := Machine.run_cons.mp ran
    by_contra stopped
    simp only [decodeLoop,if_neg stopped] at stepped
    contradiction

/-- A key frame that is missed once is never made up for: the frames sent for
inference later are decoded later. -/
theorem iterated_frames {infer : Int} {before next : Decoder} {answers : Answers}
    {emitted tail : List Event} (iterated : Iterated infer before answers next emitted)
    (continues : next.goesOn) (later : ∀ frame ∈ inferredFrames tail, next.decoded < frame) :
    (∀ frame ∈ inferredFrames (emitted ++ tail), before.decoded < frame) ∧
      (keyFrames (emitted ++ tail) = inferredFrames (emitted ++ tail) ↔
        answers.Detects infer before ∧ keyFrames tail = inferredFrames tail) := by
  rw [keyFrames_append,inferredFrames_append]
  cases iterated with
  | ended _ stops =>
    rw [stops] at continues
    contradiction
  | quiet same detects =>
    rw [same] at later
    exact ⟨by simpa [inferredFrames] using later,by simp [keyFrames,inferredFrames,detects]⟩
  | plain more detects =>
    refine ⟨?_,by simp [keyFrames,inferredFrames,detects]⟩
    intro frame member
    have after_next := later frame (by simpa [inferredFrames] using member)
    omega
  | detected more detects =>
    refine ⟨?_,by simp [keyFrames,inferredFrames,detects]⟩
    intro frame member
    rcases List.mem_append.mp member with now | member
    · have here : frame = before.decoded + 1 := by simpa [inferredFrames] using now
      omega
    · have after_next := later frame member
      omega
  | missed more fails =>
    constructor
    · intro frame member
      have after_next := later frame (by simpa [inferredFrames] using member)
      omega
    · constructor
      · intro same
        have member : before.decoded + 1 ∈ inferredFrames tail := by
          have split : (before.decoded + 1) :: keyFrames tail = inferredFrames tail := same
          rw [← split]
          exact List.mem_cons_self
        have after_next := later _ member
        omega
      · rintro ⟨detects,-⟩
        exact absurd detects fails

private theorem run_frames (infer : Int) (iterations : List Answers) (before after : Decoder)
    (trace : List Event) (ran : (decodeLoop infer).run before iterations = some (after,trace))
    (continues : after.goesOn) :
    (∀ frame ∈ inferredFrames trace, before.decoded < frame) ∧
      (keyFrames trace = inferredFrames trace ↔ (decodeLoop infer).Along
        (fun decoder answers => answers.Detects infer decoder) before iterations) := by
  induction iterations generalizing before trace with
  | nil =>
    simp only [Machine.run_nil,Option.some.injEq,Prod.mk.injEq] at ran
    obtain ⟨rfl,rfl⟩ := ran
    exact ⟨by simp [inferredFrames],by simp [keyFrames,inferredFrames,Machine.System.Along]⟩
  | cons answers rest ih =>
    obtain ⟨next,emitted,tail,stepped,tail_ran,rfl⟩ := Machine.run_cons.mp ran
    obtain ⟨later,equal⟩ := ih next tail tail_ran
    have along : (decodeLoop infer).Along (fun decoder answers => answers.Detects infer decoder)
        before (answers :: rest) ↔
          answers.Detects infer before ∧ keyFrames tail = inferredFrames tail := by
      simp only [Machine.System.Along,stepped,Option.some.injEq,Prod.mk.injEq,and_imp,equal]
      exact ⟨fun holds => holds next emitted rfl rfl,fun holds _ _ same _ => same ▸ holds⟩
    have iterated : Iterated infer before answers next emitted := by
      have starts := run_continues infer _ before after _ ran continues
      simp only [decodeLoop,if_pos starts] at stepped
      exact iterate_iterated infer before next answers emitted stepped
    rw [along]
    exact iterated_frames iterated (run_continues infer _ next after _ tail_ran continues) later

/-- Whenever the loop starts another iteration, the key frames are the frames
sent for inference exactly if each key frame was for inference and VPP had
yielded its picture. -/
theorem key_frames_detected_iff (infer : Int) (iterations : List Answers) (decoder : Decoder)
    (trace : List Event) (ran : (decodeLoop infer).run start iterations = some (decoder,trace))
    (continues : decoder.goesOn) :
    keyFrames trace = inferredFrames trace ↔ (decodeLoop infer).Along
      (fun decoder answers => answers.Detects infer decoder) start iterations :=
  (run_frames infer iterations start decoder trace ran continues).2

def plainAnswers : Answers where
  grunning := true
  read := .errNone
  readAgain := .errNone
  decodeFrameAsync := .errNone
  syncpDec := true
  srcTrackFrame := true
  runFrameVPPAsync := [(.warning 2,false),(.errNone,true)]
  syncOperation := .errNone

theorem key_frames_detected_iff_two : ∃ decoder trace,
    (decodeLoop 1).run start [plainAnswers,plainAnswers] = some (decoder,trace) ∧
      (keyFrames trace = inferredFrames trace ↔ (decodeLoop 1).Along
        (fun decoder answers => answers.Detects 1 decoder) start [plainAnswers,plainAnswers]) :=
  ⟨_,_,rfl,key_frames_detected_iff 1 [plainAnswers,plainAnswers] _ _ rfl rfl⟩

/-- VPP asks for more data after the first frame was stored for the tracker. -/
theorem key_frame_not_detected : ¬∀ (infer : Int) (iterations : List Answers) (decoder : Decoder)
    (trace : List Event), (decodeLoop infer).run start iterations = some (decoder,trace) →
      decoder.goesOn → keyFrames trace = inferredFrames trace := by
  intro claimed
  have same := claimed 1 [{plainAnswers with runFrameVPPAsync := [(.errMoreData,false)]}] _ _ rfl rfl
  exact absurd same (by decide)

end VideoAnalytics.DecodeLoop
