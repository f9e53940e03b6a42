import VideoAnalytics.FrameAllocatorRuns

/-! When the response of a successful simple_alloc suits its request: the frames
made for the request do, those of the saved response need not. -/
namespace VideoAnalytics.FrameAllocator

/-- There are frames enough, and each was created with the FourCC, Width and
Height of the request. -/
structure Fits (a : Allocator) (request : FrameAllocRequest) (response : FrameAllocResponse) :
    Prop where
  enough : request.numFrameSuggested ≤ response.numFrameActual
  frames : a.FramesOf request.info response

def Call.Fits (client : Client) : Call → Prop
  | .alloc env pthis request response =>
    let (sts,left,allocator,_) := simpleAlloc env pthis request response client.allocator
    sts = .errNone → ∃ asked given, request = some asked ∧ left = some given ∧
      FrameAllocator.Fits allocator asked given
  | .free _ _ => True

/-- If the call is answered with the saved response, then that one was made for a
request with the same frame description. -/
def Call.ReuseMatches (client : Client) : Call → Prop
  | .alloc _ pthis (some request) response =>
    AnswersSaved pthis request response client.allocator →
      ∃ info, client.savedInfo pthis = some info ∧ creation 0 info = creation 0 request.info
  | .alloc _ _ none _ => True
  | .free _ _ => True

def VaObject.inContext (context : Nat) : VaObject → VaObject
  | .surface format width height => .surface format width height
  | .codedBuffer _ size => .codedBuffer context size

private theorem creation_inContext (first second : Nat) (info : FrameInfo) :
    (creation first info).map (VaObject.inContext second) = creation second info := by
  unfold creation
  cases convertMfxFourccToVAFormat info.fourCC with
  | none => rfl
  | some format =>
    simp only [Option.map_some,Option.some.injEq]
    split <;> rfl

private theorem saved_fits_iff (a : Allocator) (request : FrameAllocRequest) (info : FrameInfo)
    (saved : FrameAllocResponse) (matched : reuses request saved) (frames : a.FramesOf info saved) :
    Fits a request saved ↔ creation 0 info = creation 0 request.info := by
  simp only [reuses,Bool.and_eq_true,decide_eq_true_eq] at matched
  constructor
  · intro fits
    have some_frames : 0 < saved.numFrameActual := Nat.pos_of_ne_zero matched.2
    obtain ⟨object,context,found,described⟩ := frames 0 some_frames
    obtain ⟨other,wanted,again,requested⟩ := fits.frames 0 some_frames
    obtain rfl : object = other := by
      rw [found] at again
      exact Option.some.inj again
    rw [← creation_inContext context 0 info,← creation_inContext wanted 0 request.info,described,
      requested]
  · intro same
    refine ⟨matched.1.1,?_⟩
    intro i within
    obtain ⟨object,context,found,described⟩ := frames i within
    refine ⟨object,context,found,?_⟩
    rw [← creation_inContext 0 context,← same,creation_inContext]
    exact described

private theorem alloc_fits_iff (client : Client) (env : AllocEnv) (pthis : Nat)
    (request : FrameAllocRequest) (response : Option FrameAllocResponse) (kept : Kept client)
    (fresh : env.Fresh client.allocator request.numFrameSuggested) :
    Call.Fits client (.alloc env pthis (some request) response) ↔
      Call.ReuseMatches client (.alloc env pthis (some request) response) := by
  have answered := simpleAlloc_answered env pthis request response client.allocator fresh
  unfold Call.Fits Call.ReuseMatches
  simp only
  generalize simpleAlloc env pthis (some request) response client.allocator = answer at answered ⊢
  cases answered with
  | refused sts left b events error same quiet unmade unmatched =>
    constructor
    · intro fits answers
      exact absurd answers unmatched
    · intro matches_saved ok
      exact absurd ok error
  | reused b matched same =>
    have some_frames : (client.allocator.shared pthis).mfxResponse.numFrameActual ≠ 0 := by
      have reuse := matched.2.2
      simp only [reuses,Bool.and_eq_true,decide_eq_true_eq] at reuse
      exact reuse.2
    obtain ⟨info,known,frames⟩ := kept.saved pthis some_frames
    have fits_iff := saved_fits_iff b request info _ matched.2.2 (same.grown.framesOf frames)
    simp only [true_implies,Option.some.injEq,known,matched]
    constructor
    · rintro ⟨asked,given,rfl,rfl,fits⟩
      exact ⟨info,rfl,fits_iff.mp fits⟩
    · rintro ⟨_,rfl,same_info⟩
      exact ⟨request,_,rfl,rfl,fits_iff.mpr same_info⟩
  | made object b events unmatched described surfaces blocks frames picture heap va owners saved =>
    constructor
    · intro fits answers
      exact absurd answers.2.2 unmatched
    · intro matches_saved ok
      refine ⟨request,_,rfl,rfl,Nat.le_refl _,?_⟩
      intro i within
      exact ⟨object,_,stored_frameObject fresh blocks heap va within,described⟩

private theorem step_fits_iff (client next : Client) (call : Call) (events : List VaEvent)
    (kept : Kept client) (stepped : clients.step client call = some (next,events)) :
    call.Fits client ↔ call.ReuseMatches client := by
  cases call with
  | alloc env pthis request response =>
    cases request with
    | none => simp [Call.Fits,Call.ReuseMatches,simpleAlloc]
    | some request =>
      simp only [clients] at stepped
      split at stepped
      · next fresh => exact alloc_fits_iff client env pthis request response kept fresh
      · contradiction
  | free pthis response => exact Iff.rfl

/-- Over every history the responses fit their requests exactly if each request
that the saved response answers has the frame description that one was made for. -/
theorem allocations_fit_iff (calls : List Call) :
    clients.Along (fun client call => call.Fits client) start calls ↔
      clients.Along (fun client call => call.ReuseMatches client) start calls := by
  refine Machine.along_congr Kept ?_ ?_ calls kept_start
  · intro client call next events kept stepped
    exact kept_step client next call events kept stepped
  · intro client call next events kept stepped
    exact step_fits_iff client next call events kept stepped

/-- A session asks for three NV12 frames, and after a change of the stream for
two of another size. -/
def streamChange : List Call :=
  let type : MemType := ⟨true,false,true,true⟩
  [.alloc ⟨1,2,3,[7,8,9],.success,fun _ => .success⟩ 5 (some ⟨⟨.nv12,640,480⟩,type,3,0⟩)
      (some ⟨0,0⟩),
    .alloc ⟨11,12,13,[17,18],.success,fun _ => .success⟩ 5 (some ⟨⟨.nv12,1920,1088⟩,type,2,0⟩)
      (some ⟨0,0⟩)]

theorem saved_response_of_other_size :
    ¬clients.Along (fun client call => call.Fits client) start streamChange := by
  intro along
  obtain ⟨-,later⟩ := along _ _ rfl
  obtain ⟨fits,-⟩ := later _ _ rfl
  obtain ⟨asked,given,same_request,same_response,fitting⟩ := fits rfl
  obtain rfl := Option.some.inj same_request
  obtain rfl := Option.some.inj same_response
  obtain ⟨object,context,found,described⟩ := fitting.frames 0 (by decide)
  obtain rfl := Option.some.inj described
  have sizes : some (VaObject.surface .nv12 640 480) = some (.surface .nv12 1920 1088) := found
  exact absurd sizes (by decide)

end VideoAnalytics.FrameAllocator
