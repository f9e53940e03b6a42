import VideoAnalytics.FrameAllocator

/-! What one call of the frame allocator does to the maps, the heap and VA: the
allocations it can answer with, and why no call to simple_free frees anything. -/
namespace VideoAnalytics.FrameAllocator

open Function (update)

@[simp] theorem shared_setShared (a : Allocator) (pthis other : Nat) (entry : SharedResponse) :
    (a.setShared pthis entry).shared other = if other = pthis then entry else a.shared other := by
  by_cases same : other = pthis
  · subst same
    simp [Allocator.shared,Allocator.setShared]
  · simp [Allocator.shared,Allocator.setShared,same]

@[simp] theorem shared_eraseShared (a : Allocator) (pthis other : Nat) :
    (a.eraseShared pthis).shared other = if other = pthis then ⟨⟨0,0⟩,0⟩ else a.shared other := by
  by_cases same : other = pthis
  · subst same
    simp [Allocator.shared,Allocator.eraseShared]
  · simp [Allocator.shared,Allocator.eraseShared,same]

/-- Two allocators that hold the same responses and memory: reference counts
aside, and an entry that operator[] inserted reads like an absent one. -/
structure SameView (a b : Allocator) : Prop where
  heap : b.heap = a.heap
  va : b.va = a.va
  owners : b.allocResponses = a.allocResponses
  saved : ∀ pthis, (b.shared pthis).mfxResponse = (a.shared pthis).mfxResponse

private theorem sameView_count (a : Allocator) (pthis : Nat) (refCount : Int) :
    SameView a (a.setShared pthis ⟨(a.shared pthis).mfxResponse,refCount⟩) := by
  refine ⟨rfl,rfl,rfl,?_⟩
  intro other
  rw [shared_setShared]
  split
  · next same => rw [same]
  · rfl

private theorem SameView.trans {a b c : Allocator} (first : SameView a b) (second : SameView b c) :
    SameView a c :=
  ⟨second.heap.trans first.heap,second.va.trans first.va,second.owners.trans first.owners,
    fun pthis => (second.saved pthis).trans (first.saved pthis)⟩

private theorem createBuffers_success (bufferStatus : Nat → VAStatus) (surfacesNum remaining : Nat)
    (ok : (createBuffers bufferStatus surfacesNum remaining).1 = .errNone) :
    (createBuffers bufferStatus surfacesNum remaining).2 = surfacesNum := by
  induction remaining with
  | zero => rfl
  | succ remaining ih =>
    simp only [createBuffers] at ok ⊢
    split at ok
    · next failed => exact absurd ok failed
    · next made =>
      rw [if_neg made]
      exact ih ok

private theorem vaDestroy_vaCreate (a : Allocator) (object : VaObject) (ids : List Nat)
    (unused : ∀ id ∈ ids, (a.va id).isNone) : (a.vaCreate object ids).vaDestroy ids = a := by
  have same : (fun id => if id ∈ ids then none else if id ∈ ids then some object else a.va id) =
      a.va := by
    funext id
    by_cases member : id ∈ ids
    · have absent := unused id member
      rw [Option.isNone_iff_eq_none] at absent
      simp [member,absent]
    · simp [member]
  simp only [Allocator.vaDestroy,Allocator.vaCreate,same]

/-- The events of a call that creates these surfaces and destroys none. -/
structure SurfacesMade (events : List VaEvent) (ids : List Nat) : Prop where
  created : ∀ id, .createdSurface id ∈ events ↔ id ∈ ids
  kept : ∀ id, .destroyedSurface id ∉ events

private theorem surfacesMade_nil : SurfacesMade [] [] := ⟨by simp,by simp⟩

def surfacesFor (info : FrameInfo) (ids : List Nat) : List Nat :=
  if convertMfxFourccToVAFormat info.fourCC = some .p208 then [] else ids

def AllocEnv.Blocks (env : AllocEnv) : Prop :=
  env.surfaces ≠ 0 ∧ env.vaapiMids ≠ 0 ∧ env.mids ≠ 0

/-- The inputs on which `_simple_alloc` creates surfaces. -/
def PictureMade (env : AllocEnv) (request : FrameAllocRequest) : Prop :=
  request.numFrameSuggested ≠ 0 ∧ env.Blocks ∧ vaToMfxStatus env.surfaceStatus = .errNone ∧
    ∃ format, convertMfxFourccToVAFormat request.info.fourCC = some format ∧ format ≠ .p208

/-- `_simple_alloc` fails and leaves everything as it was, or creates one VA
object of the requested description for each of the frames. -/
inductive Allocated (env : AllocEnv) (request : FrameAllocRequest) (a : Allocator) :
    MfxStatus × FrameAllocResponse × Allocator × List VaEvent → Prop
  | failed (sts : MfxStatus) (events : List VaEvent) (error : sts ≠ .errNone)
      (quiet : SurfacesMade events []) (unmade : ¬PictureMade env request) :
      Allocated env request a (sts,⟨0,0⟩,a,events)
  | made (object : VaObject) (events : List VaEvent)
      (described : creation request.reserved request.info = some object)
      (surfaces : SurfacesMade events (surfacesFor request.info env.ids))
      (frames : request.numFrameSuggested ≠ 0) (blocks : env.Blocks)
      (picture : PictureMade env request ↔
        convertMfxFourccToVAFormat request.info.fourCC ≠ some .p208) :
      Allocated env request a (.errNone,⟨env.mids,request.numFrameSuggested⟩,
        (a.vaCreate object env.ids).store env request.info.fourCC request.numFrameSuggested,
        events)

theorem _simpleAlloc_allocated (env : AllocEnv) (request : FrameAllocRequest) (a : Allocator)
    (fresh : env.Fresh a request.numFrameSuggested) :
    Allocated env request a (_simpleAlloc env request a) := by
  have unused : ∀ taken, ∀ id ∈ env.ids.take taken, (a.va id).isNone := by
    intro taken id member
    exact fresh.2.2.2.2 id (List.mem_of_mem_take member)
  cases format : convertMfxFourccToVAFormat request.info.fourCC with
  | none =>
    simp only [_simpleAlloc,format]
    exact .failed _ _ (by simp) surfacesMade_nil (by simp [PictureMade,format])
  | some vaFourcc =>
    simp only [_simpleAlloc,format]
    split
    · next empty => exact .failed _ _ (by simp) surfacesMade_nil (by simp [PictureMade,empty])
    next frames =>
    split
    · next missing =>
      refine .failed _ _ (by simp) surfacesMade_nil ?_
      intro made
      have blocks := made.2.1
      simp only [AllocEnv.Blocks] at blocks
      omega
    next blocks =>
    simp only [not_or] at blocks
    split
    · next picture =>
      split
      · next made =>
        have surfaces : surfacesFor request.info env.ids = env.ids := by
          simp [surfacesFor,format,picture]
        rw [made]
        refine .made _ _ ?_ ⟨?_,by simp⟩ frames blocks ?_
        · simp [creation,format,picture]
        · rw [surfaces]
          simp
        · simp [PictureMade,format,picture,frames,blocks,made,AllocEnv.Blocks]
      · next failed =>
        exact .failed _ _ failed surfacesMade_nil (by simp [PictureMade,failed])
    · next coded =>
      simp only [ne_eq,not_not] at coded
      have surfaces : surfacesFor request.info env.ids = [] := by
        simp [surfacesFor,format,coded]
      have unmade : ¬PictureMade env request := by
        simp [PictureMade,format,coded]
      split
      · next made =>
        have counted := createBuffers_success _ _ _ made
        have whole : env.ids.take request.numFrameSuggested = env.ids := by
          rw [← fresh.2.2.2.1,List.take_length]
        rw [counted,whole,made]
        refine .made _ _ ?_ ⟨?_,by simp⟩ frames blocks ?_
        · simp [creation,format,coded]
        · rw [surfaces]
          simp
        · simp [unmade,format,coded]
      · next failed =>
        rw [vaDestroy_vaCreate _ _ _ (unused _)]
        exact .failed _ _ failed ⟨by simp [-List.map_take],by simp [-List.map_take]⟩ unmade

/-- The checks before the saved response is looked at. -/
def FrameAllocRequest.Accepted (request : FrameAllocRequest) : Prop :=
  request.numFrameSuggested ≠ 0 ∧ (request.type.decoderTarget || request.type.processorTarget)

def CreatesSurfaces (env : AllocEnv) (pthis : Nat) (request : FrameAllocRequest)
    (response : Option FrameAllocResponse) (a : Allocator) : Prop :=
  request.Accepted ∧ response.isSome ∧ ¬reuses request (a.shared pthis).mfxResponse ∧
    PictureMade env request

def AnswersSaved (pthis : Nat) (request : FrameAllocRequest)
    (response : Option FrameAllocResponse) (a : Allocator) : Prop :=
  request.Accepted ∧ response.isSome ∧ reuses request (a.shared pthis).mfxResponse

/-- An answer of simple_alloc: an error, the saved response, or new frames. -/
inductive Answered (env : AllocEnv) (pthis : Nat) (request : FrameAllocRequest)
    (response : Option FrameAllocResponse) (a : Allocator) :
    MfxStatus × Option FrameAllocResponse × Allocator × List VaEvent → Prop
  | refused (sts : MfxStatus) (left : Option FrameAllocResponse) (b : Allocator)
      (events : List VaEvent) (error : sts ≠ .errNone) (same : SameView a b)
      (quiet : SurfacesMade events []) (unmade : ¬CreatesSurfaces env pthis request response a)
      (unmatched : ¬AnswersSaved pthis request response a) :
      Answered env pthis request response a (sts,left,b,events)
  | reused (b : Allocator) (matched : AnswersSaved pthis request response a)
      (same : SameView a b) :
      Answered env pthis request response a
        (.errNone,some (a.shared pthis).mfxResponse,b,[])
  | made (object : VaObject) (b : Allocator) (events : List VaEvent)
      (unmatched : ¬reuses request (a.shared pthis).mfxResponse)
      (described : creation request.reserved request.info = some object)
      (surfaces : SurfacesMade events (surfacesFor request.info env.ids))
      (blocks : env.Blocks) (frames : request.numFrameSuggested ≠ 0)
      (picture : CreatesSurfaces env pthis request response a ↔
        convertMfxFourccToVAFormat request.info.fourCC ≠ some .p208)
      (heap : b.heap = (a.store env request.info.fourCC request.numFrameSuggested).heap)
      (va : b.va = (a.vaCreate object env.ids).va)
      (owners : b.allocResponses = if request.type.decode then a.allocResponses
        else update a.allocResponses env.mids (some pthis))
      (saved : ∀ other, (b.shared other).mfxResponse =
        if request.type.decode ∧ other = pthis then ⟨env.mids,request.numFrameSuggested⟩
        else (a.shared other).mfxResponse) :
      Answered env pthis request response a
        (.errNone,some ⟨env.mids,request.numFrameSuggested⟩,b,events)

theorem simpleAlloc_answered (env : AllocEnv) (pthis : Nat) (request : FrameAllocRequest)
    (response : Option FrameAllocResponse) (a : Allocator)
    (fresh : env.Fresh a request.numFrameSuggested) :
    Answered env pthis request response a (simpleAlloc env pthis (some request) response a) := by
  have unchanged : SameView a a := ⟨rfl,rfl,rfl,fun _ => rfl⟩
  cases response with
  | none =>
    exact .refused _ _ _ _ (by simp) unchanged surfacesMade_nil (by simp [CreatesSurfaces])
      (by simp [AnswersSaved])
  | some response =>
    simp only [simpleAlloc]
    split
    · next empty =>
      exact .refused _ _ _ _ (by simp) unchanged surfacesMade_nil
        (by simp [CreatesSurfaces,FrameAllocRequest.Accepted,empty])
        (by simp [AnswersSaved,FrameAllocRequest.Accepted,empty])
    next frames =>
    split
    · next unsupported =>
      have rejected : ¬request.Accepted := by
        intro accepted
        rw [accepted.2] at unsupported
        contradiction
      exact .refused _ _ _ _ (by simp) unchanged surfacesMade_nil (fun creates => rejected creates.1)
        (fun answers => rejected answers.1)
    next supported =>
    have accepted : request.Accepted := by
      simp only [Bool.not_eq_true',Bool.not_eq_false] at supported
      exact ⟨frames,supported⟩
    have touched := sameView_count a pthis (a.shared pthis).refCount
    have same := touched.saved pthis
    have kept : env.Fresh (a.setShared pthis (a.shared pthis)) request.numFrameSuggested := fresh
    have allocated := _simpleAlloc_allocated env request _ kept
    generalize a.setShared pthis (a.shared pthis) = b at touched same allocated ⊢
    split
    · next matched =>
      rw [same] at matched
      have counted := touched.trans (sameView_count b pthis ((b.shared pthis).refCount + 1))
      rw [same] at counted ⊢
      exact .reused _ ⟨accepted,rfl,matched⟩ counted
    · next unmatched =>
      rw [same] at unmatched
      generalize _simpleAlloc env request b = result at allocated ⊢
      cases allocated with
      | failed sts events error quiet unmade =>
        simp only [if_neg error]
        exact .refused _ _ _ _ error touched quiet (fun creates => unmade creates.2.2.2)
          (fun answers => unmatched answers.2.2)
      | made object events described surfaces frames blocks picture =>
        have creates : CreatesSurfaces env pthis request (some response) a ↔
            convertMfxFourccToVAFormat request.info.fourCC ≠ some .p208 := by
          simpa [CreatesSurfaces,accepted,unmatched] using picture
        have heap := touched.heap
        have va := touched.va
        have owners := touched.owners
        have saved := touched.saved
        simp only [if_true]
        split
        · next decode =>
          refine .made object _ events unmatched described surfaces blocks frames creates ?_ ?_ ?_ ?_
          · simp only [Allocator.setShared,Allocator.store,Allocator.vaCreate,heap]
          · simp only [Allocator.setShared,Allocator.store,Allocator.vaCreate,va]
          · rw [if_pos decode]
            exact owners
          · intro other
            rw [shared_setShared]
            split
            · next here => simp [decode,here]
            · next elsewhere =>
              rw [if_neg fun here => elsewhere here.2]
              exact saved other
        · next other_type =>
          refine .made object _ events unmatched described surfaces blocks frames creates ?_ ?_ ?_ ?_
          · simp only [Allocator.setOwner,Allocator.store,Allocator.vaCreate,heap]
          · simp only [Allocator.setOwner,Allocator.store,Allocator.vaCreate,va]
          · simp [other_type,Allocator.setOwner,Allocator.store,Allocator.vaCreate,owners]
          · intro other
            rw [if_neg fun here => other_type here.1]
            exact saved other

/-- The VPP responses and the saved decode responses lie in blocks of their own. -/
structure Separate (a : Allocator) : Prop where
  owned : ∀ mids, a.allocResponses mids ≠ none → mids ≠ 0 ∧ (a.heap mids).isSome
  saved : ∀ pthis, (a.shared pthis).mfxResponse.mids = 0 ∨
    (a.heap (a.shared pthis).mfxResponse.mids).isSome
  apart : ∀ pthis, a.allocResponses (a.shared pthis).mfxResponse.mids = none

/-- What a call to simple_free leaves: the memory is the same, and at most an
owner and the entry of the session are gone. -/
structure Freed (pthis : Nat) (a b : Allocator) : Prop where
  heap : b.heap = a.heap
  va : b.va = a.va
  owners : ∀ mids, b.allocResponses mids = none ∨ b.allocResponses mids = a.allocResponses mids
  saved : ∀ other, (b.shared other).mfxResponse = (a.shared other).mfxResponse ∨
    (other = pthis ∧ b.allocDecodeResponses pthis = none)

private theorem SameView.freed {a b : Allocator} (same : SameView a b) (pthis : Nat) :
    Freed pthis a b :=
  ⟨same.heap,same.va,fun _ => .inr (by rw [same.owners]),fun other => .inl (same.saved other)⟩

private theorem _simpleFree_keeps (pthis : Nat) (response : FrameAllocResponse) (a : Allocator)
    (counted : response = (a.shared pthis).mfxResponse → (a.shared pthis).refCount ≠ 1) :
    ∃ b, _simpleFree pthis response a = (response,b,[]) ∧ SameView a b := by
  have touched := sameView_count a pthis (a.shared pthis).refCount
  have here : (a.setShared pthis (a.shared pthis)).shared pthis = a.shared pthis := by simp
  unfold _simpleFree
  generalize a.setShared pthis (a.shared pthis) = b at touched here ⊢
  simp only [here,shared_setShared,if_true]
  split
  · next same =>
    have positive := counted same
    have left : (a.shared pthis).refCount - 1 ≠ 0 := by omega
    rw [if_neg left,← here]
    exact ⟨_,rfl,touched.trans (sameView_count _ _ _)⟩
  · exact ⟨b,rfl,touched⟩

/-- The count of a decode response is decremented by simple_free and once more by
`_simple_free`, so that it is never zero where the memory would be freed; the
response of a VPP request is not the saved one. -/
theorem simpleFree_keeps (pthis : Nat) (response : Option FrameAllocResponse) (a : Allocator)
    (separate : Separate a) :
    ∃ sts b, simpleFree pthis response a = (sts,response,b,[]) ∧ Freed pthis a b := by
  cases response with
  | none => exact ⟨_,a,rfl,⟨rfl,rfl,fun _ => .inr rfl,fun _ => .inl rfl⟩⟩
  | some response =>
    simp only [simpleFree]
    split
    · have counted := sameView_count a pthis ((a.shared pthis).refCount - 1)
      have here : ((a.setShared pthis ⟨(a.shared pthis).mfxResponse,
          (a.shared pthis).refCount - 1⟩).shared pthis).refCount = (a.shared pthis).refCount - 1 := by
        simp
      generalize a.setShared pthis ⟨(a.shared pthis).mfxResponse,(a.shared pthis).refCount - 1⟩ = b
        at counted here ⊢
      split
      · next zero =>
        obtain ⟨c,freed,kept⟩ := _simpleFree_keeps pthis response b (fun _ => by omega)
        rw [freed]
        refine ⟨_,_,rfl,?_⟩
        have same := counted.trans kept
        refine ⟨same.heap,same.va,fun _ => .inr ?_,?_⟩
        · simp only [Allocator.eraseShared,same.owners]
        · intro other
          by_cases elsewhere : other = pthis
          · exact .inr ⟨elsewhere,by simp [Allocator.eraseShared]⟩
          · exact .inl (by simpa [elsewhere] using same.saved other)
      · exact ⟨_,_,rfl,counted.freed pthis⟩
    · next owned =>
      have other_response : response ≠ (a.shared pthis).mfxResponse := by
        intro same
        rw [same] at owned
        exact owned (separate.apart pthis)
      obtain ⟨b,freed,same⟩ := _simpleFree_keeps pthis response (a.setOwner response.mids none)
        (fun equal => absurd equal other_response)
      rw [freed]
      refine ⟨_,b,rfl,same.heap,same.va,?_,fun other => .inl (same.saved other)⟩
      intro mids
      rw [same.owners]
      by_cases elsewhere : mids = response.mids
      · exact .inl (by simp [Allocator.setOwner,elsewhere])
      · exact .inr (by simp [Allocator.setOwner,elsewhere])

end VideoAnalytics.FrameAllocator
