import VideoAnalytics.FrameAllocatorSpec

/-! Histories of allocator calls by any number of sessions: the frames behind
the responses that are held or saved, and what is left when all are freed. -/
namespace VideoAnalytics.FrameAllocator

open Function (update)

/-- The VA object behind frame i of a response, through its three blocks. -/
def Allocator.frameObject (a : Allocator) (response : FrameAllocResponse) (i : Nat) :
    Option VaObject :=
  (a.midsAt response.mids)[i]?.bind fun mid =>
    (a.vaapiMidsAt mid.1)[mid.2]?.bind fun vaapiMid =>
      (a.surfacesAt vaapiMid.surface.1)[vaapiMid.surface.2]?.bind a.va

def Allocator.FramesOf (a : Allocator) (info : FrameInfo) (response : FrameAllocResponse) : Prop :=
  ∀ i < response.numFrameActual, ∃ object context,
    a.frameObject response i = some object ∧ creation context info = some object

def Allocator.FramesExist (a : Allocator) (response : FrameAllocResponse) : Prop :=
  ∀ i < response.numFrameActual, (a.frameObject response i).isSome

private theorem Allocator.FramesOf.exist {a : Allocator} {info : FrameInfo}
    {response : FrameAllocResponse}
    (frames : a.FramesOf info response) : a.FramesExist response := by
  intro i within
  obtain ⟨object,context,found,-⟩ := frames i within
  rw [found]
  rfl

/-- The blocks and objects of the first allocator are those of the second. -/
structure Grown (a b : Allocator) : Prop where
  heap : ∀ pointer, (a.heap pointer).isSome → b.heap pointer = a.heap pointer
  va : ∀ id, (a.va id).isSome → b.va id = a.va id

theorem SameView.grown {a b : Allocator} (same : SameView a b) : Grown a b :=
  ⟨fun _ _ => by rw [same.heap],fun _ _ => by rw [same.va]⟩

private theorem Freed.grown {a b : Allocator} {pthis : Nat} (freed : Freed pthis a b) : Grown a b :=
  ⟨fun _ _ => by rw [freed.heap],fun _ _ => by rw [freed.va]⟩

private theorem Grown.mids {a b : Allocator} (grown : Grown a b) {pointer i : Nat} {mid : Nat × Nat}
    (found : (a.midsAt pointer)[i]? = some mid) : (b.midsAt pointer)[i]? = some mid := by
  cases block : a.heap pointer with
  | none => simp [Allocator.midsAt,block] at found
  | some content =>
    have same := grown.heap pointer (by simp [block])
    simpa only [Allocator.midsAt,same] using found

private theorem Grown.vaapiMids {a b : Allocator} (grown : Grown a b) {pointer i : Nat}
    {mid : VaapiMemId}
    (found : (a.vaapiMidsAt pointer)[i]? = some mid) : (b.vaapiMidsAt pointer)[i]? = some mid := by
  cases block : a.heap pointer with
  | none => simp [Allocator.vaapiMidsAt,block] at found
  | some content =>
    have same := grown.heap pointer (by simp [block])
    simpa only [Allocator.vaapiMidsAt,same] using found

private theorem Grown.surfaces {a b : Allocator} (grown : Grown a b) {pointer i id : Nat}
    (found : (a.surfacesAt pointer)[i]? = some id) : (b.surfacesAt pointer)[i]? = some id := by
  cases block : a.heap pointer with
  | none => simp [Allocator.surfacesAt,block] at found
  | some content =>
    have same := grown.heap pointer (by simp [block])
    simpa only [Allocator.surfacesAt,same] using found

private theorem Grown.frameObject {a b : Allocator} (grown : Grown a b)
    {response : FrameAllocResponse}
    {i : Nat} {object : VaObject} (found : a.frameObject response i = some object) :
    b.frameObject response i = some object := by
  simp only [Allocator.frameObject,Option.bind_eq_some_iff] at found ⊢
  obtain ⟨mid,at_mids,vaapiMid,at_vaapi,id,at_surfaces,exists_object⟩ := found
  have same := grown.va id (by simp [exists_object])
  exact ⟨mid,grown.mids at_mids,vaapiMid,grown.vaapiMids at_vaapi,id,grown.surfaces at_surfaces,
    same.trans exists_object⟩

theorem Grown.framesOf {a b : Allocator} (grown : Grown a b) {info : FrameInfo}
    {response : FrameAllocResponse} (frames : a.FramesOf info response) :
    b.FramesOf info response := by
  intro i within
  obtain ⟨object,context,found,described⟩ := frames i within
  exact ⟨object,context,grown.frameObject found,described⟩

private theorem Grown.framesExist {a b : Allocator} (grown : Grown a b)
    {response : FrameAllocResponse} (frames : a.FramesExist response) : b.FramesExist response := by
  intro i within
  have present := frames i within
  rw [Option.isSome_iff_exists] at present ⊢
  obtain ⟨object,found⟩ := present
  exact ⟨object,grown.frameObject found⟩

section Stored

variable {env : AllocEnv} {a b : Allocator} {surfacesNum : Nat} {fourcc : MfxFourcc}
  {object : VaObject}

theorem stored_grown (fresh : env.Fresh a surfacesNum) (blocks : env.Blocks)
    (heap : b.heap = (a.store env fourcc surfacesNum).heap)
    (va : b.va = (a.vaCreate object env.ids).va) : Grown a b := by
  constructor
  · intro pointer taken
    have unused : ∀ block, (a.heap block).isNone → pointer ≠ block := by
      intro block empty same
      rw [same,Option.isSome_iff_ne_none] at taken
      exact taken (Option.isNone_iff_eq_none.mp empty)
    have surfaces := unused _ (fresh.1 blocks.1).1
    have vaapiMids := unused _ (fresh.2.1 blocks.2.1).1
    have mids := unused _ (fresh.2.2.1 blocks.2.2)
    simp [heap,Allocator.store,surfaces,vaapiMids,mids]
  · intro id taken
    have unused : id ∉ env.ids := by
      intro member
      have empty := fresh.2.2.2.2 id member
      rw [Option.isNone_iff_eq_none] at empty
      simp [empty] at taken
    simp [va,Allocator.vaCreate,unused]

theorem stored_frameObject (fresh : env.Fresh a surfacesNum) (blocks : env.Blocks)
    (heap : b.heap = (a.store env fourcc surfacesNum).heap)
    (va : b.va = (a.vaCreate object env.ids).va) {i : Nat} (within : i < surfacesNum) :
    b.frameObject ⟨env.mids,surfacesNum⟩ i = some object := by
  obtain ⟨-,apart,other⟩ := fresh.1 blocks.1
  obtain ⟨-,between⟩ := fresh.2.1 blocks.2.1
  have length : env.ids.length = surfacesNum := fresh.2.2.2.1
  have inside : i < env.ids.length := by omega
  have mids : b.midsAt env.mids = (List.range surfacesNum).map fun i => (env.vaapiMids,i) := by
    simp [Allocator.midsAt,heap,Allocator.store]
  have vaapiMids : b.vaapiMidsAt env.vaapiMids =
      (List.range surfacesNum).map fun i => ⟨(env.surfaces,i),fourcc,0⟩ := by
    simp [Allocator.vaapiMidsAt,heap,Allocator.store,between]
  have surfaces : b.surfacesAt env.surfaces = env.ids := by
    simp [Allocator.surfacesAt,heap,Allocator.store,apart,other]
  have created : b.va env.ids[i] = some object := by
    simp [va,Allocator.vaCreate]
  simp [Allocator.frameObject,mids,vaapiMids,surfaces,within,inside,created]

end Stored

/-- What every history keeps: the frames of a saved response are of the request
it was made for, and those of a response that is held exist. -/
structure Kept (client : Client) : Prop where
  separate : Separate client.allocator
  saved : ∀ pthis, (client.allocator.shared pthis).mfxResponse.numFrameActual ≠ 0 →
    ∃ info, client.savedInfo pthis = some info ∧
      client.allocator.FramesOf info (client.allocator.shared pthis).mfxResponse
  live : ∀ entry ∈ client.live, client.allocator.FramesExist entry.response

theorem kept_start : Kept start := by
  refine ⟨⟨?_,?_,?_⟩,?_,?_⟩
  · simp [start]
  · exact fun _ => .inl rfl
  · exact fun _ => rfl
  · intro pthis some_frames
    exact absurd rfl some_frames
  · simp [start]

private theorem SameView.separate {a b : Allocator} (same : SameView a b) (separate : Separate a) :
    Separate b := by
  constructor
  · rw [same.owners,same.heap]
    exact separate.owned
  · intro pthis
    rw [same.saved,same.heap]
    exact separate.saved pthis
  · intro pthis
    rw [same.saved,same.owners]
    exact separate.apart pthis

private theorem Freed.separate {a b : Allocator} {pthis : Nat} (freed : Freed pthis a b)
    (separate : Separate a) : Separate b := by
  have erased : ∀ other, b.allocDecodeResponses other = none →
      (b.shared other).mfxResponse = ⟨0,0⟩ := by
    intro other absent
    simp [Allocator.shared,absent]
  have fewer : ∀ mids, a.allocResponses mids = none → b.allocResponses mids = none := by
    intro mids free
    rcases freed.owners mids with gone | same
    · exact gone
    · rw [same,free]
  have owned : ∀ mids, b.allocResponses mids ≠ none → mids ≠ 0 ∧ (b.heap mids).isSome := by
    intro mids held
    rw [freed.heap]
    exact separate.owned mids (mt (fewer mids) held)
  refine ⟨owned,?_,?_⟩
  · intro other
    rcases freed.saved other with same | ⟨here,gone⟩
    · rw [same,freed.heap]
      exact separate.saved other
    · rw [here,erased pthis gone]
      exact .inl rfl
  · intro other
    rcases freed.saved other with same | ⟨here,gone⟩
    · rw [same]
      exact fewer _ (separate.apart other)
    · rw [here,erased pthis gone]
      by_contra held
      exact (owned 0 held).1 rfl

private theorem stored_separate {env : AllocEnv} {a b : Allocator} {pthis surfacesNum : Nat}
    {fourcc : MfxFourcc} {object : VaObject} {decode : Bool} (separate : Separate a)
    (fresh : env.Fresh a surfacesNum) (blocks : env.Blocks)
    (heap : b.heap = (a.store env fourcc surfacesNum).heap)
    (va : b.va = (a.vaCreate object env.ids).va)
    (owners : b.allocResponses = if decode then a.allocResponses
      else update a.allocResponses env.mids (some pthis))
    (saved : ∀ other, (b.shared other).mfxResponse =
      if decode ∧ other = pthis then ⟨env.mids,surfacesNum⟩
      else (a.shared other).mfxResponse) : Separate b := by
  have grown := stored_grown fresh blocks heap va
  have unused : a.heap env.mids = none := by
    simpa using fresh.2.2.1 blocks.2.2
  have present : (b.heap env.mids).isSome := by
    simp [heap,Allocator.store]
  have kept : ∀ pointer, (a.heap pointer).isSome → (b.heap pointer).isSome := by
    intro pointer taken
    rw [grown.heap pointer taken]
    exact taken
  have free : a.allocResponses env.mids = none := by
    by_contra held
    simpa [unused] using (separate.owned _ held).2
  have apart : ∀ other, (a.shared other).mfxResponse.mids ≠ env.mids := by
    intro other same
    rcases separate.saved other with zero | taken
    · exact blocks.2.2 (same.symm.trans zero)
    · simp [same,unused] at taken
  constructor
  · intro mids held
    by_cases here : mids = env.mids
    · rw [here]
      exact ⟨blocks.2.2,present⟩
    · have before : a.allocResponses mids ≠ none := by
        cases decode <;> simpa [owners,here] using held
      have owned := separate.owned mids before
      exact ⟨owned.1,kept mids owned.2⟩
  · intro other
    rw [saved]
    split
    · exact .inr present
    · rcases separate.saved other with zero | taken
      · exact .inl zero
      · exact .inr (kept _ taken)
  · intro other
    by_cases mine : decode ∧ other = pthis
    · rw [saved,owners,if_pos mine,if_pos mine.1]
      exact free
    · rw [saved,owners,if_neg mine]
      cases decode
      · simp [apart other,separate.apart other]
      · simp [separate.apart other]

private theorem alloc_kept (client : Client) (env : AllocEnv) (pthis : Nat)
    (request : FrameAllocRequest) (response : Option FrameAllocResponse) (kept : Kept client)
    (fresh : env.Fresh client.allocator request.numFrameSuggested) :
    Kept (client.alloc env pthis request response).1 := by
  have answered := simpleAlloc_answered env pthis request response client.allocator fresh
  have live_grown : ∀ {b}, Grown client.allocator b → ∀ entry ∈ client.live,
      b.FramesExist entry.response :=
    fun grown entry member => grown.framesExist (kept.live entry member)
  have saved_same : ∀ {b}, SameView client.allocator b → ∀ other,
      (b.shared other).mfxResponse.numFrameActual ≠ 0 → ∃ info, client.savedInfo other = some info ∧
        b.FramesOf info (b.shared other).mfxResponse := by
    intro b same other some_frames
    rw [same.saved] at some_frames ⊢
    obtain ⟨info,known,frames⟩ := kept.saved other some_frames
    exact ⟨info,known,same.grown.framesOf frames⟩
  unfold Client.alloc
  generalize simpleAlloc env pthis (some request) response client.allocator = answer at answered ⊢
  cases answered with
  | refused sts left b events error same quiet unmade unmatched =>
    have outcome : Kept {client with allocator := b} :=
      ⟨same.separate kept.separate,saved_same same,live_grown same.grown⟩
    cases sts with
    | errNone => exact absurd rfl error
    | _ => exact outcome
  | reused b matched same =>
    have reuse := matched.2.2
    simp only [reuse,Bool.not_true,Bool.and_false,Bool.false_eq_true,if_false]
    refine ⟨same.separate kept.separate,saved_same same,?_⟩
    intro entry member
    rcases List.mem_cons.mp member with rfl | member
    · have some_frames : (client.allocator.shared pthis).mfxResponse.numFrameActual ≠ 0 := by
        simp only [reuses,Bool.and_eq_true,decide_eq_true_eq] at reuse
        exact reuse.2
      obtain ⟨info,-,frames⟩ := kept.saved pthis some_frames
      exact (same.grown.framesOf frames).exist
    · exact live_grown same.grown entry member
  | made object b events unmatched described surfaces blocks frames picture heap va owners saved =>
    have grown := stored_grown fresh blocks heap va
    have new_frames : b.FramesOf request.info ⟨env.mids,request.numFrameSuggested⟩ :=
      fun i within => ⟨object,_,stored_frameObject fresh blocks heap va within,described⟩
    have unmatched : reuses request (client.allocator.shared pthis).mfxResponse = false := by
      simpa using unmatched
    simp only [unmatched,Bool.not_false,Bool.and_true]
    refine ⟨stored_separate kept.separate fresh blocks heap va owners saved,?_,?_⟩
    · intro other some_frames
      simp only [saved] at some_frames ⊢
      by_cases mine : request.type.decode ∧ other = pthis
      · rw [if_pos mine]
        exact ⟨request.info,by simp [mine.1,mine.2],new_frames⟩
      · rw [if_neg mine] at some_frames ⊢
        obtain ⟨info,known,old_frames⟩ := kept.saved other some_frames
        refine ⟨info,?_,grown.framesOf old_frames⟩
        split
        · next decode =>
          have apart : other ≠ pthis := fun same => mine ⟨decode,same⟩
          simp [apart,known]
        · exact known
    · intro entry member
      rcases List.mem_cons.mp member with rfl | member
      · exact new_frames.exist
      · exact live_grown grown entry member

theorem free_kept (client : Client) (pthis : Nat) (response : Option FrameAllocResponse)
    (kept : Kept client) :
    Kept (client.free pthis response).1 ∧ (client.free pthis response).2 = [] := by
  obtain ⟨sts,b,freed,effect⟩ := simpleFree_keeps pthis response client.allocator kept.separate
  unfold Client.free
  rw [freed]
  refine ⟨⟨effect.separate kept.separate,?_,?_⟩,rfl⟩
  · intro other some_frames
    rcases effect.saved other with same | ⟨here,gone⟩
    · simp only [same] at some_frames ⊢
      obtain ⟨info,known,frames⟩ := kept.saved other some_frames
      refine ⟨info,?_,effect.grown.framesOf frames⟩
      split
      · next absent =>
        by_cases here : other = pthis
        · subst here
          rw [← same] at some_frames
          simp [Allocator.shared,absent] at some_frames
        · simp [here,known]
      · exact known
    · subst here
      simp [Allocator.shared,gone] at some_frames
  · intro entry member
    exact effect.grown.framesExist (kept.live entry (List.mem_of_mem_eraseP member))

theorem kept_step (client next : Client) (call : Call) (events : List VaEvent) (kept : Kept client)
    (stepped : clients.step client call = some (next,events)) : Kept next := by
  cases call with
  | alloc env pthis request response =>
    cases request with
    | none =>
      obtain ⟨rfl,rfl⟩ : client = next ∧ [] = events := by simpa [clients] using stepped
      exact kept
    | some request =>
      simp only [clients] at stepped
      split at stepped
      · next fresh =>
        have stays := alloc_kept client env pthis request response kept fresh
        rw [Option.some.inj stepped] at stays
        exact stays
      · contradiction
  | free pthis response =>
    have stays := (free_kept client pthis response kept).1
    rw [Option.some.inj stepped] at stays
    exact stays

end VideoAnalytics.FrameAllocator
