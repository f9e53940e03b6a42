import VideoAnalytics.FrameAllocatorRuns

/-! The reference counts of the decode responses over histories of allocator
calls by any number of sessions, and the owners of the other responses. -/
namespace VideoAnalytics.FrameAllocator

open Function (update)

/-- Each call to simple_free passes a response the session was given and has not
freed yet. -/
def Call.Held (client : Client) : Call → Prop
  | .alloc _ _ _ _ => True
  | .free _ none => True
  | .free pthis (some response) => ∃ decode, ⟨pthis,response,decode⟩ ∈ client.live

/-- The allocations and frees of responses that are no decode responses. -/
def Call.Vpp (client : Client) : Call → Prop
  | .alloc _ _ (some request) _ => request.type.decode = false
  | .alloc _ _ none _ => False
  | .free _ none => False
  | .free pthis (some response) => ⟨pthis,response,false⟩ ∈ client.live

def Call.FreesDecode (client : Client) (pthis : Nat) (call : Call) : Prop :=
  ∃ response, call = .free pthis (some response) ∧ ⟨pthis,response,true⟩ ∈ client.live

def liveDecode (live : List LiveResponse) (pthis : Nat) : Nat :=
  live.countP fun entry => entry.decode && entry.pthis = pthis

/-- The maps say who holds what. The count of an absent entry is zero. -/
structure Counted (client : Client) : Prop where
  refCount : ∀ pthis, (client.allocator.shared pthis).refCount = liveDecode client.live pthis
  owners : ∀ mids pthis, client.allocator.allocResponses mids = some pthis ↔
    ∃ entry ∈ client.live, entry.decode = false ∧ entry.pthis = pthis ∧ entry.response.mids = mids
  apart : ∀ entry ∈ client.live, ∀ other ∈ client.live, entry.decode →
    entry.response.mids = other.response.mids → other.decode ∧ other.pthis = entry.pthis

structure CallCounted (client next : Client) (call : Call) : Prop where
  vpp : call.Vpp client → ∀ pthis,
    (next.allocator.shared pthis).refCount = (client.allocator.shared pthis).refCount
  erased : ∀ pthis, (client.allocator.allocDecodeResponses pthis).isSome ∧
      next.allocator.allocDecodeResponses pthis = none ↔
    call.FreesDecode client pthis ∧ liveDecode client.live pthis = 1

@[simp] theorem setShared_setShared (a : Allocator) (pthis : Nat) (first second : SharedResponse) :
    (a.setShared pthis first).setShared pthis second = a.setShared pthis second := by
  simp [Allocator.setShared]

@[simp] theorem eraseShared_setShared (a : Allocator) (pthis : Nat) (entry : SharedResponse) :
    (a.setShared pthis entry).eraseShared pthis = a.eraseShared pthis := by
  simp [Allocator.setShared,Allocator.eraseShared]

/-- `_simple_free` writes nothing but the entry of its session, and that one only
for the saved response. -/
theorem _simpleFree_entry (pthis : Nat) (response : FrameAllocResponse) (a : Allocator)
    (counted : response = (a.shared pthis).mfxResponse → (a.shared pthis).refCount ≠ 1) :
    ∃ entry, _simpleFree pthis response a = (response,a.setShared pthis entry,[]) ∧
      (response ≠ (a.shared pthis).mfxResponse → entry = a.shared pthis) := by
  unfold _simpleFree
  simp only [shared_setShared,if_true,setShared_setShared]
  by_cases same : response = (a.shared pthis).mfxResponse
  · have positive := counted same
    have left : (a.shared pthis).refCount - 1 ≠ 0 := by omega
    rw [if_pos same,if_neg left]
    exact ⟨_,rfl,fun other => absurd same other⟩
  · rw [if_neg same]
    exact ⟨_,rfl,fun _ => rfl⟩

private theorem simpleFree_decode (pthis : Nat) (response : FrameAllocResponse) (a : Allocator)
    (unowned : a.allocResponses response.mids = none) :
    simpleFree pthis (some response) a = (.errNone,some response,
      if (a.shared pthis).refCount = 1 then a.eraseShared pthis
      else a.setShared pthis ⟨(a.shared pthis).mfxResponse,(a.shared pthis).refCount - 1⟩,[]) := by
  unfold simpleFree
  simp only [unowned,if_true,shared_setShared]
  by_cases last : (a.shared pthis).refCount = 1
  · obtain ⟨entry,freed,-⟩ := _simpleFree_entry pthis response
      (a.setShared pthis ⟨(a.shared pthis).mfxResponse,(a.shared pthis).refCount - 1⟩)
      (fun _ => by simp [last])
    rw [if_pos (by omega),freed,if_pos last]
    simp
  · rw [if_neg (by omega),if_neg last]

private theorem simpleFree_vpp (pthis owner : Nat) (response : FrameAllocResponse) (a : Allocator)
    (owned : a.allocResponses response.mids = some owner)
    (other : response ≠ (a.shared pthis).mfxResponse) :
    simpleFree pthis (some response) a = (.errNone,some response,
      (a.setOwner response.mids none).setShared pthis (a.shared pthis),[]) := by
  unfold simpleFree
  obtain ⟨entry,freed,unchanged⟩ := _simpleFree_entry pthis response
    (a.setOwner response.mids none) (fun same => absurd same other)
  simp only [owned,reduceCtorEq,if_false,freed]
  rw [unchanged other]
  rfl

private theorem setShared_present (a : Allocator) (pthis other : Nat) (entry : SharedResponse)
    (present : (a.allocDecodeResponses other).isSome) :
    ((a.setShared pthis entry).allocDecodeResponses other).isSome := by
  by_cases here : other = pthis
  · simp [Allocator.setShared,here]
  · simp [Allocator.setShared,here,present]

/-- The counts of an allocator after a call that handed out so many more decode
responses to a session. -/
structure Raised (pthis : Nat) (count : Int) (a b : Allocator) : Prop where
  refCount : ∀ other, (b.shared other).refCount =
    (a.shared other).refCount + if other = pthis then count else 0
  present : ∀ other, (a.allocDecodeResponses other).isSome →
    (b.allocDecodeResponses other).isSome

private theorem raised_setShared (a : Allocator) (pthis : Nat) (mfxResponse : FrameAllocResponse)
    (count : Int) :
    Raised pthis count a (a.setShared pthis ⟨mfxResponse,(a.shared pthis).refCount + count⟩) := by
  constructor
  · intro other
    rw [shared_setShared]
    by_cases here : other = pthis
    · rw [if_pos here,if_pos here,here]
    · rw [if_neg here,if_neg here,Int.add_zero]
  · intro other present
    exact setShared_present _ _ _ _ present

/-- simple_alloc raises the count of its session exactly when it gives out a
decode response, and erases no entry. -/
theorem simpleAlloc_raised (env : AllocEnv) (pthis : Nat) (request : FrameAllocRequest)
    (response : Option FrameAllocResponse) (a : Allocator)
    (fresh : env.Fresh a request.numFrameSuggested) :
    Raised pthis
      (if (simpleAlloc env pthis (some request) response a).1 = .errNone ∧ request.type.decode
        then 1 else 0)
      a (simpleAlloc env pthis (some request) response a).2.2.1 := by
  have unchanged : Raised pthis 0 a a := ⟨by simp,fun _ present => present⟩
  have touched := raised_setShared a pthis (a.shared pthis).mfxResponse 0
  rw [Int.add_zero] at touched
  cases response with
  | none => simpa [simpleAlloc] using unchanged
  | some response =>
    have allocated := _simpleAlloc_allocated env request (a.setShared pthis (a.shared pthis)) fresh
    unfold simpleAlloc
    simp only [shared_setShared,if_true,setShared_setShared]
    by_cases empty : request.numFrameSuggested = 0
    · simpa [empty] using unchanged
    rw [if_neg empty]
    by_cases unsupported : !(request.type.decoderTarget || request.type.processorTarget)
    · simpa [unsupported] using unchanged
    rw [if_neg unsupported]
    by_cases matched : reuses request (a.shared pthis).mfxResponse
    · have decode : request.type.decode := by
        simp only [reuses,Bool.and_eq_true] at matched
        exact matched.1.2
      rw [if_pos matched]
      simpa [decode] using raised_setShared a pthis (a.shared pthis).mfxResponse 1
    rw [if_neg matched]
    generalize _simpleAlloc env request (a.setShared pthis (a.shared pthis)) = result at allocated ⊢
    cases allocated with
    | failed sts events error quiet unmade => simpa [error] using touched
    | made object events described surfaces frames blocks picture =>
      -- Neither the creation nor the blocks touch what is saved for the sessions.
      have stays (other : Nat) : ((((a.setShared pthis (a.shared pthis)).vaCreate object env.ids).store
          env request.info.fourCC request.numFrameSuggested).shared other).refCount =
            (a.shared other).refCount :=
        (touched.refCount other).trans (by simp)
      by_cases decode : request.type.decode
      · simp only [if_true,decode]
        refine ⟨?_,?_⟩
        · intro other
          rw [shared_setShared]
          by_cases here : other = pthis
          · subst here
            rw [if_pos rfl,if_pos rfl]
            exact congrArg (· + 1) (stays other)
          · rw [if_neg here,if_neg here,Int.add_zero]
            exact stays other
        · intro other present
          apply setShared_present
          exact touched.present other present
      · simp only [if_true,decode]
        refine ⟨fun other => ?_,touched.present⟩
        exact (stays other).trans (by simp)

/-- What the blocks behind mids are for: a session, and whether they were
allocated for its decoder. -/
structure Purposes (a : Allocator) (live : List LiveResponse)
    (purpose : Nat → Option (Nat × Bool)) : Prop where
  blocks : ∀ mids, purpose mids ≠ none → mids ≠ 0 ∧ (a.heap mids).isSome
  live : ∀ entry ∈ live, purpose entry.response.mids = some (entry.pthis,entry.decode)
  saved : ∀ pthis, (a.shared pthis).mfxResponse = ⟨0,0⟩ ∨
    purpose (a.shared pthis).mfxResponse.mids = some (pthis,true)

def vppMids (live : List LiveResponse) : List Nat :=
  (live.filter fun entry => !entry.decode).map (·.response.mids)

def VppOwner (live : List LiveResponse) (mids pthis : Nat) : Prop :=
  ∃ entry ∈ live, entry.decode = false ∧ entry.pthis = pthis ∧ entry.response.mids = mids

structure Counting (a : Allocator) (live : List LiveResponse) : Prop where
  purposes : ∃ purpose, Purposes a live purpose
  refCount : ∀ pthis, (a.shared pthis).refCount = liveDecode live pthis
  owners : ∀ mids pthis, a.allocResponses mids = some pthis ↔ VppOwner live mids pthis
  once : (vppMids live).Nodup

private theorem counting_start : Counting start.allocator start.live := by
  refine ⟨⟨fun _ => none,by simp,by simp [start],fun _ => .inl rfl⟩,?_,?_,by simp [start,vppMids]⟩
  · intro pthis
    rfl
  · simp [start,VppOwner]

private theorem Counting.counted {client : Client}
    (counting : Counting client.allocator client.live) : Counted client := by
  obtain ⟨purpose,purposes⟩ := counting.purposes
  refine ⟨counting.refCount,counting.owners,?_⟩
  intro entry member other also decode same
  have first := purposes.live entry member
  have second := purposes.live other also
  rw [same,second,Option.some.injEq,Prod.mk.injEq,decode] at first
  exact ⟨first.2,first.1⟩

private theorem liveDecode_cons (entry : LiveResponse) (live : List LiveResponse) (pthis : Nat) :
    liveDecode (entry :: live) pthis =
      liveDecode live pthis + if entry.decode ∧ pthis = entry.pthis then 1 else 0 := by
  unfold liveDecode
  rw [List.countP_cons]
  simp only [Bool.and_eq_true,decide_eq_true_eq,@eq_comm _ pthis]

private theorem liveDecode_split (entry : LiveResponse) (before after : List LiveResponse)
    (pthis : Nat) : liveDecode (before ++ entry :: after) pthis =
      liveDecode (before ++ after) pthis + if entry.decode ∧ pthis = entry.pthis then 1 else 0 := by
  have moved : (before ++ entry :: after).Perm (entry :: (before ++ after)) := List.perm_middle
  have counts : liveDecode (before ++ entry :: after) pthis =
      liveDecode (entry :: (before ++ after)) pthis := moved.countP_eq _
  rw [counts,liveDecode_cons]

private theorem vppMids_split (entry : LiveResponse) (before after : List LiveResponse) :
    (vppMids (before ++ entry :: after)).Perm
      ((if entry.decode then [] else [entry.response.mids]) ++ vppMids (before ++ after)) := by
  have moved : (before ++ entry :: after).Perm (entry :: (before ++ after)) := List.perm_middle
  apply ((moved.filter _).map _).trans
  cases decode : entry.decode with
  | true => simp [decode,vppMids]
  | false => simp [decode,vppMids]

private theorem vppOwner_split (entry : LiveResponse) (before after : List LiveResponse)
    (mids pthis : Nat) : VppOwner (before ++ entry :: after) mids pthis ↔
      (entry.decode = false ∧ entry.pthis = pthis ∧ entry.response.mids = mids) ∨
        VppOwner (before ++ after) mids pthis := by
  unfold VppOwner
  constructor
  · rintro ⟨held,member,holds⟩
    rcases List.mem_append.mp member with early | late
    · exact .inr ⟨held,List.mem_append_left _ early,holds⟩
    · rcases List.mem_cons.mp late with rfl | late
      · exact .inl holds
      · exact .inr ⟨held,List.mem_append_right _ late,holds⟩
  · rintro (holds | ⟨held,member,holds⟩)
    · exact ⟨entry,by simp,holds⟩
    · refine ⟨held,?_,holds⟩
      rcases List.mem_append.mp member with early | late
      · exact List.mem_append_left _ early
      · exact List.mem_append_right _ (List.mem_cons_of_mem _ late)

private theorem mem_vppMids {live : List LiveResponse} {mids : Nat} :
    mids ∈ vppMids live ↔ ∃ pthis, VppOwner live mids pthis := by
  unfold vppMids VppOwner
  simp only [List.mem_map,List.mem_filter,Bool.not_eq_true']
  constructor
  · rintro ⟨entry,⟨member,vpp⟩,here⟩
    exact ⟨entry.pthis,entry,member,vpp,rfl,here⟩
  · rintro ⟨pthis,entry,member,vpp,-,here⟩
    exact ⟨entry,⟨member,vpp⟩,here⟩

private theorem Purposes.freed {a : Allocator} {live : List LiveResponse}
    {purpose : Nat → Option (Nat × Bool)} (purposes : Purposes a live purpose)
    {entry : LiveResponse} (member : entry ∈ live) :
    ∃ before after, live = before ++ entry :: after ∧
      (live.eraseP fun other => other.pthis = entry.pthis &&
        some other.response = some entry.response) = before ++ after := by
  obtain ⟨found,before,after,-,matched,split,erased⟩ := @List.exists_of_eraseP _
    (fun other => other.pthis = entry.pthis && some other.response = some entry.response)
    live entry member (by simp)
  have same : found = entry := by
    have first := purposes.live found (by rw [split]; simp)
    have second := purposes.live entry member
    obtain ⟨session,response⟩ : found.pthis = entry.pthis ∧ found.response = entry.response := by
      simpa using matched
    rw [response,second,Option.some.injEq,Prod.mk.injEq] at first
    cases found
    cases entry
    simp only at session response first
    rw [session,response,first.2]
  rw [same] at split
  exact ⟨before,after,split,erased⟩

private theorem Purposes.sameView {a b : Allocator} {live : List LiveResponse}
    {purpose : Nat → Option (Nat × Bool)} (purposes : Purposes a live purpose)
    (same : SameView a b) : Purposes b live purpose := by
  refine ⟨?_,purposes.live,?_⟩
  · rw [same.heap]
    exact purposes.blocks
  · intro pthis
    rw [same.saved]
    exact purposes.saved pthis

private theorem Counting.reused {a b : Allocator} {live : List LiveResponse}
    (counting : Counting a live) {pthis : Nat} (same : SameView a b) (raised : Raised pthis 1 a b)
    (frames : (a.shared pthis).mfxResponse.numFrameActual ≠ 0) :
    Counting b (⟨pthis,(a.shared pthis).mfxResponse,true⟩ :: live) := by
  obtain ⟨purpose,purposes⟩ := counting.purposes
  have viewed := purposes.sameView same
  refine ⟨⟨purpose,viewed.blocks,?_,viewed.saved⟩,?_,?_,by simpa [vppMids] using counting.once⟩
  · intro entry member
    rcases List.mem_cons.mp member with rfl | member
    · rcases purposes.saved pthis with empty | purposed
      · rw [empty] at frames
        exact absurd rfl frames
      · exact purposed
    · exact purposes.live entry member
  · intro other
    rw [raised.refCount,counting.refCount,liveDecode_cons]
    by_cases here : other = pthis
    · simp [here]
    · simp [here]
  · intro mids other
    rw [same.owners,counting.owners]
    exact ((vppOwner_split _ [] live mids other).trans (by simp)).symm

section Made

variable {env : AllocEnv} {a b : Allocator} {live : List LiveResponse} {pthis surfacesNum : Nat}
  {decode : Bool} {fourcc : MfxFourcc} {object : VaObject} {purpose : Nat → Option (Nat × Bool)}

private theorem Purposes.unused (purposes : Purposes a live purpose)
    (fresh : env.Fresh a surfacesNum) (blocks : env.Blocks) : purpose env.mids = none := by
  by_contra purposed
  have taken := (purposes.blocks _ purposed).2
  have free := fresh.2.2.1 blocks.2.2
  simp_all

private theorem Purposes.made (purposes : Purposes a live purpose) (fresh : env.Fresh a surfacesNum)
    (blocks : env.Blocks) (heap : b.heap = (a.store env fourcc surfacesNum).heap)
    (va : b.va = (a.vaCreate object env.ids).va)
    (saved : ∀ other, (b.shared other).mfxResponse =
      if decode ∧ other = pthis then ⟨env.mids,surfacesNum⟩ else (a.shared other).mfxResponse) :
    Purposes b (⟨pthis,⟨env.mids,surfacesNum⟩,decode⟩ :: live)
      (update purpose env.mids (some (pthis,decode))) := by
  have grown := stored_grown fresh blocks heap va
  have elsewhere : ∀ mids, purpose mids ≠ none → mids ≠ env.mids := by
    intro mids purposed here
    rw [here] at purposed
    exact purposed (purposes.unused fresh blocks)
  refine ⟨?_,?_,?_⟩
  · intro mids purposed
    by_cases here : mids = env.mids
    · rw [here]
      exact ⟨blocks.2.2,by simp [heap,Allocator.store]⟩
    · rw [Function.update_of_ne here] at purposed
      obtain ⟨positive,taken⟩ := purposes.blocks mids purposed
      exact ⟨positive,by rw [grown.heap mids taken]; exact taken⟩
  · intro entry member
    rcases List.mem_cons.mp member with rfl | member
    · simp
    · have purposed := purposes.live entry member
      rw [Function.update_of_ne (elsewhere _ (by simp [purposed]))]
      exact purposed
  · intro other
    rw [saved]
    by_cases mine : decode ∧ other = pthis
    · right
      simp [mine]
    · rw [if_neg mine]
      rcases purposes.saved other with empty | purposed
      · exact .inl empty
      · rw [Function.update_of_ne (elsewhere _ (by simp [purposed]))]
        exact .inr purposed

private theorem Counting.made (counting : Counting a live) (fresh : env.Fresh a surfacesNum)
    (blocks : env.Blocks) (heap : b.heap = (a.store env fourcc surfacesNum).heap)
    (va : b.va = (a.vaCreate object env.ids).va)
    (owners : b.allocResponses = if decode then a.allocResponses
      else update a.allocResponses env.mids (some pthis))
    (saved : ∀ other, (b.shared other).mfxResponse =
      if decode ∧ other = pthis then ⟨env.mids,surfacesNum⟩ else (a.shared other).mfxResponse)
    (raised : Raised pthis (if decode then 1 else 0) a b) :
    Counting b (⟨pthis,⟨env.mids,surfacesNum⟩,decode⟩ :: live) := by
  obtain ⟨purpose,purposes⟩ := counting.purposes
  have unowned : ∀ other, ¬VppOwner live env.mids other := by
    rintro other ⟨entry,member,-,-,here⟩
    have purposed := purposes.live entry member
    rw [here,purposes.unused fresh blocks] at purposed
    contradiction
  have split := vppOwner_split ⟨pthis,⟨env.mids,surfacesNum⟩,decode⟩ [] live
  refine ⟨⟨_,purposes.made fresh blocks heap va saved⟩,?_,?_,?_⟩
  · intro other
    rw [raised.refCount,counting.refCount,liveDecode_cons]
    cases decode with
    | true =>
      by_cases here : other = pthis
      · simp [here]
      · simp [here]
    | false => simp
  · intro mids other
    refine Iff.trans ?_ (split mids other).symm
    rw [owners,List.nil_append,← counting.owners]
    cases decode with
    | true => simp
    | false =>
      by_cases here : mids = env.mids
      · have free := (counting.owners env.mids other).not.mpr (unowned other)
        simp [here,free]
      · simp [here,Ne.symm here]
  · have absent : env.mids ∉ vppMids live := by
      rw [mem_vppMids]
      rintro ⟨other,owned⟩
      exact unowned other owned
    apply (vppMids_split _ [] live).nodup_iff.mpr
    cases decode with
    | true => simpa using counting.once
    | false => simpa using ⟨absent,counting.once⟩

end Made

private theorem alloc_callCounted {client next : Client} {env : AllocEnv} {pthis : Nat}
    {request : FrameAllocRequest} {response : Option FrameAllocResponse} {count : Int}
    (rose : Raised pthis count client.allocator next.allocator)
    (kind : request.type.decode = false → count = 0) :
    CallCounted client next (.alloc env pthis (some request) response) := by
  constructor
  · intro vpp other
    rw [rose.refCount,kind vpp]
    simp
  · intro other
    constructor
    · rintro ⟨present,gone⟩
      have still := rose.present other present
      simp [gone] at still
    · rintro ⟨⟨freed,call,-⟩,-⟩
      contradiction

private theorem alloc_counting (client : Client) (env : AllocEnv) (pthis : Nat)
    (request : FrameAllocRequest) (response : Option FrameAllocResponse)
    (counting : Counting client.allocator client.live)
    (fresh : env.Fresh client.allocator request.numFrameSuggested) :
    let next := (client.alloc env pthis request response).1
    Counting next.allocator next.live ∧
      CallCounted client next (.alloc env pthis (some request) response) := by
  have answered := simpleAlloc_answered env pthis request response client.allocator fresh
  have raised := simpleAlloc_raised env pthis request response client.allocator fresh
  unfold Client.alloc
  generalize simpleAlloc env pthis (some request) response client.allocator = answer
    at answered raised ⊢
  cases answered with
  | refused sts left b events error same quiet unmade unmatched =>
    rw [if_neg (fun made => error made.1)] at raised
    obtain ⟨purpose,purposes⟩ := counting.purposes
    have kept : Counting b client.live := by
      refine ⟨⟨purpose,purposes.sameView same⟩,?_,?_,counting.once⟩
      · intro other
        rw [raised.refCount,counting.refCount]
        simp
      · rw [same.owners]
        exact counting.owners
    have counted : CallCounted client {client with allocator := b}
        (.alloc env pthis (some request) response) := alloc_callCounted raised fun _ => rfl
    cases sts with
    | errNone => exact absurd rfl error
    | _ => exact ⟨kept,counted⟩
  | reused b matched same =>
    have reuse := matched.2.2
    simp only [reuses,Bool.and_eq_true,decide_eq_true_eq] at reuse
    have decode : request.type.decode = true := reuse.1.2
    rw [if_pos ⟨rfl,decode⟩] at raised
    simp only [decode]
    refine ⟨counting.reused same raised reuse.2,alloc_callCounted raised ?_⟩
    intro kind
    rw [decode] at kind
    contradiction
  | made object b events unmatched described surfaces blocks frames picture heap va owners saved =>
    have rose : Raised pthis (if request.type.decode then 1 else 0) client.allocator b := by
      simpa using raised
    refine ⟨counting.made fresh blocks heap va owners saved rose,alloc_callCounted rose ?_⟩
    intro kind
    simp [kind]

private theorem Purposes.fewer {a b : Allocator} {live left : List LiveResponse}
    {purpose : Nat → Option (Nat × Bool)} (purposes : Purposes a live purpose)
    (heap : b.heap = a.heap) (saved : ∀ other, (b.shared other).mfxResponse = ⟨0,0⟩ ∨
      (b.shared other).mfxResponse = (a.shared other).mfxResponse)
    (fewer : ∀ entry, entry ∈ left → entry ∈ live) : Purposes b left purpose := by
  refine ⟨?_,fun entry member => purposes.live entry (fewer entry member),?_⟩
  · rw [heap]
    exact purposes.blocks
  · intro other
    rcases saved other with empty | same
    · exact .inl empty
    · rw [same]
      exact purposes.saved other

def Allocator.lowered (a : Allocator) (pthis : Nat) : Allocator :=
  if (a.shared pthis).refCount = 1 then a.eraseShared pthis
  else a.setShared pthis ⟨(a.shared pthis).mfxResponse,(a.shared pthis).refCount - 1⟩

section Lowered

variable (a : Allocator) (pthis : Nat)

private theorem lowered_heap : (a.lowered pthis).heap = a.heap := by
  unfold Allocator.lowered
  split
  · rfl
  · rfl

private theorem lowered_owners : (a.lowered pthis).allocResponses = a.allocResponses := by
  unfold Allocator.lowered
  split
  · rfl
  · rfl

private theorem lowered_saved (other : Nat) : ((a.lowered pthis).shared other).mfxResponse = ⟨0,0⟩ ∨
    ((a.lowered pthis).shared other).mfxResponse = (a.shared other).mfxResponse := by
  unfold Allocator.lowered
  by_cases here : other = pthis
  · split
    · simp [here]
    · simp [here]
  · split
    · simp [here]
    · simp [here]

private theorem lowered_refCount (other : Nat) : ((a.lowered pthis).shared other).refCount =
    (a.shared other).refCount - if other = pthis then 1 else 0 := by
  unfold Allocator.lowered
  by_cases here : other = pthis
  · split
    · next last => simp [here,last]
    · simp [here]
  · split
    · simp [here]
    · simp [here]

private theorem lowered_erased (other : Nat) (present : (a.allocDecodeResponses other).isSome) :
    (a.lowered pthis).allocDecodeResponses other = none ↔
      other = pthis ∧ (a.shared pthis).refCount = 1 := by
  have still : a.allocDecodeResponses other ≠ none := Option.isSome_iff_ne_none.mp present
  unfold Allocator.lowered
  by_cases here : other = pthis
  · split
    · next last => simp [here,last,Allocator.eraseShared]
    · next more => simp [here,more,Allocator.setShared]
  · split
    · simp [here,still,Allocator.eraseShared]
    · simp [here,still,Allocator.setShared]

end Lowered

section Freed

variable {client : Client} {purpose : Nat → Option (Nat × Bool)} {pthis : Nat}
  {response : FrameAllocResponse} {before after : List LiveResponse} {decode : Bool}

private theorem Purposes.kind {a : Allocator} {live : List LiveResponse} {other : Bool}
    (purposes : Purposes a live purpose) (held : ⟨pthis,response,decode⟩ ∈ live)
    (again : ⟨pthis,response,other⟩ ∈ live) : other = decode := by
  have first := purposes.live _ held
  have second := purposes.live _ again
  rw [first,Option.some.injEq,Prod.mk.injEq] at second
  exact second.2.symm

private theorem fewer_split (entry : LiveResponse) (before after : List LiveResponse) :
    ∀ other, other ∈ before ++ after → other ∈ before ++ entry :: after := by
  intro other member
  simp only [List.mem_append,List.mem_cons] at member ⊢
  exact member.imp_right .inr

private theorem Counting.once_split {a : Allocator} {entry : LiveResponse}
    (counting : Counting a (before ++ entry :: after)) :
    ((if entry.decode then [] else [entry.response.mids]) ++ vppMids (before ++ after)).Nodup :=
  (vppMids_split entry before after).nodup_iff.mp counting.once

private theorem Counting.unowned {a : Allocator} {live : List LiveResponse}
    (counting : Counting a live)
    (purposes : Purposes a live purpose) (held : ⟨pthis,response,true⟩ ∈ live) :
    a.allocResponses response.mids = none := by
  by_contra owner
  obtain ⟨owner,here⟩ := Option.ne_none_iff_exists'.mp owner
  obtain ⟨entry,member,vpp,-,same⟩ := (counting.owners _ _).mp here
  have other := purposes.live entry member
  rw [same,purposes.live _ held,vpp] at other
  simp at other

private theorem Purposes.unsaved {a : Allocator} {live : List LiveResponse}
    (purposes : Purposes a live purpose) (held : ⟨pthis,response,false⟩ ∈ live) :
    response ≠ (a.shared pthis).mfxResponse := by
  have purposed := purposes.live _ held
  intro same
  rcases purposes.saved pthis with empty | saved
  · have positive := (purposes.blocks response.mids (by simp [purposed])).1
    rw [same,empty] at positive
    exact positive rfl
  · rw [← same,purposed] at saved
    simp at saved

private theorem Counting.lowered {a : Allocator}
    (counting : Counting a (before ++ ⟨pthis,response,true⟩ :: after)) :
    Counting (a.lowered pthis) (before ++ after) := by
  obtain ⟨purpose,purposes⟩ := counting.purposes
  refine ⟨⟨purpose,purposes.fewer (lowered_heap ..) (lowered_saved _ _) (fewer_split _ _ _)⟩,
    ?_,?_,counting.once_split⟩
  · intro other
    rw [lowered_refCount,counting.refCount,liveDecode_split]
    by_cases here : other = pthis
    · simp [here]
    · simp [here]
  · intro mids other
    rw [lowered_owners,counting.owners]
    exact (vppOwner_split _ before after mids other).trans (by simp)

private theorem lowered_callCounted {next : Client}
    (counting : Counting client.allocator client.live) (held : ⟨pthis,response,true⟩ ∈ client.live)
    (lowered : next.allocator = client.allocator.lowered pthis) :
    CallCounted client next (.free pthis (some response)) := by
  obtain ⟨purpose,purposes⟩ := counting.purposes
  have count := counting.refCount pthis
  constructor
  · intro vpp
    have contrary := purposes.kind held vpp
    contradiction
  · intro other
    rw [lowered]
    constructor
    · rintro ⟨present,gone⟩
      obtain ⟨rfl,last⟩ := (lowered_erased _ _ _ present).mp gone
      exact ⟨⟨response,rfl,held⟩,by omega⟩
    · rintro ⟨⟨freed,call,-⟩,last⟩
      obtain ⟨rfl,rfl⟩ : pthis = other ∧ response = freed := by simpa using call
      have present : (client.allocator.allocDecodeResponses pthis).isSome := by
        rw [Option.isSome_iff_ne_none]
        intro absent
        have zero : (client.allocator.shared pthis).refCount = 0 := by
          simp [Allocator.shared,absent]
        omega
      exact ⟨present,(lowered_erased _ _ _ present).mpr ⟨rfl,by omega⟩⟩

def Allocator.disowned (a : Allocator) (pthis mids : Nat) : Allocator :=
  (a.setOwner mids none).setShared pthis (a.shared pthis)

private theorem disowned_shared (a : Allocator) (pthis mids other : Nat) :
    (a.disowned pthis mids).shared other = a.shared other := by
  unfold Allocator.disowned
  rw [shared_setShared]
  by_cases here : other = pthis
  · rw [if_pos here,here]
  · rw [if_neg here]
    rfl

private theorem Counting.disowned {a : Allocator}
    (counting : Counting a (before ++ ⟨pthis,response,false⟩ :: after)) :
    Counting (a.disowned pthis response.mids) (before ++ after) := by
  obtain ⟨purpose,purposes⟩ := counting.purposes
  have once := List.nodup_append.mp counting.once_split
  have kept : Purposes (a.disowned pthis response.mids) (before ++ after) purpose :=
    purposes.fewer rfl (fun other => .inr (by rw [disowned_shared])) (fewer_split _ _ _)
  refine ⟨⟨purpose,kept⟩,?_,?_,once.2.1⟩
  · intro other
    rw [disowned_shared,counting.refCount,liveDecode_split]
    simp
  · intro mids other
    have absent : ¬VppOwner (before ++ after) response.mids other := by
      intro again
      have member := mem_vppMids.mpr ⟨other,again⟩
      exact once.2.2 response.mids (by simp) response.mids member rfl
    by_cases here : mids = response.mids
    · simp [Allocator.disowned,Allocator.setShared,Allocator.setOwner,here,absent]
    · have owned := (counting.owners mids other).trans (vppOwner_split _ before after mids other)
      simpa [Allocator.disowned,Allocator.setShared,Allocator.setOwner,here,Ne.symm here] using owned

private theorem disowned_callCounted {next : Client}
    (counting : Counting client.allocator client.live) (held : ⟨pthis,response,false⟩ ∈ client.live)
    (disowned : next.allocator = client.allocator.disowned pthis response.mids) :
    CallCounted client next (.free pthis (some response)) := by
  obtain ⟨purpose,purposes⟩ := counting.purposes
  constructor
  · intro vpp other
    rw [disowned,disowned_shared]
  · intro other
    constructor
    · rintro ⟨present,gone⟩
      have still := setShared_present (client.allocator.setOwner response.mids none) pthis other
        (client.allocator.shared pthis) present
      rw [disowned] at gone
      exact absurd gone (Option.isSome_iff_ne_none.mp still)
    · rintro ⟨⟨freed,call,member⟩,-⟩
      obtain ⟨rfl,rfl⟩ : pthis = other ∧ response = freed := by simpa using call
      have contrary := purposes.kind held member
      contradiction

private theorem free_counting (counting : Counting client.allocator client.live)
    (held : ⟨pthis,response,decode⟩ ∈ client.live) :
    let next := (client.free pthis (some response)).1
    Counting next.allocator next.live ∧ CallCounted client next (.free pthis (some response)) := by
  obtain ⟨purpose,purposes⟩ := counting.purposes
  obtain ⟨before,after,split,erased⟩ := purposes.freed held
  have whole := counting
  rw [split] at whole
  unfold Client.free
  simp only [erased]
  cases decode with
  | true =>
    have result : simpleFree pthis (some response) client.allocator =
        (.errNone,some response,client.allocator.lowered pthis,[]) :=
      simpleFree_decode pthis response client.allocator (counting.unowned purposes held)
    simp only [result]
    exact ⟨whole.lowered,lowered_callCounted counting held rfl⟩
  | false =>
    have owner : client.allocator.allocResponses response.mids = some pthis :=
      (counting.owners _ _).mpr ⟨_,held,rfl,rfl,rfl⟩
    have result : simpleFree pthis (some response) client.allocator =
        (.errNone,some response,client.allocator.disowned pthis response.mids,[]) :=
      simpleFree_vpp pthis pthis response client.allocator owner (purposes.unsaved held)
    simp only [result]
    exact ⟨whole.disowned,disowned_callCounted counting held rfl⟩

end Freed

private theorem step_counting (client next : Client) (call : Call) (events : List VaEvent)
    (counting : Counting client.allocator client.live) (held : call.Held client)
    (stepped : clients.step client call = some (next,events)) :
    Counting next.allocator next.live ∧ CallCounted client next call := by
  have idle : ∀ quiet : Call, ¬quiet.Vpp client → (∀ pthis, ¬quiet.FreesDecode client pthis) →
      ∀ after : Client, after.allocator = client.allocator → CallCounted client after quiet := by
    intro quiet kind frees after same
    refine ⟨fun vpp => absurd vpp kind,?_⟩
    intro pthis
    rw [same]
    constructor
    · rintro ⟨present,gone⟩
      simp [gone] at present
    · rintro ⟨freed,-⟩
      exact absurd freed (frees pthis)
  cases call with
  | alloc env pthis request response =>
    cases request with
    | none =>
      obtain ⟨rfl,rfl⟩ : client = next ∧ [] = events := by simpa [clients] using stepped
      refine ⟨counting,idle (.alloc env pthis none response) (fun vpp => vpp) ?_ client rfl⟩
      rintro other ⟨freed,call,-⟩
      contradiction
    | some request =>
      simp only [clients] at stepped
      split at stepped
      · next fresh =>
        have counted := alloc_counting client env pthis request response counting fresh
        simp only [Option.some.inj stepped] at counted
        exact counted
      · contradiction
  | free pthis response =>
    cases response with
    | none =>
      have nothing : (client.free pthis none).1.live = client.live := by
        apply List.eraseP_of_forall_not
        simp
      have same : (client.free pthis none).1.allocator = client.allocator := rfl
      simp only [clients,Option.some.injEq] at stepped
      rw [stepped] at nothing same
      simp only at nothing same
      rw [nothing,same]
      refine ⟨counting,idle (.free pthis none) (fun vpp => vpp) ?_ next same⟩
      rintro other ⟨freed,call,-⟩
      simp at call
    | some response =>
      obtain ⟨decode,member⟩ := held
      have counted := free_counting counting member
      simp only [Option.some.inj stepped] at counted
      exact counted

/-- Over every history in which the sessions free what they hold, the counts are
those of the decode responses held, and each further call keeps them so. -/
theorem reference_counts_exact (calls : List Call) (client : Client) (trace : List VaEvent)
    (held : clients.Along (fun client call => call.Held client) start calls)
    (ran : clients.run start calls = some (client,trace)) :
    Counted client ∧ ∀ call next events, call.Held client →
      clients.step client call = some (next,events) → CallCounted client next call := by
  have counting : Counting client.allocator client.live := by
    refine @Machine.run_invariant_along _ _ _ clients _
      (fun client _ => Counting client.allocator client.live) ?_ calls start client [] trace
      counting_start held ran
    intro client trace call next events counting held stepped
    exact (step_counting client next call events counting held stepped).1
  refine ⟨counting.counted,?_⟩
  intro call next events holds stepped
  exact (step_counting client next call events counting holds stepped).2

def decodeTwice : List Call :=
  let request : FrameAllocRequest := ⟨⟨.nv12,1920,1088⟩,⟨true,false,true,true⟩,2,0⟩
  [.alloc ⟨1,2,3,[7,8],.success,fun _ => .success⟩ 5 (some request) (some ⟨0,0⟩),
    .alloc ⟨11,12,13,[17,18],.success,fun _ => .success⟩ 5 (some request) (some ⟨0,0⟩),
    .free 5 (some ⟨3,2⟩)]

theorem reference_counts_exact_twice : ∃ client trace,
    clients.run start decodeTwice = some (client,trace) ∧
      (client.allocator.shared 5).refCount = 1 ∧ Counted client := by
  refine ⟨_,_,rfl,rfl,(reference_counts_exact decodeTwice _ _ ?_ rfl).1⟩
  intro next emitted stepped
  refine ⟨trivial,?_⟩
  obtain ⟨rfl,rfl⟩ := Prod.mk.inj (Option.some.inj stepped)
  intro next emitted stepped
  refine ⟨trivial,?_⟩
  obtain ⟨rfl,rfl⟩ := Prod.mk.inj (Option.some.inj stepped)
  intro next emitted stepped
  exact ⟨⟨true,List.mem_cons_self⟩,trivial⟩

end VideoAnalytics.FrameAllocator
