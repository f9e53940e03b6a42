import VideoAnalytics.FrameAllocatorRuns

/-! The release of VA surfaces over histories of allocator calls: none is ever
destroyed, neither too early nor after the last response is freed. -/
namespace VideoAnalytics.FrameAllocator

/-- The surfaces of the responses still held exist, no surface is destroyed more
often than VA created one of its number, and no surface outlives the responses. -/
structure Released (client : Client) (trace : List VaEvent) : Prop where
  held : ∀ entry ∈ client.live, client.allocator.FramesExist entry.response
  once : ∀ id, trace.count (.destroyedSurface id) ≤ trace.count (.createdSurface id)
  complete : client.live = [] →
    ∀ id, trace.count (.createdSurface id) = trace.count (.destroyedSurface id)

def Call.CreatesSurfaces (client : Client) : Call → Prop
  | .alloc env pthis (some request) response =>
    FrameAllocator.CreatesSurfaces env pthis request response client.allocator
  | .alloc _ _ none _ => False
  | .free _ _ => False

/-- The events of one call: surfaces are created exactly by the calls that say
so, and none is destroyed. -/
theorem alloc_surfaces (client : Client) (env : AllocEnv) (pthis : Nat)
    (request : FrameAllocRequest) (response : Option FrameAllocResponse)
    (fresh : env.Fresh client.allocator request.numFrameSuggested) :
    (∀ id, .destroyedSurface id ∉ (client.alloc env pthis request response).2) ∧
      (¬CreatesSurfaces env pthis request response client.allocator ↔
        ∀ id, .createdSurface id ∉ (client.alloc env pthis request response).2) := by
  have answered := simpleAlloc_answered env pthis request response client.allocator fresh
  have same_events : (client.alloc env pthis request response).2 =
      (simpleAlloc env pthis (some request) response client.allocator).2.2.2 := by
    unfold Client.alloc
    rcases simpleAlloc env pthis (some request) response client.allocator with
      ⟨sts,left,allocator,events⟩
    cases sts <;> cases left <;> rfl
  rw [same_events]
  generalize simpleAlloc env pthis (some request) response client.allocator = answer at answered ⊢
  cases answered with
  | refused sts left b events error same quiet unmade unmatched =>
    refine ⟨quiet.kept,?_⟩
    simpa [quiet.created] using unmade
  | reused b matched same =>
    refine ⟨by simp,?_⟩
    simp [CreatesSurfaces,matched.2.2]
  | made object b events unmatched described surfaces blocks frames picture heap va owners saved =>
    refine ⟨surfaces.kept,?_⟩
    have some_ids : env.ids ≠ [] := by
      intro empty
      have length : env.ids.length = request.numFrameSuggested := fresh.2.2.2.1
      rw [empty] at length
      exact frames length.symm
    simp only [picture,surfaces.created,surfacesFor,ne_eq,not_not]
    constructor
    · intro coded
      simp [coded]
    · intro none_made
      by_contra pictures
      rw [if_neg pictures] at none_made
      exact some_ids (List.eq_nil_iff_forall_not_mem.mpr none_made)

private theorem step_surfaces (client next : Client) (call : Call) (events : List VaEvent)
    (kept : Kept client) (stepped : clients.step client call = some (next,events)) :
    (∀ id, .destroyedSurface id ∉ events) ∧
      (¬call.CreatesSurfaces client ↔ ∀ id, .createdSurface id ∉ events) := by
  cases call with
  | alloc env pthis request response =>
    cases request with
    | none =>
      obtain ⟨-,rfl⟩ : client = next ∧ [] = events := by simpa [clients] using stepped
      simp [Call.CreatesSurfaces]
    | some request =>
      simp only [clients] at stepped
      split at stepped
      · next fresh =>
        have surfaces := alloc_surfaces client env pthis request response fresh
        rw [Option.some.inj stepped] at surfaces
        exact surfaces
      · contradiction
  | free pthis response =>
    have quiet := (free_kept client pthis response kept).2
    rw [Option.some.inj stepped] at quiet
    simp [Call.CreatesSurfaces,show events = [] from quiet]

def VaEvent.MakesSurface : VaEvent → Prop
  | .createdSurface _ => True
  | .destroyedSurface _ => False
  | .createdBuffer _ => False
  | .destroyedBuffer _ => False

private theorem quiet_iff (events : List VaEvent) :
    (∀ id, .createdSurface id ∉ events) ↔ ∀ event ∈ events, ¬event.MakesSurface := by
  constructor
  · intro quiet event member
    cases event with
    | createdSurface id => exact absurd member (quiet id)
    | _ => exact id
  · intro quiet id member
    exact quiet _ member trivial

private theorem kept_run (calls : List Call) (client : Client) (trace : List VaEvent)
    (ran : clients.run start calls = some (client,trace)) :
    Kept client ∧ ∀ id, .destroyedSurface id ∉ trace := by
  refine Machine.run_invariant
    (fun client trace => Kept client ∧ ∀ id, .destroyedSurface id ∉ trace) ?_ ?_ ran
  · intro client trace call next events holds stepped
    have surfaces := step_surfaces client next call events holds.1 stepped
    refine ⟨kept_step client next call events holds.1 stepped,?_⟩
    intro id member
    rcases List.mem_append.mp member with before | now
    · exact holds.2 id before
    · exact surfaces.1 id now
  · exact ⟨kept_start,by simp⟩

private theorem created_run (calls : List Call) (client : Client) (trace : List VaEvent)
    (ran : clients.run start calls = some (client,trace)) :
    clients.Along (fun client call => ¬call.CreatesSurfaces client) start calls ↔
      ∀ id, .createdSurface id ∉ trace := by
  rw [quiet_iff]
  refine Machine.along_iff_trace Kept ?_ ?_ kept_start ran
  · intro client call next events kept stepped
    exact kept_step client next call events kept stepped
  · intro client call next events kept stepped
    rw [(step_surfaces client next call events kept stepped).2,quiet_iff]

/-- Over every history the allocator destroys no surface, so that the surfaces
are released exactly if some response is still held or none was ever created. -/
theorem surfaces_released_iff (calls : List Call) (client : Client) (trace : List VaEvent)
    (ran : clients.run start calls = some (client,trace)) :
    Released client trace ↔ (client.live = [] →
      clients.Along (fun client call => ¬call.CreatesSurfaces client) start calls) := by
  obtain ⟨kept,undestroyed⟩ := kept_run calls client trace ran
  have none_destroyed : ∀ id, trace.count (.destroyedSurface id) = 0 :=
    fun id => List.count_eq_zero.mpr (undestroyed id)
  rw [created_run calls client trace ran]
  constructor
  · intro released all_freed id
    have balanced := released.complete all_freed id
    rw [none_destroyed] at balanced
    exact List.count_eq_zero.mp balanced
  · intro none_created
    refine ⟨kept.live,?_,?_⟩
    · intro id
      rw [none_destroyed]
      exact Nat.zero_le _
    · intro all_freed id
      rw [none_destroyed]
      exact List.count_eq_zero.mpr (none_created all_freed id)

def decodeOnce : List Call :=
  let info : FrameInfo := ⟨.nv12,1920,1088⟩
  [.alloc ⟨1,2,3,[7,8],.success,fun _ => .success⟩ 5 (some ⟨info,⟨true,false,true,true⟩,2,0⟩)
      (some ⟨0,0⟩),
    .free 5 (some ⟨3,2⟩)]

theorem surfaces_released_iff_decode_once : ∃ client trace,
    clients.run start decodeOnce = some (client,trace) ∧
      (Released client trace ↔ (client.live = [] →
        clients.Along (fun client call => ¬call.CreatesSurfaces client) start decodeOnce)) :=
  ⟨_,_,rfl,surfaces_released_iff decodeOnce _ _ rfl⟩

theorem decode_surfaces_not_released : ∃ client trace,
    clients.run start decodeOnce = some (client,trace) ∧ client.live = [] ∧
      trace = [.createdSurface 7,.createdSurface 8] ∧ ¬Released client trace := by
  refine ⟨_,_,rfl,rfl,rfl,?_⟩
  intro released
  have balanced := released.complete rfl 7
  exact absurd balanced (by decide)

end VideoAnalytics.FrameAllocator
