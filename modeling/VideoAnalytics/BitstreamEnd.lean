import VideoAnalytics.Bitstream

/-! When a refill that finds no data has reached the end of the file. -/
namespace VideoAnalytics.Bitstream

variable {Byte : Type}

/-- The file is at its end whenever a read from it reports that there is no more
data, which is also when the file is rewound, and the loop is left only when the
file is empty. -/
structure EndsAtEnd (feed : Feed Byte) : Prop where
  rewinds : (readBitStreamData feed.pmfxBS feed.file).1 = .errMoreData →
    feed.file.position = feed.file.bytes.length
  leaves : (refill feed).running = false → feed.file.bytes = []

structure InBounds (file : List Byte) (maxLength : Nat) (feed : Feed Byte) : Prop where
  bytes : feed.file.bytes = file
  capacity : feed.pmfxBS.maxLength = maxLength
  window : feed.pmfxBS.dataOffset + feed.pmfxBS.dataLength ≤ maxLength
  position : feed.file.position ≤ file.length

private theorem readBitStreamData_errMoreData (bs : MfxBitstream Byte) (fSource : SourceFile Byte) :
    (readBitStreamData bs fSource).1 = .errMoreData ↔ (chunk bs fSource).length = 0 := by
  rw [readBitStreamData_eq]
  dsimp only
  split
  · next empty => exact iff_of_true rfl empty
  · next found => exact iff_of_false (by decide) found

private theorem inBounds_start (file : List Byte) (maxLength : Nat) (uninitialised : Nat → Byte) :
    InBounds file maxLength (start file maxLength uninitialised) := by
  let zeroed : MfxBitstream Byte := ⟨uninitialised,0,0,maxLength⟩
  have ended := chunk_within zeroed ⟨file,0⟩ (Nat.zero_le _)
  simp only [start,readBitStreamData_eq]
  exact ⟨rfl,rfl,refilled_bound zeroed ⟨file,0⟩ (Nat.zero_le _),ended⟩

private theorem inBounds_consume {file : List Byte} {maxLength count : Nat} {feed : Feed Byte}
    (inside : InBounds file maxLength feed) (bound : count ≤ feed.pmfxBS.dataLength) :
    InBounds file maxLength (consume feed count) := by
  obtain ⟨bytes,capacity,window,position⟩ := inside
  refine ⟨bytes,capacity,?_,position⟩
  simp only [consume]
  omega

private theorem inBounds_refill {file : List Byte} {maxLength : Nat} {feed : Feed Byte}
    (inside : InBounds file maxLength feed) : InBounds file maxLength (refill feed) := by
  obtain ⟨rfl,rfl,window,position⟩ := inside
  by_cases empty : (chunk feed.pmfxBS feed.file).length = 0
  · have moved : (refilled feed.pmfxBS []).dataOffset + (refilled feed.pmfxBS []).dataLength ≤
        (refilled feed.pmfxBS []).maxLength := by
      simp only [refilled,List.length_nil]
      omega
    have ended := chunk_within (refilled feed.pmfxBS []) (rewind feed.file) (Nat.zero_le _)
    rw [refill_again feed empty]
    refine ⟨rfl,rfl,refilled_bound _ (rewind feed.file) moved,?_⟩
    simpa [rewind] using ended
  · rw [refill_found feed empty]
    exact ⟨rfl,rfl,refilled_bound feed.pmfxBS feed.file window,
      chunk_within feed.pmfxBS feed.file position⟩

private theorem inBounds_run {file : List Byte} {maxLength : Nat} {uninitialised : Nat → Byte}
    {actions : List FeedAction} {feed : Feed Byte} {consumed : List Byte}
    (ran : decodeFeed.run (start file maxLength uninitialised) actions = some (feed,consumed)) :
    InBounds file maxLength feed := by
  apply @Machine.run_invariant _ _ _ decodeFeed (fun feed _ => InBounds file maxLength feed) ?_
    actions _ feed consumed (inBounds_start file maxLength uninitialised) ran
  intro feed consumed action next emitted inside stepped
  cases action with
  | consume count =>
    simp only [decodeFeed,Option.ite_none_right_eq_some,Option.some.injEq,Prod.mk.injEq] at stepped
    obtain ⟨⟨_,bound⟩,rfl,_⟩ := stepped
    exact inBounds_consume inside bound
  | refill =>
    simp only [decodeFeed,Option.ite_none_right_eq_some,Option.some.injEq,Prod.mk.injEq] at stepped
    obtain ⟨_,rfl,_⟩ := stepped
    exact inBounds_refill inside

private theorem refill_running (feed : Feed Byte) : (refill feed).running = false ↔
    (chunk feed.pmfxBS feed.file).length = 0 ∧
      (chunk (refilled feed.pmfxBS []) (rewind feed.file)).length = 0 := by
  by_cases empty : (chunk feed.pmfxBS feed.file).length = 0
  · rw [refill_again feed empty]
    simp [empty]
  · rw [refill_found feed empty]
    simp [empty]

/-- In every state that the thread reaches, a refill ends or rewinds at the end of
the file only, if and only if the window has room or the file is empty. -/
theorem refill_ends_iff (file : List Byte) (maxLength : Nat) (uninitialised : Nat → Byte)
    (actions : List FeedAction) (feed : Feed Byte) (consumed : List Byte)
    (ran : decodeFeed.run (start file maxLength uninitialised) actions = some (feed,consumed)) :
    EndsAtEnd feed ↔ feed.pmfxBS.dataLength < feed.pmfxBS.maxLength ∨ file = [] := by
  obtain ⟨rfl,rfl,window,position⟩ := inBounds_run ran
  have first := chunk_length feed.pmfxBS feed.file
  have second := chunk_length (refilled feed.pmfxBS []) (rewind feed.file)
  simp only [refilled,rewind,List.length_nil,Nat.add_zero,Nat.sub_zero] at second
  have nonempty := List.length_eq_zero_iff (l := feed.file.bytes)
  constructor
  · intro ends
    by_contra full
    rw [not_or] at full
    apply full.2
    apply ends.leaves
    rw [refill_running]
    simp only [refilled,rewind,List.length_nil,Nat.add_zero]
    omega
  · intro room
    rw [← nonempty] at room
    constructor
    · rw [readBitStreamData_errMoreData]
      omega
    · rw [refill_running,← nonempty]
      simp only [refilled,rewind,List.length_nil,Nat.add_zero]
      omega

theorem refill_ends_consumed : ∃ feed consumed,
    decodeFeed.run (start [1,2,3] 2 fun _ => 0) [.consume 1] = some (feed,consumed) ∧
      EndsAtEnd feed :=
  ⟨_,_,rfl,(refill_ends_iff [1,2,3] 2 (fun _ => 0) [.consume 1] _ _ rfl).mpr (.inl (by decide))⟩

/-- A window that is full before the decoder has found a frame in it: the file is
rewound half-way, and the loop left. -/
theorem refill_full_window :
    (start [1,2,3,4] 2 fun _ => 0).running = true ∧
      ¬EndsAtEnd (start [1,2,3,4] 2 fun _ => 0) ∧
      (refill (start [1,2,3,4] 2 fun _ => 0)).running = false := by
  refine ⟨rfl,?_,by decide⟩
  intro ends
  have position := ends.rewinds (by decide)
  revert position
  decide

end VideoAnalytics.Bitstream
