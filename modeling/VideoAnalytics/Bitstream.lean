import VideoAnalytics.Library.Machine
import VideoAnalytics.Library.Repeated
import VideoAnalytics.Mfx

/-! The encoded stream on its way into the decoder: the bitstream buffer, its
refill from the file and the part of the decode thread that drives both.
Lengths and offsets are unsigned 32-bit in the source; they stay at or below
MaxLength, so no wrap-around occurs. The events of the feed are the bytes that
DecodeFrameAsync takes from the front of the window. -/
namespace VideoAnalytics.Bitstream

variable {Byte : Type}

structure MfxBitstream (Byte : Type) where
  data : Nat → Byte
  dataOffset : Nat
  dataLength : Nat
  maxLength : Nat

structure SourceFile (Byte : Type) where
  bytes : List Byte
  position : Nat

def MfxBitstream.window (bs : MfxBitstream Byte) : List Byte :=
  (List.range bs.dataLength).map fun i => bs.data (bs.dataOffset + i)

def memmove (data : Nat → Byte) (source length : Nat) : Nat → Byte :=
  fun i => if i < length then data (source + i) else data i

def fread (fSource : SourceFile Byte) (count : Nat) : List Byte × SourceFile Byte :=
  -- Without an input error a read is short only at the end of the file.
  let read := (fSource.bytes.drop fSource.position).take count
  (read,{fSource with position := fSource.position + read.length})

def writeAt (data : Nat → Byte) (start : Nat) (bytes : List Byte) : Nat → Byte :=
  fun i => if start ≤ i then (bytes[i - start]?).getD (data i) else data i

def rewind (fSource : SourceFile Byte) : SourceFile Byte := {fSource with position := 0}

def readBitStreamData (bs : MfxBitstream Byte) (fSource : SourceFile Byte) :
    MfxStatus × MfxBitstream Byte × SourceFile Byte :=
  let moved := {bs with data := memmove bs.data bs.dataOffset bs.dataLength, dataOffset := 0}
  let (read,advanced) := fread fSource (moved.maxLength - moved.dataLength)
  let filled := {moved with data := writeAt moved.data moved.dataLength read}
  if read.length = 0 then (.errMoreData,filled,advanced)
  else (.errNone,{filled with dataLength := filled.dataLength + read.length},advanced)

structure Feed (Byte : Type) where
  pmfxBS : MfxBitstream Byte
  file : SourceFile Byte
  running : Bool

inductive FeedAction
  | consume (count : Nat)
  | refill

/-- Refill with a rewind and a second read when the first read reports an
error, and MSDK_BREAK_ON_ERROR after it. -/
def refill (feed : Feed Byte) : Feed Byte :=
  let (sts,bs,file) := readBitStreamData feed.pmfxBS feed.file
  let (sts,bs,file) := if sts ≠ .errNone then readBitStreamData bs (rewind file) else (sts,bs,file)
  {pmfxBS := bs, file := file, running := sts = .errNone}

def consume (feed : Feed Byte) (count : Nat) : Feed Byte :=
  {feed with pmfxBS := {feed.pmfxBS with
    dataOffset := feed.pmfxBS.dataOffset + count
    dataLength := feed.pmfxBS.dataLength - count}}

def decodeFeed : Machine.System (Feed Byte) FeedAction Byte where
  step feed
    | .consume count =>
      if feed.running ∧ count ≤ feed.pmfxBS.dataLength then
        some (consume feed count,feed.pmfxBS.window.take count)
      else none
    | .refill => if feed.running then some (refill feed,[]) else none

def start (file : List Byte) (maxLength : Nat) (uninitialised : Nat → Byte) : Feed Byte :=
  -- main zeroes the structure, leaves the buffer as allocated and reads once.
  let (_,bs,source) := readBitStreamData ⟨uninitialised,0,0,maxLength⟩ ⟨file,0⟩
  ⟨bs,source,true⟩

private theorem window_consume (feed : Feed Byte) (count : Nat) :
    feed.pmfxBS.window.take count ++ (consume feed count).pmfxBS.window = feed.pmfxBS.window := by
  have rest : (consume feed count).pmfxBS.window = feed.pmfxBS.window.drop count := by
    apply List.ext_getElem
    · simp [consume,MfxBitstream.window]
    · intro i left right
      simp [consume,MfxBitstream.window,Nat.add_assoc]
  rw [rest,List.take_append_drop]

def chunk (bs : MfxBitstream Byte) (fSource : SourceFile Byte) : List Byte :=
  (fSource.bytes.drop fSource.position).take (bs.maxLength - bs.dataLength)

def refilled (bs : MfxBitstream Byte) (read : List Byte) : MfxBitstream Byte where
  data := writeAt (memmove bs.data bs.dataOffset bs.dataLength) bs.dataLength read
  dataOffset := 0
  dataLength := bs.dataLength + read.length
  maxLength := bs.maxLength

private theorem window_refilled (bs : MfxBitstream Byte) (read : List Byte) :
    (refilled bs read).window = bs.window ++ read := by
  apply List.ext_getElem
  · simp [MfxBitstream.window,refilled]
  · intro i left right
    have bound : i < bs.dataLength + read.length := by simpa [MfxBitstream.window,refilled] using left
    by_cases kept : i < bs.dataLength
    · have before : ¬ bs.dataLength ≤ i := by omega
      simp [MfxBitstream.window,refilled,writeAt,memmove,kept,before]
    · have reached : bs.dataLength ≤ i := by omega
      have inside : i - bs.dataLength < read.length := by omega
      simp [MfxBitstream.window,refilled,writeAt,reached,inside]

/-- One read keeps the bytes of the window, appends the chunk and reports an
error exactly when the chunk is empty. -/
theorem readBitStreamData_eq (bs : MfxBitstream Byte) (fSource : SourceFile Byte) :
    readBitStreamData bs fSource =
      (if (chunk bs fSource).length = 0 then .errMoreData else .errNone,
        refilled bs (chunk bs fSource),
        {fSource with position := fSource.position + (chunk bs fSource).length}) := by
  by_cases empty : (chunk bs fSource).length = 0
  · simp only [readBitStreamData,fread,refilled,chunk] at empty ⊢
    simp only [empty,if_true,Nat.add_zero]
  · simp only [readBitStreamData,fread,refilled,chunk] at empty ⊢
    simp only [empty,if_false]

/-- The words already delivered and the window are whole copies of the file
followed by the part of it read last; that part ends at the file position as
long as the loop runs. -/
structure InOrder (file : List Byte) (maxLength : Nat) (feed : Feed Byte)
    (consumed : List Byte) : Prop where
  bytes : feed.file.bytes = file
  capacity : feed.pmfxBS.maxLength = maxLength
  bound : feed.pmfxBS.dataOffset + feed.pmfxBS.dataLength ≤ maxLength
  sequence : ∃ count part, part ≤ file.length ∧
    (feed.running = true → feed.file.position = part) ∧
    consumed ++ feed.pmfxBS.window = Repeated.cycles file count ++ file.take part

theorem chunk_length (bs : MfxBitstream Byte) (fSource : SourceFile Byte) :
    (chunk bs fSource).length =
      min (bs.maxLength - bs.dataLength) (fSource.bytes.length - fSource.position) := by
  simp [chunk]

theorem chunk_within (bs : MfxBitstream Byte) (fSource : SourceFile Byte)
    (within : fSource.position ≤ fSource.bytes.length) :
    fSource.position + (chunk bs fSource).length ≤ fSource.bytes.length := by
  have size := chunk_length bs fSource
  omega

theorem refilled_bound (bs : MfxBitstream Byte) (fSource : SourceFile Byte)
    (bound : bs.dataOffset + bs.dataLength ≤ bs.maxLength) :
    (refilled bs (chunk bs fSource)).dataOffset + (refilled bs (chunk bs fSource)).dataLength ≤
      bs.maxLength := by
  have size := chunk_length bs fSource
  simp only [refilled]
  omega

private theorem take_chunk (bs : MfxBitstream Byte) (fSource : SourceFile Byte) (count : Nat) :
    Repeated.cycles fSource.bytes count ++ fSource.bytes.take fSource.position ++
        chunk bs fSource =
      Repeated.cycles fSource.bytes count ++
        fSource.bytes.take (fSource.position + (chunk bs fSource).length) := by
  have whole : chunk bs fSource =
      (fSource.bytes.drop fSource.position).take (chunk bs fSource).length := by
    simp [chunk,List.take_eq_take_iff]
  rw [← Repeated.cycles_extend,← whole]

private theorem inOrder_consume {file consumed : List Byte} {maxLength count : Nat}
    {feed : Feed Byte}
    (kept : InOrder file maxLength feed consumed) (bound : count ≤ feed.pmfxBS.dataLength) :
    InOrder file maxLength (consume feed count)
      (consumed ++ feed.pmfxBS.window.take count) := by
  obtain ⟨bytes,capacity,inside,sequence⟩ := kept
  refine ⟨bytes,capacity,?_,?_⟩
  · simp only [consume]
    omega
  · rw [List.append_assoc,window_consume]
    exact sequence

theorem refill_found (feed : Feed Byte)
    (found : (chunk feed.pmfxBS feed.file).length ≠ 0) :
    refill feed = ⟨refilled feed.pmfxBS (chunk feed.pmfxBS feed.file),
      {feed.file with position := feed.file.position + (chunk feed.pmfxBS feed.file).length},
      true⟩ := by
  simp only [refill,readBitStreamData_eq,if_neg found]
  simp

theorem refill_again (feed : Feed Byte)
    (empty : (chunk feed.pmfxBS feed.file).length = 0) :
    refill feed =
      let moved := refilled feed.pmfxBS []
      let again := chunk moved (rewind feed.file)
      ⟨refilled moved again,{feed.file with position := again.length},again.length ≠ 0⟩ := by
  have none : chunk feed.pmfxBS feed.file = [] := List.length_eq_zero_iff.mp empty
  simp only [refill,readBitStreamData_eq,none,List.length_nil,if_true]
  by_cases full : (chunk (refilled feed.pmfxBS []) (rewind feed.file)).length = 0
  · simp [rewind] at full
    simp [rewind,full]
  · simp [rewind] at full
    simp [rewind,full]

/-- A refill that finds data continues the last repetition. One that finds none
has either a full window, and then leaves the loop, or has read the file to its
end, and then starts the next repetition. -/
theorem inOrder_refill {file consumed : List Byte} {maxLength : Nat} {feed : Feed Byte}
    (nonempty : file ≠ []) (kept : InOrder file maxLength feed consumed)
    (running : feed.running = true) : InOrder file maxLength (refill feed) consumed := by
  obtain ⟨rfl,rfl,inside,count,part,within,position,sequence⟩ := kept
  obtain rfl := position running
  have size := chunk_length feed.pmfxBS feed.file
  by_cases empty : (chunk feed.pmfxBS feed.file).length = 0
  · let moved := refilled feed.pmfxBS []
    have ended := chunk_within moved (rewind feed.file) (Nat.zero_le _)
    have unchanged : moved.window = feed.pmfxBS.window := by
      simpa using window_refilled feed.pmfxBS []
    have movedInside : moved.dataOffset + moved.dataLength ≤ moved.maxLength := by
      simp only [moved,refilled,List.length_nil]
      omega
    have positive := List.length_pos_iff.mpr nonempty
    rw [refill_again feed empty]
    refine ⟨rfl,rfl,refilled_bound moved (rewind feed.file) movedInside,?_⟩
    dsimp only
    rw [window_refilled,unchanged,← List.append_assoc,sequence]
    by_cases full : feed.pmfxBS.maxLength = feed.pmfxBS.dataLength
    · have none : chunk moved (rewind feed.file) = [] := by
        simp [chunk,moved,refilled,full]
      exact ⟨count,feed.file.position,within,by simp [moved,none] at *,by simp [moved,none]⟩
    · have complete : feed.file.bytes.length ≤ feed.file.position := by omega
      refine ⟨count + 1,(chunk moved (rewind feed.file)).length,?_,fun _ => rfl,?_⟩
      · simpa [rewind] using ended
      · rw [Repeated.cycles_wrap _ _ _ complete]
        simpa [rewind] using take_chunk moved (rewind feed.file) (count + 1)
  · rw [refill_found feed empty]
    refine ⟨rfl,rfl,refilled_bound feed.pmfxBS feed.file inside,count,
      feed.file.position + (chunk feed.pmfxBS feed.file).length,
      chunk_within feed.pmfxBS feed.file within,fun _ => rfl,?_⟩
    dsimp only
    rw [window_refilled,← List.append_assoc,sequence]
    exact take_chunk feed.pmfxBS feed.file count

private theorem inOrder_start (file : List Byte) (maxLength : Nat) (uninitialised : Nat → Byte) :
    InOrder file maxLength (start file maxLength uninitialised) [] := by
  let zeroed : MfxBitstream Byte := ⟨uninitialised,0,0,maxLength⟩
  have ended := chunk_within zeroed ⟨file,0⟩ (Nat.zero_le _)
  have whole := take_chunk zeroed ⟨file,0⟩ 0
  simp only [start,readBitStreamData_eq]
  refine ⟨rfl,rfl,refilled_bound zeroed ⟨file,0⟩ (Nat.zero_le _),0,
    (chunk zeroed ⟨file,0⟩).length,by simpa using ended,fun _ => by simp [zeroed],?_⟩
  rw [window_refilled]
  simpa [zeroed,MfxBitstream.window] using whole

private theorem inOrder_step (file : List Byte) (maxLength : Nat) (nonempty : file ≠ [])
    (feed : Feed Byte) (consumed : List Byte) (action : FeedAction) (next : Feed Byte)
    (emitted : List Byte) (kept : InOrder file maxLength feed consumed)
    (stepped : decodeFeed.step feed action = some (next,emitted)) :
    InOrder file maxLength next (consumed ++ emitted) := by
  cases action with
  | consume count =>
    simp only [decodeFeed,Option.ite_none_right_eq_some,Option.some.injEq,Prod.mk.injEq] at stepped
    obtain ⟨⟨_,bound⟩,rfl,rfl⟩ := stepped
    exact inOrder_consume kept bound
  | refill =>
    simp only [decodeFeed,Option.ite_none_right_eq_some,Option.some.injEq,Prod.mk.injEq] at stepped
    obtain ⟨running,rfl,rfl⟩ := stepped
    simpa using inOrder_refill nonempty kept running

/-- At every point of every run of the thread the bytes the decoder has
consumed, followed by those in the window, are a prefix of the file repeated
for ever, and the window lies inside the buffer. -/
theorem decoder_fed_in_order (file : List Byte) (maxLength : Nat) (nonempty : file ≠ [])
    (uninitialised : Nat → Byte) (actions : List FeedAction) (feed : Feed Byte)
    (consumed : List Byte)
    (ran : decodeFeed.run (start file maxLength uninitialised) actions = some (feed,consumed)) :
    Repeated.IsPrefix file (consumed ++ feed.pmfxBS.window) ∧
      feed.pmfxBS.dataOffset + feed.pmfxBS.dataLength ≤ feed.pmfxBS.maxLength := by
  obtain ⟨_,capacity,bound,count,part,_,_,sequence⟩ :=
    Machine.run_invariant (InOrder file maxLength) (inOrder_step file maxLength nonempty)
      (inOrder_start file maxLength uninitialised) ran
  refine ⟨?_,by omega⟩
  rw [sequence]
  exact Repeated.cycles_take file count part

theorem decoder_fed_in_order_wrap : ∃ feed,
    decodeFeed.run (start [1,2,3] 2 fun _ => 0) [.consume 1,.refill,.consume 2,.refill] =
      some (feed,[1,2,3]) ∧
    Repeated.IsPrefix [1,2,3] ([1,2,3] ++ feed.pmfxBS.window) ∧
    feed.pmfxBS.dataOffset + feed.pmfxBS.dataLength ≤ feed.pmfxBS.maxLength :=
  ⟨_,rfl,decoder_fed_in_order [1,2,3] 2 (by decide) (fun _ => 0)
    [.consume 1,.refill,.consume 2,.refill] _ _ rfl⟩

end VideoAnalytics.Bitstream
