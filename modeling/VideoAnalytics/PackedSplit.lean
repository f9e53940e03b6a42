import VideoAnalytics.PlanarCopy

/-! The split of a packed RGB4 surface into the planes of imgbuf in DecodeThreadFunc,
and the Mat that createMat puts together from them. A Mat here is its pixels, each the
list of its channels. -/
namespace VideoAnalytics.PackedSplit
open Loop Memory
open PlanarCopy (FrameInfo)

variable {α : Type}

/-- The pointers that Lock sets in the Data of a surface. -/
structure FrameData where
  r : Nat
  g : Nat
  b : Nat

def split (memory : Memory α) (data : FrameData) (info : FrameInfo) (imgbuf : Memory α) :
    Memory α :=
  let w := info.w
  let h := info.h
  let ptr := min (min data.r data.g) data.b + info.cropX + info.cropY * info.pitch
  let ptrB := 0
  let ptrG := w * h
  let ptrR := 2 * w * h
  forLoop h (fun i => forLoop w fun j imgbuf =>
    let imgbuf := imgbuf.write (ptrB + (i * w + j)) (memory (ptr + (i * info.pitch + j * 4 + 0)))
    let imgbuf := imgbuf.write (ptrG + (i * w + j)) (memory (ptr + (i * info.pitch + j * 4 + 1)))
    imgbuf.write (ptrR + (i * w + j)) (memory (ptr + (i * info.pitch + j * 4 + 2)))) imgbuf

structure Mat (α : Type) where
  rows : Nat
  cols : Nat
  pixel : Nat → Nat → List α

def Mat.header (rows cols : Nat) (data : Memory α) : Mat α :=
  ⟨rows,cols,fun y x => [data (y * cols + x)]⟩

def merge : List (Mat α) → Mat α
  | [] => ⟨0,0,fun _ _ => []⟩
  | first :: rest =>
    ⟨first.rows,first.cols,fun y x => (first :: rest).flatMap fun mat => mat.pixel y x⟩

def createMat (rawData : Memory α) (dimX dimY : Nat) : Mat α :=
  let channelR := Mat.header dimY dimX rawData
  let channelG := Mat.header dimY dimX (rawData.offset (dimX * dimY))
  let channelB := Mat.header dimY dimX (rawData.offset (2 * dimX * dimY))
  merge [channelB,channelG,channelR]

/-- Lock points B, G and R at the first three bytes of a packed surface. -/
structure FrameData.Packed (data : FrameData) : Prop where
  g : data.g = data.b + 1
  r : data.r = data.b + 2

def FrameData.byte (data : FrameData) (memory : Memory α) (info : FrameInfo) (row column : Nat) :
    α := memory (data.b + (row * info.pitch + column))

/-- Every pixel of the Mat is B, G and R of its pixel of the crop. -/
structure SameColours (data : FrameData) (memory : Memory α) (info : FrameInfo) (mat : Mat α) :
    Prop where
  rows : mat.rows = info.h
  cols : mat.cols = info.w
  pixel : ∀ y x, y < info.h → x < info.w → mat.pixel y x =
    [data.byte memory info (info.cropY + y) (4 * (info.cropX + x)),
      data.byte memory info (info.cropY + y) (4 * (info.cropX + x) + 1),
      data.byte memory info (info.cropY + y) (4 * (info.cropX + x) + 2)]

/-- The surface does not tell the bytes of its pixels from those that are three
columns of bytes before for each column of the crop, in the other order. -/
def Unnoticed (data : FrameData) (memory : Memory α) (info : FrameInfo) : Prop :=
  ∀ y x, y < info.h → x < info.w → ∀ channel, channel < 3 →
    data.byte memory info (info.cropY + y) (4 * (info.cropX + x) + channel) =
      data.byte memory info (info.cropY + y) (info.cropX + 4 * x + (2 - channel))

section Split

variable (memory : Memory α) (data : FrameData) (info : FrameInfo) (imgbuf : Memory α)

/-- The three planes up to a cell. -/
structure Filled (values : Nat → Nat → α) (size count : Nat) (imgbuf : Memory α) : Prop where
  b : ∀ n, n < count → imgbuf n = values n 0
  g : ∀ n, n < count → imgbuf (size + n) = values n 1
  r : ∀ n, n < count → imgbuf (2 * size + n) = values n 2

private theorem Filled.next {values : Nat → Nat → α} {size count : Nat} {imgbuf : Memory α}
    (filled : Filled values size count imgbuf) (within : count < size) :
    Filled values size (count + 1) (((imgbuf.write count (values count 0)).write
      (size + count) (values count 1)).write (2 * size + count) (values count 2)) := by
  constructor
  · intro n low
    rw [write_other _ _ _ _ (by omega),write_other _ _ _ _ (by omega)]
    by_cases last : n = count
    · rw [last,write_same]
    · rw [write_other _ _ _ _ last]
      exact filled.b n (by omega)
  · intro n low
    rw [write_other _ _ _ _ (by omega)]
    by_cases last : n = count
    · rw [last,write_same]
    · rw [write_other _ _ _ _ (by omega),write_other _ _ _ _ (by omega)]
      exact filled.g n (by omega)
  · intro n low
    by_cases last : n = count
    · rw [last,write_same]
    · rw [write_other _ _ _ _ (by omega),write_other _ _ _ _ (by omega),
        write_other _ _ _ _ (by omega)]
      exact filled.r n (by omega)

def stored (n channel : Nat) : α :=
  memory (min (min data.r data.g) data.b + info.cropX + info.cropY * info.pitch +
    (n / info.w * info.pitch + n % info.w * 4 + channel))

private theorem split_filled : Filled (stored memory data info) (info.w * info.h) (info.h * info.w)
    (split memory data info imgbuf) := by
  unfold split
  dsimp only
  rw [forLoop_nested info.h info.w]
  apply forLoop_induct (Filled (stored memory data info) (info.w * info.h))
  · exact ⟨by omega,by omega,by omega⟩
  · intro n state within filled
    rw [Nat.mul_comm] at within
    rw [Nat.div_add_mod',Nat.zero_add,Nat.mul_assoc 2]
    exact filled.next within

variable {data}

private theorem stored_byte (packed : data.Packed) {y x : Nat} (inside : x < info.w)
    (channel : Nat) : stored memory data info (y * info.w + x) channel =
      data.byte memory info (info.cropY + y) (info.cropX + 4 * x + channel) := by
  have first : min (min data.r data.g) data.b = data.b := by
    rw [packed.r,packed.g]
    omega
  unfold stored FrameData.byte
  rw [first,cell_row y inside,cell_col y inside]
  congr 1
  ring

private theorem split_pixel (packed : data.Packed) {y x : Nat} (low : y < info.h)
    (inside : x < info.w) : (createMat (split memory data info imgbuf) info.w info.h).pixel y x =
      [data.byte memory info (info.cropY + y) (info.cropX + 4 * x + 2),
        data.byte memory info (info.cropY + y) (info.cropX + 4 * x + 1),
        data.byte memory info (info.cropY + y) (info.cropX + 4 * x)] := by
  have filled := split_filled memory data info imgbuf
  have within := cell_within low inside
  have b := filled.b _ within
  have g := filled.g _ within
  have r := filled.r _ within
  rw [stored_byte memory info packed inside] at b g r
  simp [createMat,merge,Mat.header,b,g,r,Nat.mul_assoc]

theorem same_colours_iff (packed : data.Packed) :
    SameColours data memory info (createMat (split memory data info imgbuf) info.w info.h) ↔
      Unnoticed data memory info := by
  constructor
  · intro same y x low inside channel known
    have pixel := same.pixel y x low inside
    rw [split_pixel memory info imgbuf packed low inside] at pixel
    simp only [List.cons.injEq,and_true] at pixel
    obtain ⟨b,g,r⟩ := pixel
    match channel,known with
    | 0,_ => exact b.symm
    | 1,_ => exact g.symm
    | 2,_ => exact r.symm
  · intro unnoticed
    refine ⟨rfl,rfl,?_⟩
    intro y x low inside
    have bytes := unnoticed y x low inside
    rw [split_pixel memory info imgbuf packed low inside]
    have b := bytes 0 (by decide)
    have g := bytes 1 (by decide)
    have r := bytes 2 (by decide)
    rw [Nat.add_zero] at b
    rw [b,g,r]
    rfl

end Split

/-- Without an offset only B and R are mixed up. -/
theorem unnoticed_uncropped (data : FrameData) (memory : Memory α) (info : FrameInfo)
    (uncropped : info.cropX = 0) : Unnoticed data memory info ↔
      ∀ y x, y < info.h → x < info.w → data.byte memory info (info.cropY + y) (4 * x) =
        data.byte memory info (info.cropY + y) (4 * x + 2) := by
  unfold Unnoticed
  rw [uncropped]
  simp only [Nat.zero_add]
  constructor
  · intro unnoticed y x low inside
    exact unnoticed y x low inside 0 (by decide)
  · intro grey y x low inside channel known
    have same := grey y x low inside
    match channel,known with
    | 0,_ => exact same
    | 1,_ => rfl
    | 2,_ => exact same.symm

/-- No crop of a surface whose bytes all differ is split and put together again. -/
theorem distinct_noticed (data : FrameData) (memory : Memory α) (info : FrameInfo)
    (distinct : Function.Injective memory) (wide : 1 ≤ info.w) (high : 1 ≤ info.h) :
    ¬Unnoticed data memory info := by
  intro unnoticed
  have same := distinct (unnoticed 0 0 high wide 0 (by decide))
  omega

theorem same_colours_grey : SameColours ⟨2,1,0⟩ (fun _ => 128) (FrameInfo.mk 2 1 1 0 2 1 12)
    (createMat (split (fun _ => 128) ⟨2,1,0⟩ (FrameInfo.mk 2 1 1 0 2 1 12) fun _ => 0) 2 1) :=
  (same_colours_iff (fun _ => 128) (FrameInfo.mk 2 1 1 0 2 1 12) (fun _ => 0)
    ⟨rfl,rfl⟩).mpr fun _ _ _ _ _ _ => rfl

/-- A surface of one pixel: its B and R change places. -/
theorem split_swaps : ¬ ∀ (data : FrameData) (memory : Memory Nat) (info : FrameInfo)
    (imgbuf : Memory Nat), data.Packed → 1 ≤ info.w → 1 ≤ info.h →
      4 * (info.cropX + info.w) ≤ info.pitch →
        SameColours data memory info
          (createMat (split memory data info imgbuf) info.w info.h) := by
  intro claimed
  have pixel := (claimed ⟨2,1,0⟩ id (FrameInfo.mk 1 1 0 0 1 1 4) (fun _ => 0) ⟨rfl,rfl⟩
    (by decide) (by decide) (by decide)).pixel 0 0 (by decide) (by decide)
  revert pixel
  decide

end VideoAnalytics.PackedSplit
