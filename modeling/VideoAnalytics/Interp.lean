import VideoAnalytics.BlockedLayout
import VideoAnalytics.ExtLayer
import VideoAnalytics.Library.Lanes
import Mathlib.Algebra.Order.Floor.Ring
import Mathlib.Tactic.FieldSimp

/-! The Interp layer of the CPU extension, on tensors of so many entries. -/
namespace VideoAnalytics.Interp
open Loop Memory BlockedLayout Lanes

variable {F : Type}

/-- static_cast<int> -/
class FloatTrunc (F : Type) where
  trunc : F → Int

instance (priority := low) exactTrunc {F : Type} [Field F] [LinearOrder F] [FloorRing F] :
    FloatTrunc F where
  trunc x := if 0 ≤ x then ⌊x⌋ else ⌈x⌉

structure Impl where
  padBeg : Int
  padEnd : Int

/-- An area of a plane: where it starts, its size, and the size of the plane. -/
structure Window where
  x : Int
  y : Int
  hPad : Int
  wPad : Int
  H : Nat
  W : Nat

structure Buffer (F : Type) where
  entries : Nat
  data : Memory F

/-- Two rows or columns of the input with the weights of a position between them. -/
structure Taps (F : Type) where
  first : Int
  second : Int
  lambda0 : F
  lambda1 : F

/-- Where a block of channels of a pixel lies, from the start of the tensor. -/
def pointer (blockSize CB : Nat) (window : Window) (n cb : Nat) (y x : Int) : Int :=
  (n : Int) * CB * window.H * window.W + (cb : Int) * blockSize * window.W * window.H +
    y * window.W * blockSize + x * blockSize

section Interpolate

variable [FloatType F] [FloatTrunc F]

/-- rh and rw -/
def ratio (inPad outPad : Int) : F :=
  if outPad > 1 then ((inPad - 1 : Int) : F) / ((outPad - 1 : Int) : F) else ((0 : Int) : F)

def taps (r : F) (inPad : Int) (h : Nat) : Taps F :=
  let fh := r * ((h : Int) : F)
  let ih0 := FloatTrunc.trunc fh
  let lambda0 := fh - (ih0 : F)
  ⟨ih0,if ih0 < inPad - 1 then ih0 + 1 else ih0,lambda0,((1 : Int) : F) - lambda0⟩

def bilinear (h w : Taps F) (src00 src01 src10 src11 : F) : F :=
  h.lambda1 * (w.lambda1 * src00 + w.lambda0 * src01) +
    h.lambda0 * (w.lambda1 * src10 + w.lambda0 * src11)

/-- A block of channels of a pixel of the output. -/
def interpolateBlock (build : Build) (CB : Nat) (src : Buffer F) (source : Window)
    (dstEntries : Nat) (target : Window) (rh rw : F) (n cb h w : Nat) (dst : Memory F) :
    Except Outside (Memory F) :=
  let hTaps := taps rh source.hPad h
  let wTaps := taps rw source.wPad w
  let psrc (ih iw : Int) :=
    pointer build.blockSize CB source n cb (source.y + ih) (source.x + iw)
  let pdst := pointer build.blockSize CB target n cb (target.y + h) (target.x + w)
  tryLoop (build.blockSize / build.width) (fun i dst => do
    let step : Int := i * build.width
    let vsrc (ih iw : Int) : Except Outside (Lanes build.width F) :=
      loadAt src.entries src.data (psrc ih iw + step)
    let vsrc00 ← vsrc hTaps.first wTaps.first
    let vsrc01 ← vsrc hTaps.first wTaps.second
    let vsrc10 ← vsrc hTaps.second wTaps.first
    let vsrc11 ← vsrc hTaps.second wTaps.second
    storeAt dstEntries dst (pdst + step) fun lane =>
      bilinear hTaps wTaps (vsrc00 lane) (vsrc01 lane) (vsrc10 lane) (vsrc11 lane)) dst

/-- interpolate after its shortcut. -/
def interpolateLoop (build : Build) (N C : Nat) (src : Buffer F) (source : Window) (dst : Buffer F)
    (target : Window) : Except Outside (Memory F) :=
  let rh : F := ratio source.hPad target.hPad
  let rw : F := ratio source.wPad target.wPad
  let CB := alignChannels C build.blockSize
  let CH := (C + build.blockSize - 1) / build.blockSize
  tryLoop N (fun n => tryLoop CH fun cb => tryLoop target.hPad.toNat fun h =>
    tryLoop target.wPad.toNat fun w =>
      interpolateBlock build CB src source dst.entries target rh rw n cb h w) dst.data

/-- The shortcut of interpolate. -/
def copy (count : Nat) (src dst : Buffer F) : Except Outside (Memory F) :=
  tryLoop count (fun i memory => do
    let value : Lanes 1 F ← loadu src.entries src.data i
    storeu dst.entries memory i value) dst.data

def interpolate (build : Build) (N C : Nat) (src : Buffer F) (source : Window) (dst : Buffer F)
    (target : Window) : Except Outside (Memory F) :=
  if source.hPad = target.hPad ∧ source.wPad = target.wPad then
    copy (N * C * target.H * target.W) src dst
  else interpolateLoop build N C src source dst target

/-- The area of the input that the layer reads, and that of the output, which is all of it. -/
def Impl.source (impl : Impl) (IH IW : Nat) : Window :=
  ⟨-impl.padBeg,-impl.padBeg,IH + impl.padBeg + impl.padEnd,IW + impl.padBeg + impl.padEnd,IH,IW⟩

def whole (OH OW : Nat) : Window := ⟨0,0,OH,OW,OH,OW⟩

def execute (build : Build) (impl : Impl) (src dst : ExtBlob F) (srcEntries dstEntries : Nat) :
    Except Outside (Memory F) :=
  interpolate build (src.dim 0) (src.dim 1) ⟨srcEntries,src.data⟩
    (impl.source (src.dim 2) (src.dim 3)) ⟨dstEntries,dst.data⟩ (whole (dst.dim 2) (dst.dim 3))

end Interpolate

/-- An area that lies inside its plane and is not empty. -/
structure Window.Inside (window : Window) : Prop where
  left : 0 ≤ window.x
  top : 0 ≤ window.y
  rows : 1 ≤ window.hPad
  columns : 1 ≤ window.wPad
  bottom : window.y + window.hPad ≤ window.H
  right : window.x + window.wPad ≤ window.W

section Cells

variable (build : Build) {C N n cb : Nat} (window : Window)

/-- A block of a tensor by its number. -/
def blockCell (CH : Nat) (window : Window) (n cb y x : Nat) : Nat :=
  ((n * CH + cb) * window.H + y) * window.W + x

private theorem pointer_cell (C n cb y x : Nat) :
    pointer build.blockSize (alignChannels C build.blockSize) window n cb y x =
      ((blockCell ((C + build.blockSize - 1) / build.blockSize) window n cb y x * build.blockSize :
        Nat) : Int) := by
  rw [alignChannels_build]
  unfold pointer blockCell
  push_cast
  ring

theorem blockCell_within {CH y x : Nat} (image : n < N) (block : cb < CH) (row : y < window.H)
    (column : x < window.W) (size : Nat) : blockCell CH window n cb y x * size + size ≤
      N * (CH * size) * window.H * window.W := by
  have below := cell_within (cell_within (cell_within image block) row) column
  have fits := Nat.mul_le_mul_right size (Nat.succ_le_of_lt below)
  rw [Nat.succ_mul] at fits
  refine fits.trans_eq ?_
  ring

end Cells

section Taps

variable [Field F] [LinearOrder F] [IsStrictOrderedRing F] [FloorRing F]

private theorem position_bounds {inPad out : Int} {h : Nat} (some : 1 ≤ inPad)
    (inside : (h : Int) < out) : 0 ≤ (ratio inPad out : F) * ((h : Int) : F) ∧
      (ratio inPad out : F) * ((h : Int) : F) ≤ ((inPad - 1 : Int) : F) := by
  have steps : (0 : F) ≤ ((inPad - 1 : Int) : F) := Int.cast_nonneg (by omega)
  have forward : (0 : F) ≤ ((h : Int) : F) := Int.cast_nonneg (by omega)
  unfold ratio
  split
  · have last : (0 : F) < ((out - 1 : Int) : F) := Int.cast_pos.mpr (by omega)
    have below : ((h : Int) : F) ≤ ((out - 1 : Int) : F) := Int.cast_le.mpr (by omega)
    constructor
    · exact mul_nonneg (div_nonneg steps last.le) forward
    · rw [div_mul_eq_mul_div,div_le_iff₀ last]
      exact mul_le_mul_of_nonneg_left below steps
  · simpa using steps

theorem taps_first {inPad out : Int} {h : Nat} (some : 1 ≤ inPad) (inside : (h : Int) < out) :
    (taps (ratio inPad out : F) inPad h).first = ⌊(ratio inPad out : F) * ((h : Int) : F)⌋ :=
  if_pos (position_bounds some inside).1

/-- Both rows are rows of the area. -/
theorem taps_inside {inPad out : Int} {h : Nat} (some : 1 ≤ inPad) (inside : (h : Int) < out) :
    0 ≤ (taps (ratio inPad out : F) inPad h).first ∧
      (taps (ratio inPad out : F) inPad h).first < inPad ∧
      0 ≤ (taps (ratio inPad out : F) inPad h).second ∧
      (taps (ratio inPad out : F) inPad h).second < inPad := by
  obtain ⟨low,high⟩ := position_bounds (F := F) some inside
  have first := taps_first (F := F) some inside
  have least : 0 ≤ ⌊(ratio inPad out : F) * ((h : Int) : F)⌋ := Int.floor_nonneg.mpr low
  have most : ⌊(ratio inPad out : F) * ((h : Int) : F)⌋ ≤ inPad - 1 := by
    have mono := Int.floor_le_floor high
    rwa [Int.floor_intCast] at mono
  have second : (taps (ratio inPad out : F) inPad h).second =
      if (taps (ratio inPad out : F) inPad h).first < inPad - 1 then
        (taps (ratio inPad out : F) inPad h).first + 1
      else (taps (ratio inPad out : F) inPad h).first := rfl
  rw [second,first]
  split
  · omega
  · omega

end Taps

section Loop

variable [Field F] [LinearOrder F] [IsStrictOrderedRing F] [FloorRing F]
variable (build : Build) (src dst : Buffer F) (source target : Window)

/-- The channel of a block between the rows and columns of its taps. -/
def blended (CH n cb h w c : Nat) : F :=
  let hTaps : Taps F := taps (ratio source.hPad target.hPad) source.hPad h
  let wTaps : Taps F := taps (ratio source.wPad target.wPad) source.wPad w
  let src (ih iw : Int) := src.data (blockCell CH source n cb (source.y + ih).toNat
    (source.x + iw).toNat * build.blockSize + c)
  bilinear hTaps wTaps (src hTaps.first wTaps.first) (src hTaps.first wTaps.second)
    (src hTaps.second wTaps.first) (src hTaps.second wTaps.second)

/-- What the loop gives the entry of the output with a number. -/
def blendedAt (CH OH OW n : Nat) : F :=
  let cell := n / build.blockSize
  blended build src source target CH (cell / (CH * (OH * OW))) (cell % (CH * (OH * OW)) / (OH * OW))
    (cell % (CH * (OH * OW)) % (OH * OW) / OW) (cell % (CH * (OH * OW)) % (OH * OW) % OW)
    (n % build.blockSize)

variable {src dst source} {N C n cb : Nat}

omit [Field F] [LinearOrder F] [IsStrictOrderedRing F] [FloorRing F] in
/-- A load of channels of a tap stays within the input. -/
theorem load_tap {ih iw : Int} (inside : source.Inside)
    (room : N * alignChannels C build.blockSize * source.H * source.W ≤ src.entries)
    (image : n < N) (block : cb < (C + build.blockSize - 1) / build.blockSize)
    (row : 0 ≤ ih ∧ ih < source.hPad) (column : 0 ≤ iw ∧ iw < source.wPad) {i : Nat}
    (piece : i < build.blockSize / build.width) :
    (loadAt src.entries src.data
      (pointer build.blockSize (alignChannels C build.blockSize) source n cb (source.y + ih)
        (source.x + iw) + ((i * build.width : Nat) : Int)) : Except Outside (Lanes build.width F)) =
      .ok fun lane => src.data (blockCell ((C + build.blockSize - 1) / build.blockSize) source n cb
        (source.y + ih).toNat (source.x + iw).toNat * build.blockSize + (i * build.width + lane)) := by
  have top := inside.top
  have left := inside.left
  have bottom := inside.bottom
  have right := inside.right
  have y : source.y + ih = ((source.y + ih).toNat : Int) := (Int.toNat_of_nonneg (by omega)).symm
  have x : source.x + iw = ((source.x + iw).toNat : Int) := (Int.toNat_of_nonneg (by omega)).symm
  have within := blockCell_within source image block (show (source.y + ih).toNat < source.H by omega)
    (show (source.x + iw).toNat < source.W by omega) build.blockSize
  have piece_within := build.piece_within piece
  rw [alignChannels_build] at room
  rw [y,x,pointer_cell,← Nat.cast_add,loadAt_natCast,
    loadu_within _ (by rw [Nat.add_assoc]; omega)]
  simp only [Nat.add_assoc,y.symm,x.symm]

/-- The pieces of a block make one loop over its channels. -/
theorem interpolateBlock_eq {OH OW h w dstEntries : Nat} (inside : source.Inside)
    (room : N * alignChannels C build.blockSize * source.H * source.W ≤ src.entries)
    (target_room : N * alignChannels C build.blockSize * OH * OW ≤ dstEntries)
    (image : n < N) (block : cb < (C + build.blockSize - 1) / build.blockSize)
    (row : h < OH) (column : w < OW) (memory : Memory F) :
    interpolateBlock build (alignChannels C build.blockSize) src source dstEntries (whole OH OW)
        (ratio source.hPad (whole OH OW).hPad) (ratio source.wPad (whole OH OW).wPad) n cb h w
        memory =
      .ok (forLoop build.blockSize (fun c memory => memory.write
        (blockCell ((C + build.blockSize - 1) / build.blockSize) (whole OH OW) n cb h w *
          build.blockSize + c)
        (blended build src source (whole OH OW) ((C + build.blockSize - 1) / build.blockSize)
          n cb h w c)) memory) := by
  have hTaps := taps_inside (F := F) inside.rows
    (show (h : Int) < (whole OH OW).hPad from Int.ofNat_lt.mpr row)
  have wTaps := taps_inside (F := F) inside.columns
    (show (w : Int) < (whole OH OW).wPad from Int.ofNat_lt.mpr column)
  have within := blockCell_within (whole OH OW) image block row column build.blockSize
  rw [← alignChannels_build] at within
  unfold interpolateBlock
  dsimp only
  refine (@tryLoop_blocks F build.width dstEntries
    (blockCell ((C + build.blockSize - 1) / build.blockSize) (whole OH OW) n cb h w * build.blockSize)
    (build.blockSize / build.width)
    (fun c _ => blended build src source (whole OH OW)
      ((C + build.blockSize - 1) / build.blockSize) n cb h w c) _ ?_ ?_ memory).trans ?_
  · intro i memory piece
    have target_top : (whole OH OW).y + (h : Int) = (h : Int) := Int.zero_add _
    have target_left : (whole OH OW).x + (w : Int) = (w : Int) := Int.zero_add _
    have tap00 := load_tap build inside room image block ⟨hTaps.1,hTaps.2.1⟩
      ⟨wTaps.1,wTaps.2.1⟩ piece
    have tap01 := load_tap build inside room image block ⟨hTaps.1,hTaps.2.1⟩ wTaps.2.2 piece
    have tap10 := load_tap build inside room image block hTaps.2.2 ⟨wTaps.1,wTaps.2.1⟩ piece
    have tap11 := load_tap build inside room image block hTaps.2.2 wTaps.2.2 piece
    have store := pointer_cell build (whole OH OW) C n cb h w
    rw [target_top,target_left,store,← Nat.cast_mul,← Nat.cast_add,tap00,tap01,tap10,tap11]
    refine Eq.trans ?_ (storeAt_natCast dstEntries memory
      (blockCell ((C + build.blockSize - 1) / build.blockSize) (whole OH OW) n cb h w *
        build.blockSize + i * build.width) _)
    rfl
  · rw [build.width_pieces]
    exact within.trans target_room
  · rw [build.width_pieces]

private theorem blockCell_number {CH OH OW m : Nat} : blockCell CH (whole OH OW)
    (m / (CH * (OH * OW)))
    (m % (CH * (OH * OW)) / (OH * OW)) (m % (CH * (OH * OW)) % (OH * OW) / OW)
    (m % (CH * (OH * OW)) % (OH * OW) % OW) = m := by
  have planes := Nat.div_add_mod' m (CH * (OH * OW))
  have rows := Nat.div_add_mod' (m % (CH * (OH * OW))) (OH * OW)
  have columns := Nat.div_add_mod' (m % (CH * (OH * OW)) % (OH * OW)) OW
  unfold blockCell whole
  dsimp only
  calc _ = m / (CH * (OH * OW)) * (CH * (OH * OW)) + (m % (CH * (OH * OW)) / (OH * OW) * (OH * OW) +
        (m % (CH * (OH * OW)) % (OH * OW) / OW * OW + m % (CH * (OH * OW)) % (OH * OW) % OW)) := by
          ring
    _ = m := by rw [columns,rows,planes]

/-- The loop gives every entry of the output, and no other, the blend at its place. -/
theorem interpolateLoop_eq {OH OW : Nat} (dst : Buffer F) (inside : source.Inside)
    (room : N * alignChannels C build.blockSize * source.H * source.W ≤ src.entries)
    (target_room : N * alignChannels C build.blockSize * OH * OW ≤ dst.entries) :
    interpolateLoop build N C src source dst (whole OH OW) = .ok fun address =>
      if address < N * alignChannels C build.blockSize * OH * OW then
        blendedAt build src source (whole OH OW) ((C + build.blockSize - 1) / build.blockSize) OH OW
          address
      else dst.data address := by
  have flat : interpolateLoop build N C src source dst (whole OH OW) =
      .ok (forLoop N (fun n => forLoop ((C + build.blockSize - 1) / build.blockSize) fun cb =>
        forLoop OH fun h => forLoop OW fun w => forLoop build.blockSize fun c memory =>
          memory.write (blockCell ((C + build.blockSize - 1) / build.blockSize) (whole OH OW) n cb h w *
            build.blockSize + c) (blended build src source (whole OH OW)
              ((C + build.blockSize - 1) / build.blockSize) n cb h w c)) dst.data) := by
    apply tryLoop_forLoop
    intro n memory image
    apply tryLoop_forLoop
    intro cb memory block
    apply tryLoop_forLoop
    intro h memory row
    apply tryLoop_forLoop
    intro w memory column
    exact interpolateBlock_eq build inside room target_room image block row column memory
  rw [flat,forLoop_blocks,forLoop_nested]
  congr 1
  ext address
  have written := forLoop_write 0 (N * alignChannels C build.blockSize * OH * OW)
    (blendedAt build src source (whole OH OW) ((C + build.blockSize - 1) / build.blockSize) OH OW)
    dst.data address
  simp only [Nat.zero_add,Nat.zero_le,true_and,Nat.sub_zero] at written
  have count : N * ((C + build.blockSize - 1) / build.blockSize * (OH * OW)) * build.blockSize =
      N * alignChannels C build.blockSize * OH * OW := by
    rw [alignChannels_build]
    ring
  rw [← written,count]
  apply congrFun
  apply forLoop_congr
  intro i memory _
  rw [blockCell_number,Nat.div_add_mod']
  rfl

end Loop

end VideoAnalytics.Interp
