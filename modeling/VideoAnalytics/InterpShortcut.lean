import VideoAnalytics.Interp
import Mathlib.Data.Rat.Floor

/-! The shortcut of interpolate beside the loop that it replaces. -/
namespace VideoAnalytics.Interp
open Loop Memory BlockedLayout Lanes

section Entries

variable (build : Build)

/-- Where a channel of a pixel lies in a tensor whose channels are rounded up to blocks. -/
def channelEntry (C : Nat) (window : Window) (n c y x : Nat) : Nat :=
  blockCell ((C + build.blockSize - 1) / build.blockSize) window n (c / build.blockSize) y x *
    build.blockSize + c % build.blockSize

variable {build} {C c : Nat}

private theorem channel_block (channel : c < C) :
    c / build.blockSize < (C + build.blockSize - 1) / build.blockSize := by
  have positive := build.blockSize_pos
  have cover := blocks_cover positive C
  exact Nat.div_lt_of_lt_mul (by rw [Nat.mul_comm]; omega)

private theorem channelEntry_within {N n y x : Nat} {window : Window} (image : n < N)
    (channel : c < C) (row : y < window.H) (column : x < window.W) :
    channelEntry build C window n c y x < N * alignChannels C build.blockSize * window.H * window.W := by
  have block : c / build.blockSize < _ := channel_block channel
  have within := blockCell_within window image block row column build.blockSize
  have lane := Nat.mod_lt c build.blockSize_pos
  rw [alignChannels_build]
  unfold channelEntry
  omega

end Entries

section Same

variable {F : Type} [Field F] [LinearOrder F] [IsStrictOrderedRing F] [FloorRing F]

/-- Between areas of one size each row is its own tap. -/
theorem taps_same {out : Int} {h : Nat} (inside : (h : Int) < out) :
    (taps (ratio out out : F) out h).first = h ∧ (taps (ratio out out : F) out h).lambda0 = 0 ∧
      (taps (ratio out out : F) out h).lambda1 = 1 := by
  have position : (ratio out out : F) * ((h : Int) : F) = ((h : Int) : F) := by
    unfold ratio
    split
    · next more =>
      have last : (((out - 1 : Int)) : F) ≠ 0 := Int.cast_ne_zero.mpr (by omega)
      rw [div_self last,one_mul]
    · next one =>
      have zero : h = 0 := by omega
      rw [zero]
      simp
  have first : (taps (ratio out out : F) out h).first = h := by
    rw [taps_first (by omega) inside,position,Int.floor_intCast]
  have lambda0 : (taps (ratio out out : F) out h).lambda0 = 0 := by
    have difference : (taps (ratio out out : F) out h).lambda0 =
      (ratio out out : F) * ((h : Int) : F) - ((taps (ratio out out : F) out h).first : F) := rfl
    rw [difference,first,position,sub_self]
  refine ⟨first,lambda0,?_⟩
  have rest : (taps (ratio out out : F) out h).lambda1 =
    ((1 : Int) : F) - (taps (ratio out out : F) out h).lambda0 := rfl
  rw [rest,lambda0,Int.cast_one,sub_zero]

variable (build : Build) {src : Buffer F} {source : Window} {CH n cb h w c OH OW : Nat}

private theorem blended_same (rows : source.hPad = OH) (columns : source.wPad = OW) (row : h < OH)
    (column : w < OW) : blended build src source (whole OH OW) CH n cb h w c =
      src.data (blockCell CH source n cb (source.y + h).toNat (source.x + w).toNat *
        build.blockSize + c) := by
  obtain ⟨hFirst,hLambda0,hLambda1⟩ := taps_same (F := F) (Int.ofNat_lt.mpr row)
  obtain ⟨wFirst,wLambda0,wLambda1⟩ := taps_same (F := F) (Int.ofNat_lt.mpr column)
  unfold blended bilinear whole
  dsimp only
  rw [rows,columns,hFirst,hLambda0,hLambda1,wFirst,wLambda0,wLambda1]
  ring

omit [IsStrictOrderedRing F] in
private theorem blendedAt_cell {target : Window} (block : cb < CH) (row : h < OH) (column : w < OW)
    (lane : c < build.blockSize) :
    blendedAt build src source target CH OH OW
        (blockCell CH (whole OH OW) n cb h w * build.blockSize + c) =
      blended build src source target CH n cb h w c := by
  have pixel := cell_within row column
  have plane := cell_within block pixel
  have number : blockCell CH (whole OH OW) n cb h w =
      n * (CH * (OH * OW)) + (cb * (OH * OW) + (h * OW + w)) := by
    unfold blockCell whole
    ring
  unfold blendedAt
  dsimp only
  rw [cell_row _ lane,cell_col _ lane,number,cell_row n plane,cell_col n plane,cell_row cb pixel,
    cell_col cb pixel,cell_row h column,cell_col h column]

end Same

theorem copy_eq {F : Type} {count : Nat} {src dst : Buffer F} (room : count ≤ src.entries)
    (target_room : count ≤ dst.entries) :
    copy count src dst = .ok fun address =>
      if address < count then src.data address else dst.data address := by
  have written := forLoop_write 0 count src.data dst.data
  simp only [Nat.zero_add,Nat.zero_le,true_and,Nat.sub_zero] at written
  refine (@tryLoop_blocks F 1 dst.entries 0 count (fun i _ => src.data i) _ ?_ (by omega)
    dst.data).trans ?_
  · intro i memory low
    rw [loadu_within _ (show i + 1 ≤ src.entries by omega)]
    rw [Nat.zero_add,Nat.mul_one]
    rfl
  · rw [Nat.mul_one]
    congr 1
    ext address
    simpa using written address

/-- The sizes for which the shortcut moves each element where the loop puts it. -/
def Moves (build : Build) (N C IH IW OH OW : Nat) (crop : Int) : Prop :=
  ∀ n c h w, n < N → c < C → h < OH → w < OW →
    channelEntry build C (whole OH OW) n c h w < N * C * OH * OW ∧
      channelEntry build C (whole OH OW) n c h w =
        channelEntry build C (whole IH IW) n c (h - crop).toNat (w - crop).toNat

section Shortcut

variable {F : Type} [FloatType F] [FloatTrunc F]

/-- Between tensors of these sizes, the layer gives the channels what the loop of interpolate
would give them. -/
def ShortcutAgrees (build : Build) (impl : Impl) (N C IH IW OH OW : Nat) (src dst : Memory F) :
    Prop :=
  let CB := alignChannels C build.blockSize
  ∃ copied looped,
    execute build impl ⟨[N,C,IH,IW],src⟩ ⟨[N,C,OH,OW],dst⟩ (N * CB * IH * IW) (N * CB * OH * OW) =
      .ok copied ∧
    interpolateLoop build N C ⟨N * CB * IH * IW,src⟩ (impl.source IH IW) ⟨N * CB * OH * OW,dst⟩
      (whole OH OW) = .ok looped ∧
    ∀ n c h w, n < N → c < C → h < OH → w < OW →
      copied (channelEntry build C (whole OH OW) n c h w) =
        looped (channelEntry build C (whole OH OW) n c h w)

end Shortcut

/-- Sizes of tensors of which the second is what crops leave of the first. -/
structure Crops (impl : Impl) (N C IH IW OH OW : Nat) : Prop where
  images : 1 ≤ N
  channels : 1 ≤ C
  before : impl.padBeg ≤ 0
  after : impl.padEnd ≤ 0
  rows : (OH : Int) = IH + impl.padBeg + impl.padEnd
  columns : (OW : Int) = IW + impl.padBeg + impl.padEnd
  some_rows : 1 ≤ OH
  some_columns : 1 ≤ OW

section Agreement

variable {F : Type} [Field F] [LinearOrder F] [IsStrictOrderedRing F] [FloorRing F]
variable {build : Build} {impl : Impl} {N C IH IW OH OW : Nat}

private theorem Crops.inside (crops : Crops impl N C IH IW OH OW) : (impl.source IH IW).Inside where
  left := Int.neg_nonneg.mpr crops.before
  top := Int.neg_nonneg.mpr crops.before
  rows := by
    have rows := crops.rows
    have some := crops.some_rows
    unfold Impl.source
    dsimp only
    omega
  columns := by
    have columns := crops.columns
    have some := crops.some_columns
    unfold Impl.source
    dsimp only
    omega
  bottom := by
    have after := crops.after
    unfold Impl.source
    dsimp only
    omega
  right := by
    have after := crops.after
    unfold Impl.source
    dsimp only
    omega

private theorem looped_entry {n c h w : Nat} (crops : Crops impl N C IH IW OH OW) {src : Buffer F}
    (channel : c < C) (row : h < OH) (column : w < OW) :
    blendedAt build src (impl.source IH IW) (whole OH OW)
        ((C + build.blockSize - 1) / build.blockSize) OH OW
        (channelEntry build C (whole OH OW) n c h w) =
      src.data (channelEntry build C (whole IH IW) n c (h - impl.padBeg).toNat
        (w - impl.padBeg).toNat) := by
  have down : (impl.source IH IW).y + (h : Int) = h - impl.padBeg := by
    unfold Impl.source
    dsimp only
    omega
  have across : (impl.source IH IW).x + (w : Int) = w - impl.padBeg := by
    unfold Impl.source
    dsimp only
    omega
  unfold channelEntry
  rw [blendedAt_cell build (channel_block channel) row column (Nat.mod_lt c build.blockSize_pos),
    blended_same build crops.rows.symm crops.columns.symm row column,down,across]
  rfl

private theorem shortcut_moves (crops : Crops impl N C IH IW OH OW) (src dst : Memory F) :
    ShortcutAgrees build impl N C IH IW OH OW src dst ↔
      ∀ n c h w, n < N → c < C → h < OH → w < OW →
        (if channelEntry build C (whole OH OW) n c h w < N * C * OH * OW then
          src (channelEntry build C (whole OH OW) n c h w)
        else dst (channelEntry build C (whole OH OW) n c h w)) =
          src (channelEntry build C (whole IH IW) n c (h - impl.padBeg).toNat
            (w - impl.padBeg).toNat) := by
  have aligned : C ≤ alignChannels C build.blockSize := by
    rw [alignChannels_build]
    exact blocks_cover build.blockSize_pos C
  have smaller : OH ≤ IH ∧ OW ≤ IW := by
    have before := crops.before
    have after := crops.after
    have rows := crops.rows
    have columns := crops.columns
    omega
  have channels : N * C ≤ N * alignChannels C build.blockSize := Nat.mul_le_mul_left N aligned
  let input : Buffer F := ⟨N * alignChannels C build.blockSize * IH * IW,src⟩
  let output : Buffer F := ⟨N * alignChannels C build.blockSize * OH * OW,dst⟩
  have same : execute build impl ⟨[N,C,IH,IW],src⟩ ⟨[N,C,OH,OW],dst⟩ input.entries output.entries =
      copy (N * C * OH * OW) input output := if_pos ⟨crops.rows.symm,crops.columns.symm⟩
  have copied : copy (N * C * OH * OW) input output = _ :=
    copy_eq (Nat.mul_le_mul (Nat.mul_le_mul channels smaller.1) smaller.2)
      (Nat.mul_le_mul_right OW (Nat.mul_le_mul_right OH channels))
  have looped : interpolateLoop build N C input (impl.source IH IW) output (whole OH OW) = _ :=
    interpolateLoop_eq build output crops.inside (Nat.le_refl _) (Nat.le_refl _)
  have entries : ∀ {n c h w}, n < N → c < C → h < OH → w < OW →
      (if channelEntry build C (whole OH OW) n c h w < N * alignChannels C build.blockSize * OH * OW
        then blendedAt build input (impl.source IH IW) (whole OH OW)
          ((C + build.blockSize - 1) / build.blockSize) OH OW
          (channelEntry build C (whole OH OW) n c h w)
        else dst (channelEntry build C (whole OH OW) n c h w)) =
      src (channelEntry build C (whole IH IW) n c (h - impl.padBeg).toNat
        (w - impl.padBeg).toNat) := by
    intro n c h w image channel row column
    have within : channelEntry build C (whole OH OW) n c h w <
      N * alignChannels C build.blockSize * OH * OW := channelEntry_within image channel row column
    rw [if_pos within]
    exact looped_entry crops channel row column
  constructor
  · rintro ⟨after,other,run,loop,agree⟩ n c h w image channel row column
    rw [← entries image channel row column]
    rw [same,copied] at run
    rw [looped] at loop
    cases run
    cases loop
    exact agree n c h w image channel row column
  · intro moves
    refine ⟨_,_,same.trans copied,looped,?_⟩
    intro n c h w image channel row column
    exact (moves n c h w image channel row column).trans (entries image channel row column).symm

private theorem shortcut_agrees_moves (crops : Crops impl N C IH IW OH OW) :
    (∀ src dst : Memory F, ShortcutAgrees build impl N C IH IW OH OW src dst) ↔
      Moves build N C IH IW OH OW impl.padBeg := by
  constructor
  · intro agrees n c h w image channel row column
    have told := (shortcut_moves crops _ _).mp (agrees (fun i => ((i : Nat) : F)) fun _ => -1)
      n c h w image channel row column
    split at told
    · next low => exact ⟨low,Nat.cast_injective told⟩
    · have above : (0 : F) ≤ -1 := by
        rw [told]
        exact Nat.cast_nonneg _
      linarith
  · intro moves src dst
    apply (shortcut_moves crops src dst).mpr
    intro n c h w image channel row column
    obtain ⟨low,place⟩ := moves n c h w image channel row column
    rw [if_pos low,place]

end Agreement

section Sizes

variable {build : Build} {impl : Impl} {N C IH IW OH OW : Nat}

private theorem channelEntry_whole (n c y x : Nat) : channelEntry build C (whole OH OW) n c y x =
    (((n * ((C + build.blockSize - 1) / build.blockSize) + c / build.blockSize) * OH + y) * OW + x) *
      build.blockSize + c % build.blockSize := rfl

private theorem entries_low (fits : build.blockSize ∣ C ∨ N * OH * OW = 1) {n c h w : Nat}
    (image : n < N) (channel : c < C) (row : h < OH) (column : w < OW) :
    channelEntry build C (whole OH OW) n c h w < N * C * OH * OW := by
  rcases fits with divides | one
  · have fewer := (blocks_fit_iff build.blockSize_pos C).mpr divides
    rw [Nat.div_mul_cancel divides,← alignChannels_build] at fewer
    have within : channelEntry build C (whole OH OW) n c h w <
      N * alignChannels C build.blockSize * OH * OW := channelEntry_within image channel row column
    have total := Nat.mul_le_mul_right OW (Nat.mul_le_mul_right OH (Nat.mul_le_mul_left N fewer))
    omega
  · obtain rfl : OW = 1 := Nat.eq_one_of_mul_eq_one_left one
    rw [Nat.mul_one] at one
    obtain rfl : OH = 1 := Nat.eq_one_of_mul_eq_one_left one
    obtain rfl : N = 1 := by omega
    obtain rfl : n = 0 := by omega
    obtain rfl : h = 0 := by omega
    obtain rfl : w = 0 := by omega
    have split := Nat.div_add_mod' c build.blockSize
    rw [channelEntry_whole]
    simp only [Nat.zero_mul,Nat.zero_add,Nat.mul_one,Nat.add_zero,Nat.one_mul]
    omega

/-- The last channel of the last pixel lies among as many entries as there are elements only
where no block is padded, or where there is one pixel. -/
theorem last_entry_low (images : 1 ≤ N) (some : 1 ≤ C) (rows : 1 ≤ OH) (columns : 1 ≤ OW)
    (low : channelEntry build C (whole OH OW) (N - 1) (C - 1) (OH - 1) (OW - 1) < N * C * OH * OW) :
    build.blockSize ∣ C ∨ N * OH * OW = 1 := by
  by_contra neither
  rw [not_or] at neither
  obtain ⟨padded,several⟩ := neither
  obtain ⟨N,rfl⟩ : ∃ m, N = m + 1 := ⟨N - 1,by omega⟩
  obtain ⟨C,rfl⟩ : ∃ m, C = m + 1 := ⟨C - 1,by omega⟩
  obtain ⟨OH,rfl⟩ : ∃ m, OH = m + 1 := ⟨OH - 1,by omega⟩
  obtain ⟨OW,rfl⟩ : ∃ m, OW = m + 1 := ⟨OW - 1,by omega⟩
  have positive := build.blockSize_pos
  have split := Nat.div_add_mod' C build.blockSize
  have lane := Nat.mod_lt C positive
  have blocks : (C + 1 + build.blockSize - 1) / build.blockSize = C / build.blockSize + 1 := by
    rw [show C + 1 + build.blockSize - 1 = C + build.blockSize by omega,Nat.add_div_right C positive]
  have short : C % build.blockSize + 1 < build.blockSize := by
    by_contra full
    apply padded
    have last : C % build.blockSize + 1 = build.blockSize := by omega
    refine ⟨C / build.blockSize + 1,?_⟩
    calc C + 1 = C / build.blockSize * build.blockSize + (C % build.blockSize + 1) := by omega
      _ = build.blockSize * (C / build.blockSize + 1) := by rw [last]; ring
  rw [channelEntry_whole,blocks] at low
  simp only [Nat.add_sub_cancel] at low
  obtain ⟨free,room⟩ : ∃ free, build.blockSize = C % build.blockSize + 1 + (free + 1) :=
    ⟨build.blockSize - (C % build.blockSize + 2),by omega⟩
  have pixels : 2 ≤ (N + 1) * (OH + 1) * (OW + 1) := by
    have least : 0 < (N + 1) * (OH + 1) * (OW + 1) := by positivity
    omega
  generalize C / build.blockSize = block at *
  generalize C % build.blockSize = last at *
  rw [← split] at low
  have cells : (((N * (block + 1) + block) * (OH + 1) + OH) * (OW + 1) + OW) * build.blockSize +
      build.blockSize = (N + 1) * (OH + 1) * (OW + 1) * (block * build.blockSize) +
        (N + 1) * (OH + 1) * (OW + 1) * build.blockSize := by ring
  have elements : (N + 1) * (block * build.blockSize + last + 1) * (OH + 1) * (OW + 1) =
      (N + 1) * (OH + 1) * (OW + 1) * (block * build.blockSize) +
        (N + 1) * (OH + 1) * (OW + 1) * (last + 1) := by ring
  have padding : (N + 1) * (OH + 1) * (OW + 1) * build.blockSize =
      (N + 1) * (OH + 1) * (OW + 1) * (last + 1) + (N + 1) * (OH + 1) * (OW + 1) * (free + 1) := by
    rw [room,← Nat.mul_add]
  have twice := Nat.mul_le_mul_right (free + 1) pixels
  omega

private theorem moves_iff (crops : Crops impl N C IH IW OH OW) :
    Moves build N C IH IW OH OW impl.padBeg ↔
      impl.padBeg = 0 ∧ (build.blockSize ∣ C ∨ N * OH * OW = 1) ∧
        (impl.padEnd = 0 ∨ N = 1 ∧ C ≤ build.blockSize ∧ OH = 1) := by
  have positive := build.blockSize_pos
  have images := crops.images
  have channels := crops.channels
  have some_rows := crops.some_rows
  have some_columns := crops.some_columns
  have rows := crops.rows
  have columns := crops.columns
  constructor
  · intro moves
    have low : build.blockSize ∣ C ∨ N * OH * OW = 1 :=
      last_entry_low images channels some_rows some_columns
        (moves _ _ _ _ (by omega) (by omega) (by omega) (by omega)).1
    have origin := (moves 0 0 0 0 images channels some_rows some_columns).2
    have start : impl.padBeg = 0 := by
      have before := crops.before
      rw [channelEntry_whole,channelEntry_whole] at origin
      simp only [Nat.zero_mul,Nat.zero_div,Nat.zero_mod,Nat.add_zero,Nat.zero_add,
        Nat.cast_zero,Int.zero_sub] at origin
      rcases Nat.mul_eq_zero.mp origin.symm with cells | none
      · omega
      · omega
    refine ⟨start,low,?_⟩
    by_contra neither
    rw [not_or] at neither
    obtain ⟨cropped,large⟩ := neither
    have after := crops.after
    have wider : OW < IW := by omega
    have plane : OH * OW < IH * IW := Nat.mul_lt_mul_of_lt_of_le (by omega) wider.le (by omega)
    have place : ∀ n c h, n < N → c < C → h < OH →
        ((n * ((C + build.blockSize - 1) / build.blockSize) + c / build.blockSize) * OH + h) * OW =
        ((n * ((C + build.blockSize - 1) / build.blockSize) + c / build.blockSize) * IH + h) * IW := by
      intro n c h image channel row
      have same := (moves n c h 0 image channel row some_columns).2
      rw [channelEntry_whole,channelEntry_whole,start] at same
      simp only [Int.sub_zero,Int.toNat_natCast,Nat.cast_zero,Int.toNat_zero,Nat.add_zero] at same
      exact Nat.eq_of_mul_eq_mul_right positive (Nat.add_right_cancel same)
    have line : OH = 1 := by
      by_contra several
      have second := place 0 0 1 images channels (by omega)
      simp only [Nat.zero_mul,Nat.zero_div,Nat.zero_add,Nat.one_mul] at second
      omega
    have single : N = 1 := by
      by_contra several
      have second := place 1 0 0 (by omega) channels some_rows
      simp only [Nat.one_mul,Nat.zero_div,Nat.add_zero,Nat.mul_assoc] at second
      have cover := blocks_cover positive C
      have some : 0 < (C + build.blockSize - 1) / build.blockSize :=
        Nat.pos_of_mul_pos_right (Nat.lt_of_lt_of_le channels cover)
      have equal := Nat.eq_of_mul_eq_mul_left some second
      omega
    have block : C ≤ build.blockSize := by
      by_contra several
      have second := place 0 build.blockSize 0 images (by omega) some_rows
      simp only [Nat.zero_mul,Nat.div_self positive,Nat.zero_add,Nat.add_zero,Nat.one_mul] at second
      omega
    exact large ⟨single,block,line⟩
  · rintro ⟨start,low,ends⟩ n c h w image channel row column
    refine ⟨entries_low low image channel row column,?_⟩
    rw [start,Int.sub_zero,Int.sub_zero,Int.toNat_natCast,Int.toNat_natCast]
    rcases ends with uncropped | ⟨single,block,line⟩
    · obtain rfl : OH = IH := by omega
      obtain rfl : OW = IW := by omega
      rfl
    · obtain rfl : n = 0 := by omega
      obtain rfl : h = 0 := by omega
      have first : c / build.blockSize = 0 := Nat.div_eq_of_lt (by omega)
      rw [channelEntry_whole,channelEntry_whole,first]
      simp only [Nat.zero_mul,Nat.add_zero,Nat.zero_add]

end Sizes

section Exact

variable {F : Type} [Field F] [LinearOrder F] [IsStrictOrderedRing F] [FloorRing F]

/-- Between all tensors of these sizes the shortcut agrees with the loop, if and only if nothing
is cropped before, the last block is full or there is one pixel, and nothing is cropped after
unless there is one row of one block. -/
theorem shortcut_agrees_iff {build : Build} {impl : Impl} {N C IH IW OH OW : Nat}
    (crops : Crops impl N C IH IW OH OW) :
    (∀ src dst : Memory F, ShortcutAgrees build impl N C IH IW OH OW src dst) ↔
      impl.padBeg = 0 ∧ (build.blockSize ∣ C ∨ N * OH * OW = 1) ∧
        (impl.padEnd = 0 ∨ N = 1 ∧ C ≤ build.blockSize ∧ OH = 1) :=
  (shortcut_agrees_moves crops).trans (moves_iff crops)

end Exact

/-- A block of one row may be cropped after its columns, not before them. -/
theorem shortcut_agrees_iff_row :
    (∀ src dst : Memory Rat, ShortcutAgrees .avx2 ⟨0,-1⟩ 1 8 2 5 1 4 src dst) ∧
      ¬∀ src dst : Memory Rat, ShortcutAgrees .avx2 ⟨-1,0⟩ 1 8 2 5 1 4 src dst := by
  have last : Crops ⟨0,-1⟩ 1 8 2 5 1 4 := by constructor <;> decide
  have first : Crops ⟨-1,0⟩ 1 8 2 5 1 4 := by constructor <;> decide
  constructor
  · apply (shortcut_agrees_iff last).mpr
    decide
  · rw [shortcut_agrees_iff first]
    decide

/-- Three channels of two pixels: the copy of six entries does not reach the second pixel. -/
theorem shortcut_misses_padding : Crops ⟨0,0⟩ 1 3 1 2 1 2 ∧
    ¬ShortcutAgrees .plain ⟨0,0⟩ 1 3 1 2 1 2 (fun i => (i : Rat)) fun _ => -1 := by
  have crops : Crops ⟨0,0⟩ 1 3 1 2 1 2 := by constructor <;> decide
  refine ⟨crops,?_⟩
  intro agrees
  have second := (shortcut_moves crops _ _).mp agrees 0 0 0 1 (by decide) (by decide) (by decide)
    (by decide)
  have place : channelEntry .plain 3 (whole 1 2) 0 0 0 1 = 8 := by decide
  have source : channelEntry .plain 3 (whole 1 2) 0 0 (((0 : Nat) : Int) - 0).toNat
      (((1 : Nat) : Int) - 0).toNat = 8 := by decide
  rw [place,source,if_neg (by decide)] at second
  norm_num at second

end VideoAnalytics.Interp
