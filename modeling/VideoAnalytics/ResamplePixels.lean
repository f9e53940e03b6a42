import VideoAnalytics.Resample
import Mathlib.Tactic.IntervalCases
import Mathlib.Tactic.Ring

/-! Which pixels the loops of the Resample layer write and read. -/
namespace VideoAnalytics.Resample
open Loop Memory

variable {F : Type}

/-- Where the plane of a channel starts. -/
def plane (w h channels b c : Nat) : Nat := w * h * channels * b + w * h * c

private theorem plane_cell (w h channels b c : Nat) : plane w h channels b c = (b * channels + c) *
    (h * w) := by
  unfold plane
  ring

private theorem pixel_cell (w h channels b c i : Nat) :
    plane w h channels b c + i = b * (channels * (h * w)) + (c * (h * w) + i) := by
  rw [plane_cell]
  ring

private theorem plane_inj {w h channels b c i d e j : Nat} (inside : i < h * w) (within : j < h * w)
    (low : c < channels) (high : e < channels) :
    plane w h channels b c + i = plane w h channels d e + j ↔ b = d ∧ c = e ∧ i = j := by
  rw [plane_cell,plane_cell,cell_inj _ _ inside within,cell_inj _ _ low high,and_assoc]

section Flat

/-- The batch, the channel and the pixel with a number. -/
def batchOf (channels pixels n : Nat) : Nat := n / (channels * pixels)

def channelOf (channels pixels n : Nat) : Nat := n % (channels * pixels) / pixels

def pixelOf (channels pixels n : Nat) : Nat := n % (channels * pixels) % pixels

theorem plane_numbered (w h channels n : Nat) :
    plane w h channels (batchOf channels (h * w) n) (channelOf channels (h * w) n) +
      pixelOf channels (h * w) n = n := by
  have inner := Nat.div_add_mod' (n % (channels * (h * w))) (h * w)
  have outer := Nat.div_add_mod' n (channels * (h * w))
  rw [pixel_cell]
  unfold batchOf channelOf pixelOf
  rw [inner,outer]

theorem numbered_bounds {batch channels pixels n : Nat} (low : n < batch * (channels * pixels)) :
    batchOf channels pixels n < batch ∧ channelOf channels pixels n < channels ∧
      pixelOf channels pixels n < pixels := by
  have some : 0 < channels * pixels := by
    rcases Nat.eq_zero_or_pos (channels * pixels) with none | some
    · rw [none,Nat.mul_zero] at low
      exact absurd low (Nat.not_lt_zero n)
    · exact some
  have pixel : 0 < pixels := Nat.pos_of_ne_zero (Nat.ne_zero_of_mul_ne_zero_right some.ne')
  refine ⟨?_,?_,Nat.mod_lt _ pixel⟩
  · exact Nat.div_lt_of_lt_mul (by rwa [Nat.mul_comm])
  · exact Nat.div_lt_of_lt_mul (by rw [Nat.mul_comm pixels]; exact Nat.mod_lt _ some)

private theorem numbered_plane {channels pixels c i : Nat} (b : Nat) (low : c < channels)
    (inside : i < pixels) :
    batchOf channels pixels (b * (channels * pixels) + (c * pixels + i)) = b ∧
      channelOf channels pixels (b * (channels * pixels) + (c * pixels + i)) = c ∧
      pixelOf channels pixels (b * (channels * pixels) + (c * pixels + i)) = i := by
  have within := cell_within low inside
  unfold batchOf channelOf pixelOf
  rw [cell_row b within,cell_col b within,cell_row c inside,cell_col c inside]
  exact ⟨rfl,rfl,rfl⟩

end Flat

section Pixels

variable (iw ih ow oh channels batch : Nat) (pixel : Nat → Nat → Nat → F × List Nat)

def pixelAt (n : Nat) : F × List Nat :=
  let i := pixelOf channels (oh * ow) n
  pixel (plane iw ih channels (batchOf channels (oh * ow) n) (channelOf channels (oh * ow) n))
    (i / ow) (i % ow)

theorem forPixels_flat (canvas : Canvas F) :
    forPixels iw ih ow oh channels batch pixel canvas =
      forLoop (batch * (channels * (oh * ow))) (fun n canvas =>
        ⟨canvas.dst.write n (pixelAt iw ih ow oh channels pixel n).1,
          canvas.reads ++ (pixelAt iw ih ow oh channels pixel n).2.map fun address =>
            (plane iw ih channels (batchOf channels (oh * ow) n) (channelOf channels (oh * ow) n),
              address)⟩) canvas := by
  unfold forPixels
  refine (forLoop_blocks batch channels oh ow _ canvas).trans ?_
  apply forLoop_congr
  intro n state _
  have numbered := plane_numbered ow oh channels n
  have pixels := Nat.div_add_mod' (pixelOf channels (oh * ow) n) ow
  rw [← pixels] at numbered
  exact congrArg (fun address => (⟨state.dst.write address _,_⟩ : Canvas F)) numbered

theorem pixelAt_cell {c oy ox : Nat} (b : Nat) (channel : c < channels) (row : oy < oh)
    (column : ox < ow) :
    pixelAt iw ih ow oh channels pixel (plane ow oh channels b c + (oy * ow + ox)) =
      pixel (plane iw ih channels b c) oy ox := by
  obtain ⟨batched,channeled,placed⟩ := numbered_plane b channel (cell_within row column)
  unfold pixelAt
  rw [pixel_cell,batched,channeled,placed]
  dsimp only
  rw [cell_row oy column,cell_col oy column]

private theorem pixel_low {b c oy ox : Nat} (image : b < batch) (channel : c < channels)
    (row : oy < oh) (column : ox < ow) :
    plane ow oh channels b c + (oy * ow + ox) < batch * (channels * (oh * ow)) := by
  rw [pixel_cell]
  exact cell_within image (cell_within channel (cell_within row column))

theorem forPixels_dst (canvas : Canvas F) {b c oy ox : Nat} (image : b < batch)
    (channel : c < channels) (row : oy < oh) (column : ox < ow) :
    (forPixels iw ih ow oh channels batch pixel canvas).dst
      (plane ow oh channels b c + (oy * ow + ox)) = (pixel (plane iw ih channels b c) oy ox).1 := by
  have low := pixel_low ow oh channels batch image channel row column
  have writes := forLoop_write 0 (batch * (channels * (oh * ow)))
    (fun n => (pixelAt iw ih ow oh channels pixel n).1) canvas.dst
    (plane ow oh channels b c + (oy * ow + ox))
  simp only [Nat.zero_add,Nat.zero_le,true_and,Nat.sub_zero,low,if_true] at writes
  rw [forPixels_flat,forLoop_map Canvas.dst _ _ fun n dst =>
    dst.write n (pixelAt iw ih ow oh channels pixel n).1]
  · rw [writes,pixelAt_cell iw ih ow oh channels pixel b channel row column]
  · intro n canvas
    rfl

theorem mem_forPixels_reads (canvas : Canvas F) (read : Nat × Nat) :
    read ∈ (forPixels iw ih ow oh channels batch pixel canvas).reads ↔ read ∈ canvas.reads ∨
      ∃ b c oy ox, b < batch ∧ c < channels ∧ oy < oh ∧ ox < ow ∧
        read.1 = plane iw ih channels b c ∧ read.2 ∈ (pixel read.1 oy ox).2 := by
  rw [forPixels_flat,forLoop_map Canvas.reads _ _ fun n reads => reads ++
    (pixelAt iw ih ow oh channels pixel n).2.map fun address =>
      (plane iw ih channels (batchOf channels (oh * ow) n) (channelOf channels (oh * ow) n),address)]
  · rw [forLoop_append,List.mem_append,List.mem_flatMap]
    apply or_congr_right
    constructor
    · intro inside
      obtain ⟨n,low,inside⟩ := inside
      obtain ⟨address,fetched,rfl⟩ := List.mem_map.mp inside
      obtain ⟨image,channel,placed⟩ := numbered_bounds (List.mem_range.mp low)
      have wide : 0 < ow := Nat.pos_of_ne_zero (by rintro rfl; simp at placed)
      refine ⟨_,_,_,_,image,channel,?_,Nat.mod_lt _ wide,rfl,fetched⟩
      exact Nat.div_lt_of_lt_mul (placed.trans_eq (Nat.mul_comm oh ow))
    · intro inside
      obtain ⟨b,c,oy,ox,image,channel,row,column,start,fetched⟩ := inside
      have low := pixel_low ow oh channels batch image channel row column
      obtain ⟨batched,channeled,-⟩ := numbered_plane b channel (cell_within row column)
      refine ⟨_,List.mem_range.mpr low,?_⟩
      rw [pixelAt_cell iw ih ow oh channels pixel b channel row column,pixel_cell ow oh,batched,
        channeled,← start]
      exact List.mem_map.mpr ⟨read.2,fetched,rfl⟩
  · intro n canvas
    rfl

end Pixels

section Channels

def ConstantChannel (src : Memory F) (iw ih channels b c : Nat) (v : F) : Prop :=
  ∀ i, i < ih * iw → src (plane iw ih channels b c + i) = v

def KeepsConstant (dst : Memory F) (ow oh channels b c : Nat) (v : F) : Prop :=
  ∀ oy ox, oy < oh → ox < ow → dst (plane ow oh channels b c + (oy * ow + ox)) = v

/-- A read through the pointer to a plane is within the plane. -/
def WithinPlane (iw ih : Nat) (read : Nat × Nat) : Prop :=
  read.1 ≤ read.2 ∧ read.2 < read.1 + ih * iw

section Upsample

variable (src : Memory F) (iw ow inPtr outPtr iy ix : Nat) (canvas : Canvas F)

private theorem upsamplePixel_written {y x : Nat} (row : y < 2) (column : x < 2) :
    (upsamplePixel src iw ow inPtr outPtr iy ix canvas).dst
      (outPtr + ((2 * iy + y) * ow + (2 * ix + x))) = src (inPtr + (iy * iw + ix)) := by
  unfold upsamplePixel write
  simp only [Function.update_apply]
  interval_cases y
  · interval_cases x
    · split_ifs <;> first | rfl | omega
    · split_ifs <;> first | rfl | omega
  · interval_cases x
    · split_ifs <;> first | rfl | omega
    · split_ifs <;> first | rfl | omega

private theorem upsamplePixel_other (address : Nat) :
    (upsamplePixel src iw ow inPtr outPtr iy ix canvas).dst address = canvas.dst address ∨
      ((upsamplePixel src iw ow inPtr outPtr iy ix canvas).dst address =
          src (inPtr + (iy * iw + ix)) ∧
        ∃ y x, y < 2 ∧ x < 2 ∧ address = outPtr + ((2 * iy + y) * ow + (2 * ix + x))) := by
  unfold upsamplePixel write
  simp only [Function.update_apply]
  split_ifs with last third second first
  · exact .inr ⟨rfl,1,1,by decide,by decide,by omega⟩
  · exact .inr ⟨rfl,1,0,by decide,by decide,by omega⟩
  · exact .inr ⟨rfl,0,1,by decide,by decide,by omega⟩
  · exact .inr ⟨rfl,0,0,by decide,by decide,by omega⟩
  · exact .inl rfl

end Upsample

private theorem Upsample2x_Nearest_flat (src : Memory F) (iw ih ow oh channels batch : Nat)
    (canvas : Canvas F) :
    Upsample2x_Nearest src iw ih ow oh channels batch canvas =
      forLoop (batch * (channels * (ih * iw))) (fun n =>
        upsamplePixel src iw ow
          (plane iw ih channels (batchOf channels (ih * iw) n) (channelOf channels (ih * iw) n))
          (plane ow oh channels (batchOf channels (ih * iw) n) (channelOf channels (ih * iw) n))
          (pixelOf channels (ih * iw) n / iw) (pixelOf channels (ih * iw) n % iw)) canvas := by
  unfold Upsample2x_Nearest
  exact forLoop_blocks batch channels ih iw (fun b c iy ix => upsamplePixel src iw ow
    (plane iw ih channels b c) (plane ow oh channels b c) iy ix) canvas

/-- One pass over a pixel either leaves a pixel of the output as it was, which then is not
one of its own four, or writes the constant there. -/
theorem upsamplePixel_constant {src : Memory F} {iw ih channels b c d e iy ix oy ox : Nat} {v : F}
    (canvas : Canvas F) (channel : c < channels) (row : oy < 2 * ih) (column : ox < 2 * iw)
    (constant : ConstantChannel src iw ih channels b c v) (within : e < channels) (low : iy < ih)
    (inside : ix < iw) :
    let after := upsamplePixel src iw (2 * iw) (plane iw ih channels d e)
      (plane (2 * iw) (2 * ih) channels d e) iy ix canvas
    let address := plane (2 * iw) (2 * ih) channels b c + (oy * (2 * iw) + ox)
    after.dst address = v ∨ (after.dst address = canvas.dst address ∧
      ¬(d = b ∧ e = c ∧ iy = oy / 2 ∧ ix = ox / 2)) := by
  intro after address
  have value := constant _ (cell_within low inside)
  by_cases here : d = b ∧ e = c ∧ iy = oy / 2 ∧ ix = ox / 2
  · obtain ⟨rfl,rfl,rfl,rfl⟩ := here
    have written := upsamplePixel_written src iw (2 * iw) (plane iw ih channels d e)
      (plane (2 * iw) (2 * ih) channels d e) (oy / 2) (ox / 2) canvas
      (Nat.mod_lt oy Nat.two_pos) (Nat.mod_lt ox Nat.two_pos)
    rw [Nat.div_add_mod,Nat.div_add_mod,value] at written
    exact .inl written
  · rcases upsamplePixel_other src iw (2 * iw) (plane iw ih channels d e)
      (plane (2 * iw) (2 * ih) channels d e) iy ix canvas address with kept | ⟨written,found⟩
    · exact .inr ⟨kept,here⟩
    · obtain ⟨y,x,down,right,same⟩ := found
      obtain ⟨rfl,rfl,-⟩ := (plane_inj (cell_within row column)
        (cell_within (show 2 * iy + y < 2 * ih by omega) (show 2 * ix + x < 2 * iw by omega))
        channel within).mp same
      exact .inl (written.trans value)

/-- Doubled in both directions, a constant channel stays constant. -/
theorem Upsample2x_Nearest_constant {src : Memory F} {iw ih channels batch b c : Nat} {v : F}
    (canvas : Canvas F) (image : b < batch) (channel : c < channels)
    (constant : ConstantChannel src iw ih channels b c v) :
    KeepsConstant (Upsample2x_Nearest src iw ih (2 * iw) (2 * ih) channels batch canvas).dst
      (2 * iw) (2 * ih) channels b c v := by
  intro oy ox row column
  have inside : oy / 2 * iw + ox / 2 < ih * iw := cell_within (by omega) (by omega)
  have target : b * (channels * (ih * iw)) + (c * (ih * iw) + (oy / 2 * iw + ox / 2)) <
      batch * (channels * (ih * iw)) := cell_within image (cell_within channel inside)
  have filled := @forLoop_induct _ (batch * (channels * (ih * iw)))
    (fun n => upsamplePixel src iw (2 * iw)
      (plane iw ih channels (batchOf channels (ih * iw) n) (channelOf channels (ih * iw) n))
      (plane (2 * iw) (2 * ih) channels (batchOf channels (ih * iw) n)
        (channelOf channels (ih * iw) n))
      (pixelOf channels (ih * iw) n / iw) (pixelOf channels (ih * iw) n % iw))
    (fun n state =>
      b * (channels * (ih * iw)) + (c * (ih * iw) + (oy / 2 * iw + ox / 2)) < n →
        state.dst (plane (2 * iw) (2 * ih) channels b c + (oy * (2 * iw) + ox)) = v)
    canvas (fun low => absurd low (Nat.not_lt_zero _)) (by
      intro n state low before reached
      obtain ⟨-,within,placed⟩ := numbered_bounds low
      have high : pixelOf channels (ih * iw) n / iw < ih :=
        Nat.div_lt_of_lt_mul (placed.trans_eq (Nat.mul_comm ih iw))
      rcases upsamplePixel_constant state channel row column constant within high
        (Nat.mod_lt _ (by omega)) with done | ⟨kept,elsewhere⟩
      · exact done
      · refine kept.trans (before (lt_of_le_of_ne (Nat.le_of_lt_succ reached) ?_))
        rintro rfl
        obtain ⟨batched,channeled,pixel⟩ := numbered_plane b channel inside
        apply elsewhere
        rw [pixel,cell_row _ (by omega),cell_col _ (by omega)]
        exact ⟨batched,channeled,rfl,rfl⟩)
  rw [Upsample2x_Nearest_flat]
  exact filled target

theorem Upsample2x_Nearest_reads (src : Memory F) (iw ih ow oh channels batch : Nat)
    (canvas : Canvas F) (before : ∀ read ∈ canvas.reads, WithinPlane iw ih read) :
    ∀ read ∈ (Upsample2x_Nearest src iw ih ow oh channels batch canvas).reads,
      WithinPlane iw ih read := by
  rw [Upsample2x_Nearest_flat]
  apply forLoop_induct fun n (state : Canvas F) => ∀ read ∈ state.reads, WithinPlane iw ih read
  · exact before
  · intro n state low earlier read inside
    obtain ⟨-,-,placed⟩ := numbered_bounds low
    have pixels := Nat.div_add_mod' (pixelOf channels (ih * iw) n) iw
    rcases List.mem_append.mp inside with old | new
    · exact earlier read old
    · obtain rfl := List.mem_singleton.mp new
      rw [pixels]
      exact ⟨Nat.le_add_right _ _,Nat.add_lt_add_left placed _⟩

private theorem copyBlob_dst (src : Memory F) (count size : Nat) (canvas : Canvas F) {i : Nat}
    (low : i < count) : (copyBlob src count size canvas).dst i = src i := by
  have writes := forLoop_write 0 count src canvas.dst i
  simp only [Nat.zero_add,Nat.zero_le,true_and,Nat.sub_zero,low,if_true] at writes
  unfold copyBlob
  rw [forLoop_map Canvas.dst _ _ fun i dst => dst.write i (src i)]
  · exact writes
  · intro i canvas
    rfl

theorem copyBlob_reads (src : Memory F) {iw ih : Nat} (count : Nat) (canvas : Canvas F)
    (some : 0 < ih * iw) (before : ∀ read ∈ canvas.reads, WithinPlane iw ih read) :
    ∀ read ∈ (copyBlob src count (ih * iw) canvas).reads, WithinPlane iw ih read := by
  apply forLoop_induct fun n (state : Canvas F) => ∀ read ∈ state.reads, WithinPlane iw ih read
  · exact before
  · intro n state _ earlier read inside
    rcases List.mem_append.mp inside with old | new
    · exact earlier read old
    · obtain rfl := List.mem_singleton.mp new
      have placed := Nat.div_add_mod' n (ih * iw)
      have within := Nat.mod_lt n some
      constructor
      · exact Nat.div_mul_le_self n (ih * iw)
      · dsimp only
        omega

theorem copyBlob_constant {src : Memory F} {iw ih channels batch b c : Nat} {v : F}
    (canvas : Canvas F) (image : b < batch) (channel : c < channels)
    (constant : ConstantChannel src iw ih channels b c v) :
    KeepsConstant (copyBlob src (batch * channels * ih * iw) (ih * iw) canvas).dst
      iw ih channels b c v := by
  intro oy ox row column
  have low := pixel_low iw ih channels batch image channel row column
  rw [copyBlob_dst src _ _ canvas (by rwa [Nat.mul_assoc,Nat.mul_assoc])]
  exact constant _ (cell_within row column)

end Channels

end VideoAnalytics.Resample
