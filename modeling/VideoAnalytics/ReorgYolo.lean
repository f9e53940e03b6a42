import VideoAnalytics.ExtLayer
import Mathlib.Data.Set.Finite.Basic
import Mathlib.Order.Interval.Finset.Nat

/-! The ReorgYolo layer of the CPU extension, which copies each element of its input to
one place of its output. -/
namespace VideoAnalytics.ReorgYolo
open Loop Memory

structure Impl where
  stride : Nat

def dstIndex (IC IH IW b ic ih iw : Nat) : Nat := b * IC * IH * IW + ic * IH * IW + ih * IW + iw

def srcIndex (stride IC IH IW b ic ih iw : Nat) : Nat :=
  let icOff := IC / (stride * stride)
  let ihOff := IH * stride
  let iwOff := IW * stride
  let oc := ic % icOff
  let offset := ic / icOff
  let ow := iw * stride + offset % stride
  let oh := ih * stride + offset / stride
  b * icOff * ihOff * iwOff + oc * ihOff * iwOff + oh * iwOff + ow

def execute {F : Type} (impl : Impl) (src dst : ExtBlob F) : Memory F :=
  let IW := src.dims.getD 3 1
  let IH := src.dims.getD 2 1
  let IC := src.dims.getD 1 1
  let B := src.dims.getD 0 1
  forLoop B (fun b => forLoop IC fun ic => forLoop IH fun ih => forLoop IW fun iw dstData =>
    dstData.write (dstIndex IC IH IW b ic ih iw)
      (src.data (srcIndex impl.stride IC IH IW b ic ih iw))) dst.data

/-- The source of an element of the output, by its index. -/
def sourceOf (stride IC IH IW n : Nat) : Nat :=
  srcIndex stride IC IH IW (n / (IC * (IH * IW))) (n % (IC * (IH * IW)) / (IH * IW))
    (n % (IC * (IH * IW)) % (IH * IW) / IW) (n % (IC * (IH * IW)) % (IH * IW) % IW)

section Indices

variable {stride IC IH IW b ic ih iw : Nat}

private theorem dstIndex_cell : dstIndex IC IH IW b ic ih iw =
    b * (IC * (IH * IW)) + (ic * (IH * IW) + (ih * IW + iw)) := by
  unfold dstIndex
  ring

/-- A source index by its image, channel, row and column in the rearranged input. -/
theorem srcIndex_cell : srcIndex stride IC IH IW b ic ih iw =
    ((b * (IC / (stride * stride)) + ic % (IC / (stride * stride))) * (IH * stride) +
      (ih * stride + ic / (IC / (stride * stride)) / stride)) * (IW * stride) +
        (iw * stride + ic / (IC / (stride * stride)) % stride) := by
  unfold srcIndex
  ring

private theorem sourceOf_dstIndex (channel : ic < IC) (row : ih < IH) (column : iw < IW) :
    sourceOf stride IC IH IW (dstIndex IC IH IW b ic ih iw) = srcIndex stride IC IH IW b ic ih iw := by
  have pixel := cell_within row column
  have plane := cell_within channel pixel
  unfold sourceOf
  rw [dstIndex_cell,cell_row b plane,cell_col b plane,cell_row ic pixel,cell_col ic pixel,
    cell_row ih column,cell_col ih column]

private theorem dstIndex_of {B n : Nat} (low : n < B * (IC * (IH * IW))) :
    ∃ b ic ih iw, b < B ∧ ic < IC ∧ ih < IH ∧ iw < IW ∧ n = dstIndex IC IH IW b ic ih iw := by
  have some : 0 < IC * (IH * IW) := Nat.pos_of_lt_mul_left low
  have pixels : 0 < IH * IW := Nat.pos_of_mul_pos_left some
  have columns : 0 < IW := Nat.pos_of_mul_pos_left pixels
  refine ⟨n / (IC * (IH * IW)),n % (IC * (IH * IW)) / (IH * IW),
    n % (IC * (IH * IW)) % (IH * IW) / IW,n % (IC * (IH * IW)) % (IH * IW) % IW,?_,?_,?_,
    Nat.mod_lt _ columns,?_⟩
  · exact Nat.div_lt_of_lt_mul (by rwa [Nat.mul_comm])
  · exact Nat.div_lt_of_lt_mul (by rw [Nat.mul_comm _ IC]; exact Nat.mod_lt n some)
  · exact Nat.div_lt_of_lt_mul (by rw [Nat.mul_comm IW]; exact Nat.mod_lt _ pixels)
  · rw [dstIndex_cell,Nat.div_add_mod',Nat.div_add_mod',Nat.div_add_mod']

variable (divides : stride * stride ∣ IC)
include divides

private theorem offset_lt (channel : ic < IC) : ic / (IC / (stride * stride)) < stride * stride :=
  Nat.div_lt_of_lt_mul (by rwa [Nat.div_mul_cancel divides])

omit divides in
private theorem channels_pos (divides : stride * stride ∣ IC) (channel : ic < IC) :
    0 < IC / (stride * stride) ∧ 0 < stride := by
  have whole : 0 < IC / (stride * stride) * (stride * stride) := by
    rw [Nat.div_mul_cancel divides]
    omega
  exact ⟨Nat.pos_of_mul_pos_right whole,Nat.pos_of_mul_pos_left (Nat.pos_of_mul_pos_left whole)⟩

private theorem srcIndex_lt {B : Nat} (image : b < B) (channel : ic < IC) (row : ih < IH)
    (column : iw < IW) : srcIndex stride IC IH IW b ic ih iw < B * (IC * (IH * IW)) := by
  obtain ⟨some,steps⟩ := channels_pos divides channel
  have placed := cell_within (cell_within (cell_within image (Nat.mod_lt ic some))
    (cell_within row (Nat.div_lt_of_lt_mul (offset_lt divides channel))))
    (cell_within column (Nat.mod_lt (ic / (IC / (stride * stride))) steps))
  rw [srcIndex_cell]
  refine placed.trans_eq ?_
  calc B * (IC / (stride * stride)) * (IH * stride) * (IW * stride) =
        B * (IC / (stride * stride) * (stride * stride) * (IH * IW)) := by ring
    _ = B * (IC * (IH * IW)) := by rw [Nat.div_mul_cancel divides]

/-- Image, channel, row and column are all found again in a source index. -/
theorem srcIndex_inj {b' ic' ih' iw' : Nat} (channel : ic < IC) (row : ih < IH) (column : iw < IW)
    (channel' : ic' < IC) (row' : ih' < IH) (column' : iw' < IW)
    (same : srcIndex stride IC IH IW b ic ih iw = srcIndex stride IC IH IW b' ic' ih' iw') :
    b = b' ∧ ic = ic' ∧ ih = ih' ∧ iw = iw' := by
  obtain ⟨some,steps⟩ := channels_pos divides channel
  have down := Nat.div_lt_of_lt_mul (offset_lt divides channel)
  have down' := Nat.div_lt_of_lt_mul (offset_lt divides channel')
  have across := Nat.mod_lt (ic / (IC / (stride * stride))) steps
  have across' := Nat.mod_lt (ic' / (IC / (stride * stride))) steps
  rw [srcIndex_cell,srcIndex_cell,cell_inj _ _ (cell_within column across)
    (cell_within column' across'),cell_inj _ _ (cell_within row down) (cell_within row' down'),
    cell_inj _ _ (Nat.mod_lt _ some) (Nat.mod_lt _ some),cell_inj _ _ down down',
    cell_inj _ _ across across'] at same
  obtain ⟨⟨⟨images,channels⟩,rows,quotients⟩,columns,remainders⟩ := same
  have offsets : ic / (IC / (stride * stride)) = ic' / (IC / (stride * stride)) := by
    rw [← Nat.div_add_mod' (ic / (IC / (stride * stride))) stride,quotients,remainders,
      Nat.div_add_mod']
  refine ⟨images,?_,rows,columns⟩
  rw [← Nat.div_add_mod' ic (IC / (stride * stride)),offsets,channels,Nat.div_add_mod']

end Indices

private theorem sourceOf_bijective {stride IC : Nat} (divides : stride * stride ∣ IC)
    (B IH IW : Nat) : Set.BijOn (sourceOf stride IC IH IW) (Set.Iio (B * (IC * (IH * IW))))
      (Set.Iio (B * (IC * (IH * IW)))) := by
  have within : Set.MapsTo (sourceOf stride IC IH IW) (Set.Iio (B * (IC * (IH * IW))))
      (Set.Iio (B * (IC * (IH * IW)))) := by
    intro n low
    obtain ⟨b,ic,ih,iw,image,channel,row,column,rfl⟩ := dstIndex_of low
    rw [sourceOf_dstIndex channel row column]
    exact srcIndex_lt divides image channel row column
  apply (Set.Finite.injOn_iff_bijOn_of_mapsTo (Set.finite_Iio _) within).mp
  intro n low m small same
  obtain ⟨b,ic,ih,iw,-,channel,row,column,rfl⟩ := dstIndex_of low
  obtain ⟨b',ic',ih',iw',-,channel',row',column',rfl⟩ := dstIndex_of small
  rw [sourceOf_dstIndex channel row column,sourceOf_dstIndex channel' row' column'] at same
  obtain ⟨rfl,rfl,rfl,rfl⟩ := srcIndex_inj divides channel row column channel' row' column' same
  rfl

section Execute

variable {F : Type} (impl : Impl) (src dst : ExtBlob F)

private theorem execute_apply (address : Nat) :
    let IW := src.dims.getD 3 1
    let IH := src.dims.getD 2 1
    let IC := src.dims.getD 1 1
    execute impl src dst address =
      if address < src.dims.getD 0 1 * (IC * (IH * IW)) then
        src.data (sourceOf impl.stride IC IH IW address)
      else dst.data address := by
  intro IW IH IC
  have written := forLoop_write 0 (src.dims.getD 0 1 * (IC * (IH * IW)))
    (fun n => src.data (sourceOf impl.stride IC IH IW n)) dst.data address
  simp only [Nat.zero_add,Nat.zero_le,true_and,Nat.sub_zero] at written
  rw [← written]
  apply congrFun
  refine (forLoop_blocks (src.dims.getD 0 1) IC IH IW _ dst.data).trans ?_
  apply forLoop_congr
  intro n memory low
  have place : dstIndex IC IH IW (n / (IC * (IH * IW))) (n % (IC * (IH * IW)) / (IH * IW))
      (n % (IC * (IH * IW)) % (IH * IW) / IW) (n % (IC * (IH * IW)) % (IH * IW) % IW) = n := by
    rw [dstIndex_cell,Nat.div_add_mod',Nat.div_add_mod',Nat.div_add_mod']
  rw [place]
  rfl

end Execute

/-- Each element of the input is copied to exactly one element of the output, where its
index is that of the source. -/
theorem execute_moves {F : Type} (impl : Impl) (src dst : ExtBlob F)
    (divides : impl.stride * impl.stride ∣ src.dims.getD 1 1) :
    let IW := src.dims.getD 3 1
    let IH := src.dims.getD 2 1
    let IC := src.dims.getD 1 1
    let B := src.dims.getD 0 1
    (∀ b ic ih iw, b < B → ic < IC → ih < IH → iw < IW →
      sourceOf impl.stride IC IH IW (dstIndex IC IH IW b ic ih iw) =
        srcIndex impl.stride IC IH IW b ic ih iw) ∧
    Set.BijOn (sourceOf impl.stride IC IH IW) (Set.Iio (B * IC * IH * IW))
      (Set.Iio (B * IC * IH * IW)) ∧
    ∀ address, execute impl src dst address =
      if address < B * IC * IH * IW then src.data (sourceOf impl.stride IC IH IW address)
      else dst.data address := by
  intro IW IH IC B
  have total : B * IC * IH * IW = B * (IC * (IH * IW)) := by ring
  rw [total]
  refine ⟨?_,sourceOf_bijective divides B IH IW,execute_apply impl src dst⟩
  intro b ic ih iw _ channel row column
  exact sourceOf_dstIndex channel row column

def twelve : ExtBlob Nat := ⟨[1,4,1,3],id⟩

theorem execute_moves_twelve : Set.BijOn (sourceOf 2 4 1 3) (Set.Iio 12) (Set.Iio 12) ∧
    (List.range 13).map (execute ⟨2⟩ twelve twelve) = [0,2,4,1,3,5,6,8,10,7,9,11,12] :=
  ⟨(execute_moves ⟨2⟩ twelve twelve (by decide)).2.1,by decide⟩

end VideoAnalytics.ReorgYolo
