import VideoAnalytics.ResampleConstant
import VideoAnalytics.Library.Stores

/-! The paths of the Resample layer for doubled and for fourfold sizes, by the stores and the
reads that they make in order, and the kernel that they stand in for, in exact arithmetic. -/
namespace VideoAnalytics.Resample
open Loop Memory Rounding

variable {F : Type}

structure Trace (F : Type) where
  stores : List (Nat × F)
  reads : List (Nat × Nat)

/-- How a run ends that has used up its fuel. -/
inductive Unfinished
  | outOfFuel
  deriving DecidableEq, Repr

namespace Trace

def append (first second : Trace F) : Trace F :=
  ⟨first.stores ++ second.stores,first.reads ++ second.reads⟩

def run (trace : Trace F) (canvas : Canvas F) : Canvas F :=
  ⟨canvas.dst.writeAll trace.stores,canvas.reads ++ trace.reads⟩

def joined (count : Nat) (pieces : Nat → Trace F) : Trace F :=
  ⟨(List.range count).flatMap fun i => (pieces i).stores,
    (List.range count).flatMap fun i => (pieces i).reads⟩

end Trace

/-- The comparison with size - block in size_t. Below zero this wraps, and is exceeded by no
position in steps of the block. -/
def upTo (size block position : Nat) : Bool := decide (size < block) || decide (position ≤ size - block)

/-- What a pass of Upsample2x_Nearest stores and reads. -/
def doubledPixel (src : Memory F) (iw ow inPtr outPtr iy ix : Nat) : Trace F :=
  let oy := 2 * iy
  let ox := 2 * ix
  let value := src (inPtr + (iy * iw + ix))
  ⟨[(outPtr + ((oy + 0) * ow + ox + 0),value),(outPtr + ((oy + 0) * ow + ox + 1),value),
      (outPtr + ((oy + 1) * ow + ox + 0),value),(outPtr + ((oy + 1) * ow + ox + 1),value)],
    [(inPtr,inPtr + (iy * iw + ix))]⟩

def Upsample2x_NearestTrace (src : Memory F) (iw ih ow oh channels batch : Nat) : Trace F :=
  forLoop batch (fun b => forLoop channels fun c =>
    let inPtr := iw * ih * channels * b + iw * ih * c
    let outPtr := ow * oh * channels * b + ow * oh * c
    forLoop ih fun iy => forLoop iw fun ix trace =>
      trace.append (doubledPixel src iw ow inPtr outPtr iy ix)) ⟨[],[]⟩

section Fourfold

variable [FloatType F] [FloatMath F]

/-- One element for four lanes. -/
def fourfoldPixel (src : Memory F) (iw : Nat) (fx fy : F) (ow inPtr outPtr oy ox : Nat) : Trace F :=
  let ixR := (FloatMath.round (samplePosition fx fy ox)).toNat
  let iyR := (FloatMath.round (samplePosition fy fx oy)).toNat
  let address := inPtr + (iyR * iw + ixR)
  let vsrc := src address
  ⟨(List.range 4).map fun lane => (outPtr + (oy * ow + ox) + lane,vsrc),[(inPtr,address)]⟩

def Upsample4x_Nearest (fuel : Nat) (src : Memory F) (iw ih : Nat) (fx fy : F)
    (ow oh channels batch : Nat) : Except Unfinished (Trace F) :=
  tryLoop batch (fun b => tryLoop channels fun c =>
    let inPtr := iw * ih * channels * b + iw * ih * c
    let outPtr := ow * oh * channels * b + ow * oh * c
    tryLoop oh fun oy trace => do
      let row ← stepLoop .outOfFuel (upTo ow 4) 4 (fun ox (trace : Trace F) =>
        .ok (trace.append (fourfoldPixel src iw fx fy ow inPtr outPtr oy ox))) fuel 0 trace
      return row.2) ⟨[],[]⟩

end Fourfold

namespace Trace

variable {count : Nat} {pieces : Nat → Trace F}

private theorem forLoop_joined (count : Nat) (pieces : Nat → Trace F) :
    forLoop count (fun i (trace : Trace F) => trace.append (pieces i)) =
      fun trace => trace.append (joined count pieces) := by
  ext1 trace
  have stores := forLoop_map Trace.stores count (fun i (trace : Trace F) => trace.append (pieces i))
    (fun i stores => stores ++ (pieces i).stores) trace fun i trace => rfl
  have reads := forLoop_map Trace.reads count (fun i (trace : Trace F) => trace.append (pieces i))
    (fun i reads => reads ++ (pieces i).reads) trace fun i trace => rfl
  rw [forLoop_append] at stores reads
  calc _ = (⟨(forLoop count (fun i trace => trace.append (pieces i)) trace).stores,
        (forLoop count (fun i trace => trace.append (pieces i)) trace).reads⟩ : Trace F) := rfl
    _ = _ := by
      rw [stores,reads]
      rfl

private theorem run_append (first second : Trace F) (canvas : Canvas F) :
    (first.append second).run canvas = second.run (first.run canvas) := by
  unfold run append
  dsimp only
  rw [writeAll_append,List.append_assoc]

/-- Loops that append their pieces, as loops that run them. -/
theorem forLoop_run {body : Nat → Trace F → Trace F} {other : Nat → Canvas F → Canvas F}
    (canvas : Canvas F) (same : ∀ i trace, (body i trace).run canvas = other i (trace.run canvas))
    (trace : Trace F) :
    (forLoop count body trace).run canvas = forLoop count other (trace.run canvas) :=
  forLoop_map (fun trace : Trace F => trace.run canvas) count body other trace same

private theorem mem_joined_stores (store : Nat × F) :
    store ∈ (joined count pieces).stores ↔ ∃ i, i < count ∧ store ∈ (pieces i).stores := by
  simp [joined]

private theorem mem_joined_reads (read : Nat × Nat) :
    read ∈ (joined count pieces).reads ↔ ∃ i, i < count ∧ read ∈ (pieces i).reads := by
  simp [joined]

private theorem length_joined {each : Nat} (length : ∀ i, (pieces i).stores.length = each) :
    (joined count pieces).stores.length = count * each := by
  simp [joined,List.length_flatMap,length]

end Trace

section Output

variable {iw ih ow oh channels batch : Nat} {pixel : Nat → Nat → Nat → F × List Nat}
  {stores : List (Nat × F)}

/-- The pixels of the output are stored once each with what a kernel computes for them. -/
structure Draws (iw ih ow oh channels batch : Nat) (pixel : Nat → Nat → Nat → F × List Nat)
    (stores : List (Nat × F)) : Prop where
  length : stores.length = batch * (channels * (oh * ow))
  covers : ∀ b c oy ox, b < batch → c < channels → oy < oh → ox < ow →
    ∃ value, (plane ow oh channels b c + (oy * ow + ox),value) ∈ stores
  right : ∀ store ∈ stores, ∃ b c oy ox, b < batch ∧ c < channels ∧ oy < oh ∧ ox < ow ∧
    store = (plane ow oh channels b c + (oy * ow + ox),(pixel (plane iw ih channels b c) oy ox).1)

theorem Draws.congr {other : Nat → Nat → Nat → F × List Nat}
    (draws : Draws iw ih ow oh channels batch pixel stores)
    (same : ∀ inPtr oy ox, oy < oh → ox < ow → (pixel inPtr oy ox).1 = (other inPtr oy ox).1) :
    Draws iw ih ow oh channels batch other stores := by
  refine ⟨draws.length,draws.covers,?_⟩
  intro store member
  obtain ⟨b,c,oy,ox,image,channel,row,column,rfl⟩ := draws.right store member
  refine ⟨b,c,oy,ox,image,channel,row,column,?_⟩
  rw [same _ oy ox row column]

private theorem Draws.tiles (draws : Draws iw ih ow oh channels batch pixel stores) :
    Tiles 0 (batch * (channels * (oh * ow))) (stores.map Prod.fst) := by
  apply tiles_of_covers
  · rw [List.length_map,draws.length]
  · intro n _ low
    rw [Nat.zero_add] at low
    obtain ⟨image,channel,placed⟩ := numbered_bounds low
    have wide : 0 < ow := Nat.pos_of_lt_mul_left placed
    have row : pixelOf channels (oh * ow) n / ow < oh :=
      Nat.div_lt_of_lt_mul (placed.trans_eq (Nat.mul_comm oh ow))
    obtain ⟨value,member⟩ := draws.covers _ _ _ _ image channel row (Nat.mod_lt _ wide)
    rw [Nat.div_add_mod',plane_numbered] at member
    exact List.mem_map.mpr ⟨_,member,rfl⟩

theorem Draws.output (draws : Draws iw ih ow oh channels batch pixel stores) (canvas : Canvas F) :
    canvas.dst.writeAll stores = (forPixels iw ih ow oh channels batch pixel canvas).dst := by
  ext n
  have written : canvas.dst.writeAll stores n = if 0 ≤ n ∧ n < 0 + batch * (channels * (oh * ow)) then
      (pixelAt iw ih ow oh channels pixel n).1 else canvas.dst n := by
    apply writeAll_tiles canvas.dst draws.tiles
    intro store member
    obtain ⟨b,c,oy,ox,-,channel,row,column,rfl⟩ := draws.right store member
    dsimp only
    rw [pixelAt_cell iw ih ow oh channels pixel b channel row column]
  rw [written,forPixels_flat,forLoop_map Canvas.dst _ _ fun n dst =>
    dst.write n (pixelAt iw ih ow oh channels pixel n).1]
  · have writes := forLoop_write 0 (batch * (channels * (oh * ow)))
      (fun n => (pixelAt iw ih ow oh channels pixel n).1) canvas.dst n
    simp only [Nat.zero_add,Nat.sub_zero] at writes ⊢
    exact writes.symm
  · intro n canvas
    rfl

end Output

section Nested

/-- The loops over the blocks of so many pixels in all channels. -/
def Trace.nested (batch channels rows columns : Nat) (pieces : Nat → Nat → Nat → Nat → Trace F) :
    Trace F :=
  .joined batch fun b => .joined channels fun c => .joined rows fun y => .joined columns fun x =>
    pieces b c y x

variable {batch channels rows columns : Nat} {pieces : Nat → Nat → Nat → Nat → Trace F}

private theorem length_nested {each : Nat}
    (length : ∀ b c y x, (pieces b c y x).stores.length = each) :
    (Trace.nested batch channels rows columns pieces).stores.length =
      batch * (channels * (rows * (columns * each))) :=
  Trace.length_joined fun b => Trace.length_joined fun c => Trace.length_joined fun y =>
    Trace.length_joined fun x => length b c y x

private theorem mem_nested_stores (store : Nat × F) :
    store ∈ (Trace.nested batch channels rows columns pieces).stores ↔ ∃ b c y x,
      b < batch ∧ c < channels ∧ y < rows ∧ x < columns ∧ store ∈ (pieces b c y x).stores := by
  unfold Trace.nested
  simp only [Trace.mem_joined_stores]
  constructor
  · rintro ⟨b,image,c,channel,y,row,x,column,member⟩
    exact ⟨b,c,y,x,image,channel,row,column,member⟩
  · rintro ⟨b,c,y,x,image,channel,row,column,member⟩
    exact ⟨b,image,c,channel,y,row,x,column,member⟩

private theorem mem_nested_reads (read : Nat × Nat) :
    read ∈ (Trace.nested batch channels rows columns pieces).reads ↔ ∃ b c y x,
      b < batch ∧ c < channels ∧ y < rows ∧ x < columns ∧ read ∈ (pieces b c y x).reads := by
  unfold Trace.nested
  simp only [Trace.mem_joined_reads]
  constructor
  · rintro ⟨b,image,c,channel,y,row,x,column,member⟩
    exact ⟨b,c,y,x,image,channel,row,column,member⟩
  · rintro ⟨b,c,y,x,image,channel,row,column,member⟩
    exact ⟨b,image,c,channel,y,row,x,column,member⟩

private theorem forLoop_nested_trace :
    forLoop batch (fun b => forLoop channels fun c => forLoop rows fun y => forLoop columns fun x trace =>
      trace.append (pieces b c y x)) (⟨[],[]⟩ : Trace F) =
        Trace.nested batch channels rows columns pieces := by
  simp only [Trace.forLoop_joined]
  rfl

end Nested

section Exact

variable [Field F] [LinearOrder F] [IsStrictOrderedRing F] [FloorRing F]

private theorem round_half (position : Nat) :
    roundAway (samplePosition (1 / 2 : F) (1 / 2) position) = (position / 2 : Nat) := by
  have parts : (position : F) = 2 * (position / 2 : Nat) + (position % 2 : Nat) := by
    exact_mod_cast (Nat.div_add_mod position 2).symm
  have rest : ((position % 2 : Nat) : F) ≤ 1 := by
    exact_mod_cast Nat.le_of_lt_succ (Nat.mod_lt position Nat.two_pos)
  have nonneg : (0 : F) ≤ (position % 2 : Nat) := Nat.cast_nonneg _
  rw [samplePosition_eq,parts]
  apply roundAway_eq
  · rw [Int.cast_natCast]
    linarith
  · rw [Int.cast_natCast]
    linarith

omit [FloorRing F] in
theorem samplePosition_quarter (column lane : Nat) :
    samplePosition (1 / 4 : F) (1 / 4) (4 * column + lane) = column + (lane / 4 - 3 / 8) := by
  rw [samplePosition_eq]
  push_cast
  ring

theorem round_quarter (column : Nat) {lane : Nat} (low : lane < 4) :
    roundAway (samplePosition (1 / 4 : F) (1 / 4) (4 * column + lane)) = column := by
  have most : (lane : F) ≤ 3 := by exact_mod_cast Nat.le_of_lt_succ low
  have nonneg : (0 : F) ≤ lane := Nat.cast_nonneg lane
  rw [samplePosition_quarter]
  apply roundAway_eq
  · rw [Int.cast_natCast]
    linarith
  · rw [Int.cast_natCast]
    linarith

private theorem nearestPixel_half (src : Memory F) (iw inPtr oy ox : Nat) :
    nearestPixel src iw (1 / 2 : F) (1 / 2) inPtr oy ox =
      (src (inPtr + (oy / 2 * iw + ox / 2)),[inPtr + (oy / 2 * iw + ox / 2)]) := by
  have row : FloatMath.round (samplePosition (1 / 2 : F) (1 / 2) oy) = (oy / 2 : Nat) := round_half oy
  have column : FloatMath.round (samplePosition (1 / 2 : F) (1 / 2) ox) = (ox / 2 : Nat) :=
    round_half ox
  unfold nearestPixel
  dsimp only
  rw [row,column,Int.toNat_natCast,Int.toNat_natCast]

private theorem nearestPixel_quarter (src : Memory F) (iw inPtr oy column : Nat) {lane : Nat}
    (low : lane < 4) : nearestPixel src iw (1 / 4 : F) (1 / 4) inPtr oy (4 * column + lane) =
      (src (inPtr + (oy / 4 * iw + column)),[inPtr + (oy / 4 * iw + column)]) := by
  have down : FloatMath.round (samplePosition (1 / 4 : F) (1 / 4) oy) = (oy / 4 : Nat) := by
    have rounded := round_quarter (F := F) (oy / 4) (Nat.mod_lt oy (show 0 < 4 by decide))
    rwa [Nat.div_add_mod] at rounded
  have across : FloatMath.round (samplePosition (1 / 4 : F) (1 / 4) (4 * column + lane)) = column :=
    round_quarter column low
  unfold nearestPixel
  dsimp only
  rw [down,across,Int.toNat_natCast,Int.toNat_natCast]

end Exact

section Doubled

variable (src : Memory F) (iw ih ow oh channels batch : Nat)

private theorem Upsample2x_NearestTrace_nested :
    Upsample2x_NearestTrace src iw ih ow oh channels batch =
      .nested batch channels ih iw fun b c iy ix =>
        doubledPixel src iw ow (plane iw ih channels b c) (plane ow oh channels b c) iy ix :=
  forLoop_nested_trace

/-- What the trace stores and reads is what Upsample2x_Nearest stores and reads. -/
theorem Upsample2x_Nearest_run (canvas : Canvas F) :
    Upsample2x_Nearest src iw ih ow oh channels batch canvas =
      (Upsample2x_NearestTrace src iw ih ow oh channels batch).run canvas := by
  have start : (⟨[],[]⟩ : Trace F).run canvas = canvas := by
    unfold Trace.run
    rw [List.append_nil]
    rfl
  have loops : (Upsample2x_NearestTrace src iw ih ow oh channels batch).run canvas =
      Upsample2x_Nearest src iw ih ow oh channels batch ((⟨[],[]⟩ : Trace F).run canvas) := by
    unfold Upsample2x_Nearest Upsample2x_NearestTrace
    refine Trace.forLoop_run canvas ?_ _
    intro b trace
    refine Trace.forLoop_run canvas ?_ trace
    intro c trace
    refine Trace.forLoop_run canvas ?_ trace
    intro iy trace
    refine Trace.forLoop_run canvas ?_ trace
    intro ix trace
    rw [Trace.run_append]
    rfl
  rw [loops,start]

private theorem mem_doubledPixel {inPtr outPtr iy ix : Nat} (store : Nat × F) :
    store ∈ (doubledPixel src iw ow inPtr outPtr iy ix).stores ↔ ∃ y x, y < 2 ∧ x < 2 ∧
      store = (outPtr + ((2 * iy + y) * ow + (2 * ix + x)),src (inPtr + (iy * iw + ix))) := by
  unfold doubledPixel
  simp only [List.mem_cons,List.not_mem_nil,or_false]
  constructor
  · rintro (rfl | rfl | rfl | rfl)
    · exact ⟨0,0,by decide,by decide,rfl⟩
    · exact ⟨0,1,by decide,by decide,rfl⟩
    · exact ⟨1,0,by decide,by decide,rfl⟩
    · exact ⟨1,1,by decide,by decide,rfl⟩
  · rintro ⟨y,x,row,column,rfl⟩
    interval_cases y
    · interval_cases x
      · exact .inl rfl
      · exact .inr (.inl rfl)
    · interval_cases x
      · exact .inr (.inr (.inl rfl))
      · exact .inr (.inr (.inr rfl))

private theorem doubled_reads :
    ∀ read ∈ (Upsample2x_NearestTrace src iw ih ow oh channels batch).reads, WithinPlane iw ih read := by
  intro read member
  rw [Upsample2x_NearestTrace_nested,mem_nested_reads] at member
  obtain ⟨b,c,iy,ix,-,-,row,column,member⟩ := member
  obtain rfl := List.mem_singleton.mp member
  exact ⟨Nat.le_add_right _ _,Nat.add_lt_add_left (cell_within row column) _⟩

private theorem doubled_draws [Field F] [LinearOrder F] [IsStrictOrderedRing F] [FloorRing F] :
    Draws iw ih (2 * iw) (2 * ih) channels batch (nearestPixel src iw (1 / 2 : F) (1 / 2))
      (Upsample2x_NearestTrace src iw ih (2 * iw) (2 * ih) channels batch).stores where
  length := by
    rw [Upsample2x_NearestTrace_nested]
    calc _ = batch * (channels * (ih * (iw * 4))) := length_nested fun _ _ _ _ => rfl
      _ = batch * (channels * (2 * ih * (2 * iw))) := by ring
  covers := by
    intro b c oy ox image channel row column
    refine ⟨src (plane iw ih channels b c + (oy / 2 * iw + ox / 2)),?_⟩
    rw [Upsample2x_NearestTrace_nested,mem_nested_stores]
    refine ⟨b,c,oy / 2,ox / 2,image,channel,by omega,by omega,?_⟩
    rw [mem_doubledPixel]
    refine ⟨oy % 2,ox % 2,Nat.mod_lt _ Nat.two_pos,Nat.mod_lt _ Nat.two_pos,?_⟩
    rw [Nat.div_add_mod,Nat.div_add_mod]
  right := by
    intro store member
    rw [Upsample2x_NearestTrace_nested,mem_nested_stores] at member
    obtain ⟨b,c,iy,ix,image,channel,row,column,member⟩ := member
    obtain ⟨y,x,down,across,rfl⟩ := (mem_doubledPixel src iw (2 * iw) store).mp member
    refine ⟨b,c,2 * iy + y,2 * ix + x,image,channel,by omega,by omega,?_⟩
    have source : (2 * iy + y) / 2 = iy ∧ (2 * ix + x) / 2 = ix := by omega
    rw [nearestPixel_half,source.1,source.2]

end Doubled

section Blocks

variable {size block position : Nat}

theorem upTo_iff (fits : block ≤ size) : upTo size block position ↔ position + block ≤ size := by
  unfold upTo
  rw [Bool.or_eq_true,decide_eq_true_eq,decide_eq_true_eq]
  omega

theorem upTo_wraps (small : size < block) : upTo size block position := by
  unfold upTo
  rw [decide_eq_true small]
  rfl

end Blocks

section Fourfold

variable (src : Memory F) {iw ih oh channels batch fuel : Nat}

private theorem mem_fourfoldPixel [FloatType F] [FloatMath F] {fx fy : F}
    {ow inPtr outPtr oy ox : Nat} (store : Nat × F) :
    store ∈ (fourfoldPixel src iw fx fy ow inPtr outPtr oy ox).stores ↔ ∃ lane, lane < 4 ∧
      store = (outPtr + (oy * ow + (ox + lane)),(nearestPixel src iw fx fy inPtr oy ox).1) := by
  unfold fourfoldPixel nearestPixel
  simp only [List.mem_map,List.mem_range,Nat.add_assoc]
  constructor
  · rintro ⟨lane,low,rfl⟩
    exact ⟨lane,low,rfl⟩
  · rintro ⟨lane,low,rfl⟩
    exact ⟨lane,low,rfl⟩

private theorem Upsample4x_Nearest_eq [FloatType F] [FloatMath F] (fx fy : F) (wide : 1 ≤ iw)
    (enough : iw < fuel) :
    Upsample4x_Nearest fuel src iw ih fx fy (4 * iw) oh channels batch =
      .ok (.nested batch channels oh iw fun b c oy x =>
        fourfoldPixel src iw fx fy (4 * iw) (plane iw ih channels b c)
          (plane (4 * iw) oh channels b c) oy (4 * x)) := by
  have row : ∀ inPtr outPtr oy (trace : Trace F), (do
      let row ← stepLoop Unfinished.outOfFuel (upTo (4 * iw) 4) 4 (fun ox (trace : Trace F) =>
        .ok (trace.append (fourfoldPixel src iw fx fy (4 * iw) inPtr outPtr oy ox))) fuel 0 trace
      return row.2) = .ok (forLoop iw (fun x trace =>
        trace.append (fourfoldPixel src iw fx fy (4 * iw) inPtr outPtr oy (4 * x))) trace) := by
    intro inPtr outPtr oy trace
    have steps : ∀ passes, 0 + passes * 4 = 4 * passes := by omega
    rw [stepLoop_eq enough]
    · simp only [steps]
      rw [tryLoop_forLoop iw trace fun x trace _ => rfl]
      rfl
    · intro pass low
      rw [upTo_iff (by omega)]
      omega
    · rw [Bool.eq_false_iff,ne_eq,upTo_iff (by omega)]
      omega
  unfold Upsample4x_Nearest
  refine (tryLoop_forLoop batch _ ?_).trans (congrArg Except.ok forLoop_nested_trace)
  intro b trace _
  apply tryLoop_forLoop
  intro c trace _
  apply tryLoop_forLoop
  intro oy trace _
  exact row _ _ oy trace

variable [Field F] [LinearOrder F] [IsStrictOrderedRing F] [FloorRing F]

private theorem fourfold_draws (iw ih channels batch : Nat) :
    Draws iw ih (4 * iw) (4 * ih) channels batch (nearestPixel src iw (1 / 4 : F) (1 / 4))
      (Trace.nested batch channels (4 * ih) iw fun b c oy x =>
        fourfoldPixel src iw (1 / 4) (1 / 4) (4 * iw) (plane iw ih channels b c)
          (plane (4 * iw) (4 * ih) channels b c) oy (4 * x)).stores where
  length := by
    calc _ = batch * (channels * (4 * ih * (iw * 4))) := length_nested fun _ _ _ _ => rfl
      _ = batch * (channels * (4 * ih * (4 * iw))) := by ring
  covers := by
    intro b c oy ox image channel row column
    refine ⟨(nearestPixel src iw (1 / 4 : F) (1 / 4) (plane iw ih channels b c) oy (4 * (ox / 4))).1,?_⟩
    rw [mem_nested_stores]
    refine ⟨b,c,oy,ox / 4,image,channel,row,by omega,?_⟩
    rw [mem_fourfoldPixel]
    refine ⟨ox % 4,Nat.mod_lt _ (by decide),?_⟩
    rw [Nat.div_add_mod]
  right := by
    intro store member
    obtain ⟨b,c,oy,x,image,channel,row,column,member⟩ := (mem_nested_stores _).mp member
    obtain ⟨lane,low,rfl⟩ := (mem_fourfoldPixel src store).mp member
    refine ⟨b,c,oy,4 * x + lane,image,channel,row,by omega,?_⟩
    have first := nearestPixel_quarter src iw (plane iw ih channels b c) oy x (show 0 < 4 by decide)
    rw [Nat.add_zero] at first
    rw [first,nearestPixel_quarter src iw _ oy x low]

private theorem fourfold_reads :
    ∀ read ∈ (Trace.nested batch channels (4 * ih) iw fun b c oy x =>
        fourfoldPixel src iw (1 / 4 : F) (1 / 4) (4 * iw) (plane iw ih channels b c)
          (plane (4 * iw) (4 * ih) channels b c) oy (4 * x)).reads, WithinPlane iw ih read := by
  intro read member
  obtain ⟨b,c,oy,x,-,-,row,column,member⟩ := (mem_nested_reads read).mp member
  have first := nearestPixel_quarter src iw (plane iw ih channels b c) oy x (show 0 < 4 by decide)
  rw [Nat.add_zero] at first
  have place : read = (plane iw ih channels b c,plane iw ih channels b c + (oy / 4 * iw + x)) := by
    have address := congrArg Prod.snd first
    obtain rfl := List.mem_singleton.mp member
    exact Prod.ext rfl (List.head_eq_of_cons_eq address)
  have inside : oy / 4 * iw + x < ih * iw := cell_within (by omega) column
  rw [place]
  exact ⟨Nat.le_add_right _ _,Nat.add_lt_add_left inside _⟩

end Fourfold

section Kernel

variable [Field F] [LinearOrder F] [IsStrictOrderedRing F] [FloorRing F]

/-- A path that stores each element of the output once, and together what
NearestNeighborKernel leaves there, and that reads within the planes. -/
structure MatchesKernel (src : Memory F) (iw ih : Nat) (f : F) (ow oh channels batch : Nat)
    (trace : Trace F) : Prop where
  once : Tiles 0 (batch * (channels * (oh * ow))) (trace.stores.map Prod.fst)
  output : ∀ canvas, (trace.run canvas).dst =
    (NearestNeighborKernel src iw ih f f ow oh channels batch canvas).dst
  within : ∀ read ∈ trace.reads, WithinPlane iw ih read

theorem nearest_paths_match (src : Memory F) (iw ih channels batch : Nat) (wide : 1 ≤ iw) :
    ((∀ canvas, Upsample2x_Nearest src iw ih (2 * iw) (2 * ih) channels batch canvas =
        (Upsample2x_NearestTrace src iw ih (2 * iw) (2 * ih) channels batch).run canvas) ∧
      MatchesKernel src iw ih (1 / 2) (2 * iw) (2 * ih) channels batch
        (Upsample2x_NearestTrace src iw ih (2 * iw) (2 * ih) channels batch)) ∧
    ∀ fuel, iw < fuel → ∃ trace,
      Upsample4x_Nearest fuel src iw ih (1 / 4) (1 / 4) (4 * iw) (4 * ih) channels batch = .ok trace ∧
        MatchesKernel src iw ih (1 / 4) (4 * iw) (4 * ih) channels batch trace := by
  have doubled := doubled_draws src iw ih channels batch
  have fourfold := fourfold_draws src iw ih channels batch
  refine ⟨⟨Upsample2x_Nearest_run src iw ih _ _ channels batch,?_⟩,?_⟩
  · exact ⟨doubled.tiles,doubled.output,doubled_reads src iw ih _ _ channels batch⟩
  · intro fuel enough
    exact ⟨_,Upsample4x_Nearest_eq src _ _ wide enough,fourfold.tiles,fourfold.output,
      fourfold_reads src⟩

/-- Two images of two channels, each of three by two. -/
theorem nearest_paths_match_planes :
    (∀ canvas, (Upsample2x_Nearest (fun i => (i + 7 : Rat)) 3 2 6 4 2 2 canvas).dst =
        (NearestNeighborKernel (fun i => (i + 7 : Rat)) 3 2 (1 / 2) (1 / 2) 6 4 2 2 canvas).dst) ∧
      MatchesKernel (fun i => (i + 7 : Rat)) 3 2 (1 / 2) 6 4 2 2
        (Upsample2x_NearestTrace (fun i => (i + 7 : Rat)) 3 2 6 4 2 2) ∧
      ∃ trace,
        Upsample4x_Nearest 4 (fun i => (i + 7 : Rat)) 3 2 (1 / 4) (1 / 4) 12 8 2 2 = .ok trace ∧
          MatchesKernel (fun i => (i + 7 : Rat)) 3 2 (1 / 4) 12 8 2 2 trace := by
  obtain ⟨⟨run,doubled⟩,fourfold⟩ :=
    nearest_paths_match (fun i => (i + 7 : Rat)) 3 2 2 2 (by decide)
  refine ⟨?_,doubled,fourfold 4 (by decide)⟩
  intro canvas
  exact (congrArg Canvas.dst (run canvas)).trans (doubled.output canvas)

end Kernel

end VideoAnalytics.Resample
