import VideoAnalytics.ResampleWindow
import Mathlib.Data.Rat.Floor

/-! When the Resample layer keeps a constant channel constant, in exact arithmetic, and
reads no pixel outside of it. -/
namespace VideoAnalytics.Resample
open Loop Memory Rounding

variable {F : Type} [Field F] [LinearOrder F] [IsStrictOrderedRing F] [FloorRing F]

section Positions

variable {f g : F}

omit [IsStrictOrderedRing F] [FloorRing F] in
theorem samplePosition_eq (f g : F) (column : Nat) :
    samplePosition f g column = column * f + g / 2 - 1 / 2 := by
  unfold samplePosition
  push_cast
  rfl

omit [FloorRing F] in
private theorem samplePosition_above (positive : 0 < f) (other : 0 < g) (column : Nat) :
    -(1 / 2) < samplePosition f g column := by
  have columns : 0 ≤ (column : F) * f := by positivity
  rw [samplePosition_eq]
  linarith

omit [FloorRing F] in
private theorem samplePosition_mono (positive : 0 < f) (g : F) {column last : Nat}
    (le : column ≤ last) : samplePosition f g column ≤ samplePosition f g last := by
  have columns : (column : F) * f ≤ last * f :=
    mul_le_mul_of_nonneg_right (Nat.cast_le.mpr le) positive.le
  rw [samplePosition_eq,samplePosition_eq]
  linarith

omit [IsStrictOrderedRing F] [FloorRing F] in
private theorem samplePosition_last {width count : Nat} (scale : f * count = width)
    (some : 1 ≤ count) (g : F) : samplePosition f g (count - 1) = width - f + g / 2 - 1 / 2 := by
  rw [samplePosition_eq,Nat.cast_sub some,Nat.cast_one,sub_mul,one_mul,mul_comm _ f,scale]

/-- All columns of the output reach the input if and only if the last one does. -/
theorem reaches_iff {width count : Nat} {s : F} (scale : f * count = width) (wide : 1 ≤ width)
    (some : 1 ≤ count) (positive : 0 < f) (other : 0 < g)
    (covers : 1 / 2 < s ∨ 2 * (f + s) ≤ g + 1) :
    (∀ column, column < count → Reaches (samplePosition f g column) s width) ↔
      g + 1 < 2 * (f + s) := by
  constructor
  · intro reached
    obtain ⟨x,column,near⟩ := reached (count - 1) (by omega)
    rw [samplePosition_last scale some,abs_lt] at near
    have low : (x : F) + 1 ≤ width := by exact_mod_cast column
    linarith [near.2]
  · intro last column low
    have half := covers.resolve_right (not_le.mpr last)
    have above := samplePosition_above positive other column
    have below := samplePosition_mono positive g (show column ≤ count - 1 by omega)
    rw [samplePosition_last scale some] at below
    have rounded := roundAway_near (samplePosition f g column)
    have nonneg := roundAway_nonneg above
    rcases lt_or_ge (roundAway (samplePosition f g column)) width with inside | outside
    · refine ⟨(roundAway (samplePosition f g column)).toNat,by omega,?_⟩
      rw [← Int.cast_natCast,Int.toNat_of_nonneg nonneg]
      exact lt_of_le_of_lt rounded half
    · refine ⟨width - 1,by omega,?_⟩
      have far : (width : F) ≤ roundAway (samplePosition f g column) := by exact_mod_cast outside
      rw [Nat.cast_sub wide,Nat.cast_one,abs_lt]
      rw [abs_le] at rounded
      constructor
      · linarith [rounded.1]
      · linarith

end Positions

section Kernels

/-- A channel stays constant, and nothing outside of its plane is read for it. -/
structure KeepsChannel (iw ih ow oh channels b c : Nat) (v : F) (after : Canvas F) : Prop where
  constant : KeepsConstant after.dst ow oh channels b c v
  within : ∀ read ∈ after.reads, read.1 = plane iw ih channels b c → WithinPlane iw ih read

/-- The position in the plane that NearestNeighborKernel reads for a pixel. -/
def nearestIndex (iw : Nat) (fx fy : F) (oy ox : Nat) : Nat :=
  (roundAway (samplePosition fy fx oy)).toNat * iw + (roundAway (samplePosition fx fy ox)).toNat

private theorem nearestIndex_mono (iw : Nat) {fx fy : F} (xPositive : 0 < fx) (yPositive : 0 < fy)
    {oy ox lastRow lastColumn : Nat} (row : oy ≤ lastRow) (column : ox ≤ lastColumn) :
    nearestIndex iw fx fy oy ox ≤ nearestIndex iw fx fy lastRow lastColumn := by
  have down := Int.toNat_le_toNat (roundAway_mono (samplePosition_mono yPositive fx row))
  have across := Int.toNat_le_toNat (roundAway_mono (samplePosition_mono xPositive fy column))
  exact Nat.add_le_add (Nat.mul_le_mul_right iw down) across

variable {src : Memory F} {iw ih ow oh channels batch b c : Nat} {fx fy v : F}
  (image : b < batch) (channel : c < channels) (height : 1 ≤ oh) (width : 1 ≤ ow)
  (constant : ConstantChannel src iw ih channels b c v) (xPositive : 0 < fx) (yPositive : 0 < fy)
  (before : Memory F)
include image channel height width constant xPositive yPositive

private theorem NearestNeighborKernel_keeps_iff :
    KeepsChannel iw ih ow oh channels b c v
      (NearestNeighborKernel src iw ih fx fy ow oh channels batch ⟨before,[]⟩) ↔
    nearestIndex iw fx fy (oh - 1) (ow - 1) < ih * iw := by
  have fetched (read : Nat × Nat) := mem_forPixels_reads iw ih ow oh channels batch
    (nearestPixel src iw fx fy) ⟨before,[]⟩ read
  constructor
  · intro keeps
    have last : (plane iw ih channels b c,plane iw ih channels b c +
        nearestIndex iw fx fy (oh - 1) (ow - 1)) ∈
        (NearestNeighborKernel src iw ih fx fy ow oh channels batch ⟨before,[]⟩).reads :=
      (fetched _).mpr (.inr ⟨b,c,oh - 1,ow - 1,image,channel,by omega,by omega,rfl,
        List.mem_singleton.mpr rfl⟩)
    have inside := (keeps.within _ last rfl).2
    exact Nat.add_lt_add_iff_left.mp inside
  · intro last
    have inside (oy ox : Nat) (row : oy < oh) (column : ox < ow) :
        nearestIndex iw fx fy oy ox < ih * iw :=
      lt_of_le_of_lt (nearestIndex_mono iw xPositive yPositive (by omega) (by omega)) last
    constructor
    · intro oy ox row column
      exact (forPixels_dst iw ih ow oh channels batch (nearestPixel src iw fx fy) ⟨before,[]⟩ image
        channel row column).trans (constant _ (inside oy ox row column))
    · intro read member _
      rcases (fetched read).mp member with old | ⟨d,e,oy,ox,-,-,row,column,-,made⟩
      · cases old
      · rw [WithinPlane,List.mem_singleton.mp made]
        exact ⟨Nat.le_add_right _ _,Nat.add_lt_add_left (inside oy ox row column) _⟩

private theorem InterpolationKernel_keeps_iff (antialias : Bool) :
    KeepsChannel iw ih ow oh channels b c v
      (InterpolationKernel src iw ih fx fy ow oh channels batch 2 antialias ⟨before,[]⟩) ↔
    v = 0 ∨ (∀ ox, ox < ow → Reaches (samplePosition fx fy ox) (support fx antialias) iw) ∧
      ∀ oy, oy < oh → Reaches (samplePosition fy fx oy) (support fy antialias) ih := by
  have value (oy ox : Nat) (row : oy < oh) (column : ox < ow) :
      (InterpolationKernel src iw ih fx fy ow oh channels batch 2 antialias ⟨before,[]⟩).dst
        (plane ow oh channels b c + (oy * ow + ox)) =
      if pixelTotal iw ih oy ox fx fy antialias = 0 then 0 else v :=
    (forPixels_dst iw ih ow oh channels batch _ ⟨before,[]⟩ image channel row column).trans
      (interpolatedPixel_value iw ih oy ox fx fy antialias src _ constant)
  have weightless (oy ox : Nat) :=
    pixelTotal_eq_zero iw ih oy ox antialias xPositive yPositive
  constructor
  · intro keeps
    rw [or_iff_not_imp_left]
    intro nonzero
    have reached (oy ox : Nat) (row : oy < oh) (column : ox < ow) :
        Reaches (samplePosition fx fy ox) (support fx antialias) iw ∧
          Reaches (samplePosition fy fx oy) (support fy antialias) ih := by
      by_contra missed
      have pixel := keeps.constant oy ox row column
      rw [value oy ox row column,if_pos ((weightless oy ox).mpr missed)] at pixel
      exact nonzero pixel.symm
    exact ⟨fun ox column => (reached 0 ox (by omega) column).1,
      fun oy row => (reached oy 0 row (by omega)).2⟩
  · intro condition
    constructor
    · intro oy ox row column
      rw [value oy ox row column]
      rcases condition with zero | ⟨across,down⟩
      · rw [zero,ite_self]
      · exact if_neg (mt (weightless oy ox).mp (not_not_intro ⟨across ox column,down oy row⟩))
    · intro read member _
      rcases (mem_forPixels_reads iw ih ow oh channels batch _ ⟨before,[]⟩ read).mp member with
        old | ⟨d,e,oy,ox,-,-,-,-,-,made⟩
      · cases old
      · exact interpolatedPixel_reads iw ih oy ox fx fy antialias src read.1 read.2 made

end Kernels

section Execute

variable (impl : Impl) (src dst : ExtBlob F)

/-- The factors from the output to the input. -/
def factorX : F := src.dim 3 / dst.dim 3

def factorY : F := src.dim 2 / dst.dim 2

def antialiased : Bool :=
  (decide (factorX src dst > 1) || decide (factorY src dst > 1)) && impl.antialias

omit [IsStrictOrderedRing F] in
private theorem execute_linear (linear : impl.type = linearType) :
    execute impl src dst =
      if src.dim 3 = dst.dim 3 ∧ src.dim 2 = dst.dim 2 then
        copyBlob src.data (src.dim 0 * src.dim 1 * src.dim 2 * src.dim 3) (src.dim 2 * src.dim 3)
          ⟨dst.data,[]⟩
      else InterpolationKernel src.data (src.dim 3) (src.dim 2) (factorX src dst) (factorY src dst)
        (dst.dim 3) (dst.dim 2) (src.dim 1) (src.dim 0) 2 (antialiased impl src dst)
          ⟨dst.data,[]⟩ := by
  have other : linearType ≠ nearestType := by decide
  unfold execute antialiased factorX factorY
  dsimp only
  rw [linear]
  by_cases same : src.dim 3 = dst.dim 3 ∧ src.dim 2 = dst.dim 2
  · rw [if_pos ⟨same.1,same.2,rfl⟩,if_pos same]
  · rw [if_neg fun all => same ⟨all.1,all.2.1⟩,if_neg same,if_neg other,if_pos rfl]
    simp only [Int.cast_natCast,Int.cast_one]

private theorem execute_nearest (nearest : impl.type = nearestType) :
    execute impl src dst =
      if factorX src dst = 1 / 2 ∧ factorY src dst = 1 / 2 then
        Upsample2x_Nearest src.data (src.dim 3) (src.dim 2) (dst.dim 3) (dst.dim 2) (src.dim 1)
          (src.dim 0) ⟨dst.data,[]⟩
      else NearestNeighborKernel src.data (src.dim 3) (src.dim 2) (factorX src dst)
        (factorY src dst) (dst.dim 3) (dst.dim 2) (src.dim 1) (src.dim 0) ⟨dst.data,[]⟩ := by
  have other : nearestType ≠ linearType := by decide
  unfold execute factorX factorY
  dsimp only
  rw [nearest,if_neg fun all => other all.2.2,if_pos rfl]
  simp only [Int.cast_natCast,Int.cast_one,Int.cast_ofNat]
  apply if_congr _ rfl rfl
  simp only [Bool.and_eq_true,Bool.not_eq_true',Bool.or_eq_false_iff,decide_eq_false_iff_not,
    beq_iff_eq,and_assoc]
  constructor
  · intro halves
    exact halves.2.2
  · intro halves
    rw [halves.1,halves.2]
    have half : ¬(1 / 2 : F) > 1 := by
      rw [gt_iff_lt,not_lt]
      linarith
    exact ⟨half,half,rfl,rfl⟩

end Execute

/-- The factors are close enough for the support of the kernel. -/
def FactorsFit (fx fy : F) (antialias : Bool) : Prop :=
  fy + 1 < ((2 : Int) : F) * (fx + support fx antialias) ∧
    fx + 1 < ((2 : Int) : F) * (fy + support fy antialias)

section Factors

variable {iw ih ow oh : Nat} {fx fy : F}

private theorem support_covers {f g : F} {antialias : Bool}
    (downsampled : antialias → f > 1 ∨ g > 1) :
    1 / 2 < support f antialias ∨ 2 * (f + support f antialias) ≤ g + 1 := by
  unfold support
  split
  · next wide =>
    rcases lt_or_ge (1 / 2) f with large | small
    · exact .inl large
    · right
      have other := (downsampled wide).resolve_left (by linarith)
      linarith
  · left
    linarith

private theorem reaches_all_iff (xScale : fx * ow = iw) (yScale : fy * oh = ih) (wide : 1 ≤ iw)
    (high : 1 ≤ ih) (columns : 1 ≤ ow) (rows : 1 ≤ oh) (xPositive : 0 < fx) (yPositive : 0 < fy)
    {antialias : Bool} (downsampled : antialias → fx > 1 ∨ fy > 1) :
    ((∀ ox, ox < ow → Reaches (samplePosition fx fy ox) (support fx antialias) iw) ∧
      ∀ oy, oy < oh → Reaches (samplePosition fy fx oy) (support fy antialias) ih) ↔
    FactorsFit fx fy antialias := by
  have across := reaches_iff xScale wide columns xPositive yPositive (support_covers downsampled)
  have down := reaches_iff yScale high rows yPositive xPositive
    (support_covers fun antialiased => (downsampled antialiased).symm)
  unfold FactorsFit
  rw [across,down,Int.cast_ofNat]

private theorem nearestIndex_doubled (wide : 1 ≤ iw) (high : 1 ≤ ih) :
    nearestIndex iw (1 / 2 : F) (1 / 2) (2 * ih - 1) (2 * iw - 1) < ih * iw := by
  have last {size : Nat} (some : 1 ≤ size) :
      (roundAway (samplePosition (1 / 2 : F) (1 / 2) (2 * size - 1))).toNat < size := by
    have scale : (1 / 2 : F) * (2 * size : Nat) = size := by
      push_cast
      ring
    have rounded := roundAway_near (samplePosition (1 / 2 : F) (1 / 2) (2 * size - 1))
    have position := samplePosition_last scale (by omega) (1 / 2)
    have below : ((roundAway (samplePosition (1 / 2 : F) (1 / 2) (2 * size - 1)) : Int) : F) <
        (size : Int) := by
      rw [abs_le] at rounded
      push_cast
      linarith [rounded.1]
    have less : roundAway (samplePosition (1 / 2 : F) (1 / 2) (2 * size - 1)) < size :=
      Int.cast_lt.mp below
    omega
  exact cell_within (last high) (last wide)

end Factors

section Channel

variable {impl : Impl} {src dst : ExtBlob F} {b c : Nat} {v : F} (wide : 1 ≤ src.dim 3)
  (high : 1 ≤ src.dim 2) (columns : 1 ≤ dst.dim 3) (rows : 1 ≤ dst.dim 2)

include wide in
private theorem factorX_positive (columns : 1 ≤ dst.dim 3) : 0 < factorX src dst := by
  unfold factorX
  positivity

include high in
private theorem factorY_positive (rows : 1 ≤ dst.dim 2) : 0 < factorY src dst := by
  unfold factorY
  positivity

include columns in
private theorem factorX_scale : factorX src dst * dst.dim 3 = src.dim 3 := by
  unfold factorX
  exact div_mul_cancel₀ _ (by positivity)

include rows in
private theorem factorY_scale : factorY src dst * dst.dim 2 = src.dim 2 := by
  unfold factorY
  exact div_mul_cancel₀ _ (by positivity)

private theorem doubled_of_half {f : F} {size source : Nat} (half : f = 1 / 2)
    (scale : f * size = source) : size = 2 * source := by
  have cast : (size : F) = (2 * source : Nat) := by
    push_cast
    rw [half] at scale
    linarith
  exact Nat.cast_injective cast

variable (image : b < src.dim 0) (channel : c < src.dim 1)
  (constant : ConstantChannel src.data (src.dim 3) (src.dim 2) (src.dim 1) b c v)

include wide high columns rows image channel constant

private theorem nearest_kept_iff (nearest : impl.type = nearestType) :
    KeepsChannel (src.dim 3) (src.dim 2) (dst.dim 3) (dst.dim 2) (src.dim 1) b c v
        (execute impl src dst) ↔
      nearestIndex (src.dim 3) (factorX src dst) (factorY src dst) (dst.dim 2 - 1)
        (dst.dim 3 - 1) < src.dim 2 * src.dim 3 := by
  rw [execute_nearest impl src dst nearest]
  split
  · next halves =>
    have doubleWidth := doubled_of_half halves.1 (factorX_scale columns)
    have doubleHeight := doubled_of_half halves.2 (factorY_scale rows)
    rw [halves.1,halves.2,doubleWidth,doubleHeight]
    apply iff_of_true
    · refine ⟨Upsample2x_Nearest_constant _ image channel constant,?_⟩
      intro read member _
      exact Upsample2x_Nearest_reads src.data _ _ _ _ _ _ ⟨dst.data,[]⟩ (fun _ none => by cases none)
        read member
    · exact nearestIndex_doubled wide high
  · exact NearestNeighborKernel_keeps_iff image channel rows columns constant
      (factorX_positive wide columns) (factorY_positive high rows) dst.data

private theorem linear_kept_iff (linear : impl.type = linearType) :
    KeepsChannel (src.dim 3) (src.dim 2) (dst.dim 3) (dst.dim 2) (src.dim 1) b c v
        (execute impl src dst) ↔
      v = 0 ∨ FactorsFit (factorX src dst) (factorY src dst) (antialiased impl src dst) := by
  have xPositive := factorX_positive wide columns
  have yPositive := factorY_positive high rows
  rw [execute_linear impl src dst linear]
  split
  · next same =>
    have oneX : factorX src dst = 1 := by
      unfold factorX
      rw [← same.1]
      exact div_self (by positivity)
    have oneY : factorY src dst = 1 := by
      unfold factorY
      rw [← same.2]
      exact div_self (by positivity)
    rw [← same.1,← same.2]
    apply iff_of_true
    · refine ⟨copyBlob_constant _ image channel constant,?_⟩
      intro read member _
      exact copyBlob_reads src.data _ ⟨dst.data,[]⟩ (by positivity) (fun _ none => by cases none)
        read member
    · right
      unfold FactorsFit antialiased
      rw [oneX,oneY]
      norm_num [support]
  · have downsampled : antialiased impl src dst → factorX src dst > 1 ∨ factorY src dst > 1 := by
      unfold antialiased
      simp only [Bool.and_eq_true,Bool.or_eq_true,decide_eq_true_eq]
      exact And.left
    rw [InterpolationKernel_keeps_iff image channel rows columns constant xPositive yPositive,
      reaches_all_iff (factorX_scale columns) (factorY_scale rows) wide high columns rows xPositive
        yPositive downsampled]

end Channel

/-- A constant channel is kept if and only if the last position of a NEAREST resampling is
in its plane, or a LINEAR one has factors close enough, or the constant is zero. -/
theorem channel_kept_iff (impl : Impl) (src dst : ExtBlob F) {b c : Nat} {v : F}
    (wide : 1 ≤ src.dim 3) (high : 1 ≤ src.dim 2) (columns : 1 ≤ dst.dim 3) (rows : 1 ≤ dst.dim 2)
    (known : impl.type = nearestType ∨ impl.type = linearType) (image : b < src.dim 0)
    (channel : c < src.dim 1)
    (constant : ConstantChannel src.data (src.dim 3) (src.dim 2) (src.dim 1) b c v) :
    KeepsChannel (src.dim 3) (src.dim 2) (dst.dim 3) (dst.dim 2) (src.dim 1) b c v
        (execute impl src dst) ↔
      (impl.type = nearestType ∧ nearestIndex (src.dim 3) (factorX src dst) (factorY src dst)
        (dst.dim 2 - 1) (dst.dim 3 - 1) < src.dim 2 * src.dim 3) ∨
      (impl.type = linearType ∧
        (v = 0 ∨ FactorsFit (factorX src dst) (factorY src dst) (antialiased impl src dst))) := by
  have other : nearestType ≠ linearType := by decide
  rcases known with nearest | linear
  · rw [nearest_kept_iff wide high columns rows image channel constant nearest]
    simp only [nearest,other,true_and,false_and,or_false]
  · rw [linear_kept_iff wide high columns rows image channel constant linear]
    simp only [linear,other.symm,true_and,false_and,false_or]

def image (height width : Nat) (value : Rat) : ExtBlob Rat := ⟨[1,1,height,width],fun _ => value⟩

theorem channel_kept_halved : KeepsChannel 4 4 2 2 1 0 0 (5 : Rat)
    (execute ⟨linearType,true⟩ (image 4 4 5) (image 2 2 0)) := by
  apply (channel_kept_iff ⟨linearType,true⟩ (image 4 4 5) (image 2 2 0) (by decide) (by decide)
    (by decide) (by decide) (.inr rfl) Nat.one_pos Nat.one_pos fun _ _ => rfl).mpr
  refine .inr ⟨rfl,.inr ?_⟩
  norm_num [FactorsFit,antialiased,support,factorX,factorY,image,ExtBlob.dim]

/-- Of a row of three pixels NEAREST reads the row below; of a column LINEAR reaches none. -/
theorem channel_not_kept :
    ¬KeepsChannel 3 1 1 1 1 0 0 (5 : Rat)
        (execute ⟨nearestType,false⟩ (image 1 3 5) (image 1 1 0)) ∧
      ¬KeepsChannel 1 3 1 1 1 0 0 (5 : Rat)
        (execute ⟨linearType,false⟩ (image 3 1 5) (image 1 1 0)) := by
  constructor
  · intro keeps
    have inside := keeps.within (0,3) (by decide +kernel) rfl
    exact absurd inside.2 (by decide)
  · intro keeps
    have pixel := keeps.constant 0 0 Nat.one_pos Nat.one_pos
    exact absurd pixel (by decide +kernel)

end VideoAnalytics.Resample
