import VideoAnalytics.Dft
import VideoAnalytics.TrackerUpdate

/-! The sizes behind a tracker's features: from the region to the template, its
patch of cells, the Hanning windows and the tables of the DFT. -/
namespace VideoAnalytics.Tracker
open Dft

def padding : Rat := 5 / 2

def templateSize : Rat := 96

/-- A division of floats, without a result for a divisor of 0. -/
def quotient (dividend divisor : Rat) : Option Rat :=
  if divisor = 0 then none else some (dividend / divisor)

structure Template where
  scale : Rat
  tmplSz : Size
  deriving DecidableEq, Repr

/-- Round to cell size and also make it even. -/
def roundToCells (side : Int) : Int := side.tdiv (2 * cellSize) * 2 * cellSize + cellSize * 2

/-- The scale and the template of getFeatures with inithann. -/
def getTemplate (conversion : IntConversion) (roi : Rect2d) : Option Template := do
  let padded_w := conversion.toInt (roi.width * padding)
  let padded_h := conversion.toInt (roi.height * padding)
  let scale : Rat := if padded_w ≥ padded_h then padded_w / templateSize else padded_h / templateSize
  let width ← quotient padded_w scale
  let height ← quotient padded_h scale
  some {scale := scale
        tmplSz := ⟨roundToCells (conversion.toInt width),roundToCells (conversion.toInt height)⟩}

/-- size_patch[0] and size_patch[1]: the cells of the map that getFeatureMaps_gpu
allocates, by row and by column. -/
def sizePatch (tmplSz : Size) : Int × Int :=
  (tmplSz.height.tdiv cellSize - 2,tmplSz.width.tdiv cellSize - 2)

/-- Where gpu_gaussianCorrelation puts the bytes of itab. -/
def tableAddresses (pitch : Nat) : List Nat := (List.range pitch).map fun i => 64 * 4 + i

section Usable

variable {D F : Type} [FloatType D] (math : Math D F)

/-- One of the windows of createHanningMats. -/
def hanning (cols : Nat) : Option (List F) :=
  (List.range cols).mapM fun i =>
    let divisor := (cols : Int) - 1
    if divisor = 0 then none
    else
      let angle : D := numeral 2 * math.pi * numeral i / numeral divisor
      some (math.toFloat (numeral 1 / numeral 2 * (numeral 1 - math.cos angle)))

/-- What the consumers of a side of the patch rely on. -/
structure UsableSide (side : Int) : Prop where
  even : side % 2 = 0
  least : 2 ≤ side
  most : side ≤ 24
  window : (hanning math side.toNat).isSome
  itab : ∀ write ∈ itabWrites side.toNat (dftFactorize side.toNat), 0 ≤ write.1 ∧ write.1 ≤ 31
  wave : ∀ write ∈ waveWrites math side.toNat (dftFactorize side.toNat),
    0 ≤ write.1 ∧ write.1 ≤ 63
  slot : ∀ address ∈ tableAddresses side.toNat, 64 * 4 ≤ address ∧ address < 64 * 4 + 32

/-- The template of a region exists, without a division by zero, and both sides
of its patch are usable. -/
def UsableUnder (conversion : IntConversion) (roi : Rect) : Prop :=
  ∃ template, getTemplate conversion roi.toRect2d = some template ∧
    UsableSide math (sizePatch template.tmplSz).1 ∧
    UsableSide math (sizePatch template.tmplSz).2

/-- Usable whatever the conversion makes of what int has no value for. -/
def Usable (roi : Rect) : Prop := ∀ conversion, UsableUnder math conversion roi

def padded (side : Int) : Int := 5 * side / 2

/-- Neither of the two padded sides is 0 or more than twelve times the other. -/
def InProportion (across down : Int) : Prop :=
  0 < across ∧ across ≤ 12 * down ∧ down ≤ 12 * across

/-- The padded sides are in proportion, and int has their values. -/
structure Proportionate (roi : Rect) : Prop where
  sides : InProportion (padded roi.width) (padded roi.height)
  width : padded roi.width ≤ 2147483647
  height : padded roi.height ≤ 2147483647

private theorem mapM_isSome {α β : Type} (values : List α) (f : α → Option β)
    (each : ∀ value ∈ values, (f value).isSome) : (values.mapM f).isSome := by
  induction values with
  | nil => rfl
  | cons value rest ih =>
    obtain ⟨first,found⟩ := Option.isSome_iff_exists.mp (each value List.mem_cons_self)
    obtain ⟨others,follow⟩ := Option.isSome_iff_exists.mp
      (ih fun other member => each other (List.mem_cons_of_mem _ member))
    simp [List.mapM_cons,found,follow]

private theorem hanning_isSome (cols : Nat) (several : cols ≠ 1) : (hanning math cols).isSome := by
  apply mapM_isSome
  intro i _
  have divisor : (cols : Int) - 1 ≠ 0 := by omega
  simp [divisor]

private theorem usableSide_iff (side : Int) (even : side % 2 = 0) (most : side ≤ 24) :
    UsableSide math side ↔ 2 ≤ side := by
  constructor
  · intro usable
    exact usable.least
  · intro least
    have itab := itabWrites_range side.toNat (by omega) (by omega)
    have wave := waveWrites_range math side.toNat (dftFactorize side.toNat)
    refine ⟨even,least,most,hanning_isSome math _ (by omega),?_,?_,?_⟩
    · intro write member
      have range := itab.1 write member
      omega
    · intro write member
      have range := wave write member
      omega
    · intro address member
      obtain ⟨i,below,rfl⟩ := List.mem_map.mp member
      have range := List.mem_range.mp below
      omega

end Usable

private theorem truncate_div (dividend divisor : Int) (sign : 0 ≤ dividend)
    (positive : 0 < divisor) : truncate ((dividend : Rat) / divisor) = dividend / divisor := by
  have cast : (0 : Rat) < divisor := by exact_mod_cast positive
  have numerator : (0 : Rat) ≤ dividend := by exact_mod_cast sign
  rw [truncate_of_nonneg _ (div_nonneg numerator cast.le)]
  lift divisor to Nat using positive.le
  exact Rat.floor_intCast_div_natCast dividend divisor

private theorem truncate_padding (side : Int) (sign : 0 ≤ side) :
    truncate (side * padding) = padded side := by
  have quotient := truncate_div (5 * side) 2 (by omega) (by omega)
  have same : (side : Rat) * padding = ((5 * side : Int) : Rat) / (2 : Int) := by
    unfold padding
    push_cast
    ring
  rw [same,quotient]
  rfl

private theorem patch_side (length : Int) (sign : 0 ≤ length) :
    (roundToCells length).tdiv cellSize - 2 = 2 * (length / 8) := by
  unfold roundToCells cellSize
  rw [Int.tdiv_eq_ediv_of_nonneg sign,Int.tdiv_eq_ediv_of_nonneg (by omega)]
  omega

/-- The cells along a padded side, of which the larger one is given. -/
def cells (larger side : Int) : Int := 2 * (96 * side / larger / 8)

private theorem cells_even (larger side : Int) : cells larger side % 2 = 0 := by
  unfold cells
  omega

private theorem cells_le {larger side : Int} (positive : 0 < larger) (below : side ≤ larger) :
    cells larger side ≤ 24 := by
  have length : 96 * side / larger ≤ 96 := Int.ediv_le_of_le_mul positive (by omega)
  unfold cells
  omega

private theorem two_le_cells {larger side : Int} (positive : 0 < larger) :
    2 ≤ cells larger side ↔ larger ≤ 12 * side := by
  have length := Int.le_ediv_iff_mul_le (a := 8) (b := 96 * side) positive
  unfold cells
  omega

section Template

variable (conversion : IntConversion) {roi : Rect2d} {across down : Int}

/-- A padded side, scaled to the template. -/
theorem quotient_scale {side larger : Int} (sign : 0 ≤ side) (below : side ≤ larger)
    (positive : 0 < larger) : ∃ length, quotient side (larger / templateSize) = some length ∧
      conversion.toInt length = 96 * side / larger := by
  have cast : (0 : Rat) < larger := by exact_mod_cast positive
  have divisor : (larger : Rat) / templateSize ≠ 0 := by
    unfold templateSize
    positivity
  have length : (side : Rat) / (larger / templateSize) = ((96 * side : Int) : Rat) / larger := by
    unfold templateSize
    push_cast
    field_simp
  have low : 0 ≤ 96 * side / larger := Int.ediv_nonneg (by omega) positive.le
  have high : 96 * side / larger ≤ 96 := Int.ediv_le_of_le_mul positive (by omega)
  refine ⟨_,if_neg divisor,?_⟩
  rw [length,conversion.truncates _ _,truncate_div _ _ (by omega) positive]
  rw [truncate_div _ _ (by omega) positive]
  exact ⟨by omega,by omega⟩

variable (first : conversion.toInt (roi.width * padding) = across)
  (second : conversion.toInt (roi.height * padding) = down)

include first second

private theorem getTemplate_scale : getTemplate conversion roi =
    (quotient across ((max across down : Int) / templateSize)).bind fun width =>
      (quotient down ((max across down : Int) / templateSize)).bind fun height =>
        some ⟨(max across down : Int) / templateSize,
          ⟨roundToCells (conversion.toInt width),roundToCells (conversion.toInt height)⟩⟩ := by
  have scale : (if across ≥ down then (across : Rat) / templateSize
      else down / templateSize) = (max across down : Int) / templateSize := by
    split
    · next wider => rw [max_eq_left wider]
    · next taller => rw [max_eq_right (by omega)]
  simp only [getTemplate,first,second,scale]
  rfl

theorem getTemplate_none (empty : max across down = 0) : getTemplate conversion roi = none := by
  rw [getTemplate_scale conversion first second]
  simp [quotient,empty]

theorem getTemplate_some (nonneg : 0 ≤ across) (other : 0 ≤ down) (positive : 0 < max across down) :
    ∃ template, getTemplate conversion roi = some template ∧
      template.scale = (max across down : Int) / templateSize ∧
      sizePatch template.tmplSz = (cells (max across down) down,cells (max across down) across) := by
  obtain ⟨_,wide,columns⟩ := quotient_scale conversion nonneg (le_max_left across down) positive
  obtain ⟨_,high,rows⟩ := quotient_scale conversion other (le_max_right across down) positive
  rw [getTemplate_scale conversion first second,wide,high]
  refine ⟨_,rfl,rfl,?_⟩
  unfold sizePatch
  dsimp only
  rw [columns,rows,patch_side _ (by positivity),patch_side _ (by positivity)]
  rfl

end Template

/-- Whatever the conversion makes of the padded sides, a template of them is usable if
and only if they are in proportion. -/
theorem usableUnder_iff {D F : Type} [FloatType D] (math : Math D F)
    (conversion : IntConversion) (roi : Rect) {across down : Int}
    (width : conversion.toInt (roi.width * padding) = across)
    (height : conversion.toInt (roi.height * padding) = down)
    (nonneg : 0 ≤ across) (other : 0 ≤ down) :
    UsableUnder math conversion roi ↔ InProportion across down := by
  have first : conversion.toInt (roi.toRect2d.width * padding) = across := width
  have second : conversion.toInt (roi.toRect2d.height * padding) = down := height
  rcases lt_or_ge 0 (max across down) with positive | empty
  · obtain ⟨template,found,_,patch⟩ :=
      getTemplate_some conversion first second nonneg other positive
    have usable : UsableUnder math conversion roi ↔
        2 ≤ cells (max across down) down ∧ 2 ≤ cells (max across down) across := by
      rw [← usableSide_iff math _ (cells_even _ down) (cells_le positive (le_max_right ..)),
        ← usableSide_iff math _ (cells_even _ across) (cells_le positive (le_max_left ..))]
      simp [UsableUnder,found,patch]
    rw [usable,two_le_cells positive,two_le_cells positive]
    unfold InProportion
    omega
  · have none := getTemplate_none conversion first second (by omega)
    have unusable : ¬UsableUnder math conversion roi := by simp [UsableUnder,none]
    refine iff_of_false unusable ?_
    unfold InProportion
    omega

/-- In the range of int, a padded side is what the conversion makes of it. -/
theorem toInt_padding (conversion : IntConversion) {side : Int} (sign : 0 ≤ side)
    (small : padded side ≤ 2147483647) : conversion.toInt (side * padding) = padded side := by
  have within : InIntRange (truncate (side * padding)) := by
    rw [truncate_padding side sign]
    unfold padded at small ⊢
    exact ⟨by omega,small⟩
  rw [conversion.truncates _ within,truncate_padding side sign]

/-- A conversion that answers 0 for what int has no value for gives some value that is not
negative to every padded side, and 0 to those beyond the range. -/
theorem answering_padding {side : Int} (sign : 0 ≤ side) :
    0 ≤ (answering 0).toInt (side * padding) ∧
      (2147483647 < padded side → (answering 0).toInt (side * padding) = 0) := by
  by_cases small : padded side ≤ 2147483647
  · rw [toInt_padding _ sign small]
    unfold padded at small ⊢
    omega
  · have outside : ¬InIntRange (truncate (side * padding)) := by
      rw [truncate_padding side sign]
      exact fun within => small within.2
    rw [answering_beyond outside]
    simp

/-- The template geometry of an accepted region is usable if and only if the
region is proportionate. -/
theorem template_usable_iff {D F : Type} [FloatType D] (math : Math D F)
    (roi : Rect) (accepted : (KCFTracker.init roi).isSome) :
    Usable math roi ↔ Proportionate roi := by
  obtain ⟨width,height⟩ : roi.width ≥ 0 ∧ roi.height ≥ 0 := by
    by_contra negative
    simp [KCFTracker.init,negative] at accepted
  constructor
  · intro usable
    obtain ⟨nonneg,beyond⟩ := answering_padding width
    obtain ⟨other,below⟩ := answering_padding height
    have answered := (usableUnder_iff math (answering 0) roi rfl rfl nonneg other).mp
      (usable (answering 0))
    have across : padded roi.width ≤ 2147483647 := by
      by_contra large
      rw [beyond (by omega)] at answered
      exact absurd answered.1 (lt_irrefl 0)
    have down : padded roi.height ≤ 2147483647 := by
      by_contra large
      have none := answered.2.1
      rw [below (by omega)] at none
      have positive := answered.1
      omega
    rw [toInt_padding _ width across,toInt_padding _ height down] at answered
    exact ⟨answered,across,down⟩
  · intro proportionate conversion
    have across := toInt_padding conversion width proportionate.width
    have down := toInt_padding conversion height proportionate.height
    rw [usableUnder_iff math conversion roi across down (by unfold padded; omega)
      (by unfold padded; omega)]
    exact proportionate.sides

theorem template_usable_square : Usable doubleMath ⟨0,0,40,40⟩ :=
  (template_usable_iff doubleMath ⟨0,0,40,40⟩ (by decide)).mpr
    ⟨by unfold InProportion; decide,by decide,by decide⟩

/-- A region of 100 by 8 has a patch of 24 by 0. -/
theorem template_unusable :
    (KCFTracker.init ⟨0,0,100,8⟩).isSome ∧ ¬Usable doubleMath ⟨0,0,100,8⟩ ∧
      (getTemplate cvttss2si (Rect.mk 0 0 100 8).toRect2d).map
        (fun template => sizePatch template.tmplSz) = some (0,24) ∧
      getTemplate cvttss2si (Rect.mk 0 0 0 0).toRect2d = none := by
  have geometry : (getTemplate cvttss2si (Rect.mk 0 0 100 8).toRect2d).map
      (fun template => sizePatch template.tmplSz) = some (0,24) := by
    decide +kernel
  refine ⟨by decide,?_,geometry,by decide +kernel⟩
  intro usable
  obtain ⟨template,found,rows,columns⟩ := usable cvttss2si
  rw [found] at geometry
  simp only [Option.map_some,Option.some.injEq] at geometry
  have least := rows.least
  rw [geometry] at least
  omega

end VideoAnalytics.Tracker
