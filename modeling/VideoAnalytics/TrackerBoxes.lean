import VideoAnalytics.Tracker
import Mathlib.Tactic.Linarith
import Mathlib.Tactic.Positivity
import Mathlib.Data.Rat.Floor

/-! Which detections the clamps of InsertImage make fit for a tracker. -/
namespace VideoAnalytics.Tracker

section Truncation

theorem truncate_of_nonneg (value : Rat) (sign : 0 ≤ value) : truncate value = ⌊value⌋ := by
  unfold truncate
  rw [Int.tdiv_eq_ediv_of_nonneg (Rat.num_nonneg.mpr sign),Rat.floor_def']

private theorem truncate_neg (value : Rat) : truncate (-value) = -truncate value := by
  unfold truncate
  rw [Rat.num_neg_eq_neg_num,Rat.den_neg_eq_den,Int.neg_tdiv]

private theorem truncate_of_neg (value : Rat) (sign : value < 0) : truncate value = ⌈value⌉ := by
  have opposite := truncate_of_nonneg (-value) (by linarith)
  rw [truncate_neg,Int.floor_neg] at opposite
  omega

private theorem truncate_nonneg_iff (value : Rat) : 0 ≤ truncate value ↔ -1 < value := by
  rcases lt_or_ge value 0 with sign | sign
  · have bound := Int.lt_ceil (a := value) (z := -1)
    rw [truncate_of_neg value sign]
    push_cast at bound
    rw [← bound]
    omega
  · rw [truncate_of_nonneg value sign]
    have floor := Int.floor_nonneg.mpr sign
    constructor
    · intro _
      linarith
    · intro _
      exact floor

private theorem truncate_lt_iff (value : Rat) (limit : Int) (positive : 1 ≤ limit) :
    truncate value < limit ↔ value < limit := by
  have cast : (1 : Rat) ≤ limit := by exact_mod_cast positive
  rcases lt_or_ge value 0 with sign | sign
  · rw [truncate_of_neg value sign]
    have small := Int.ceil_le.mpr (show value ≤ ((0 : Int) : Rat) by push_cast; linarith)
    constructor
    · intro _
      linarith
    · intro _
      omega
  · rw [truncate_of_nonneg value sign]
    exact Int.floor_lt

private theorem truncate_mono (low high : Rat) (ordered : low ≤ high) :
    truncate low ≤ truncate high := by
  rcases lt_or_ge low 0 with sign | sign
  · rcases lt_or_ge high 0 with other | other
    · rw [truncate_of_neg low sign,truncate_of_neg high other]
      exact Int.ceil_mono ordered
    · have floor := Int.floor_nonneg.mpr other
      have small := Int.ceil_le.mpr (show low ≤ ((0 : Int) : Rat) by push_cast; linarith)
      rw [truncate_of_neg low sign,truncate_of_nonneg high other]
      omega
  · rw [truncate_of_nonneg low sign,truncate_of_nonneg high (by linarith)]
    exact Int.floor_mono ordered

private theorem inIntRange_iff (value : Rat) :
    InIntRange (truncate value) ↔ -2 ^ 31 - 1 < value ∧ value < 2 ^ 31 := by
  have above := truncate_lt_iff value 2147483648 (by decide)
  have below := truncate_lt_iff (-value) 2147483649 (by decide)
  rw [truncate_neg] at below
  push_cast at above below
  unfold InIntRange
  constructor
  · rintro ⟨least,greatest⟩
    have first := below.mp (by omega)
    have second := above.mp (by omega)
    constructor
    · linarith
    · linarith
  · rintro ⟨least,greatest⟩
    have first := below.mpr (by linarith)
    have second := above.mpr (by linarith)
    constructor
    · omega
    · omega

end Truncation

private theorem toFloat_nonneg {value : Rat} (sign : 0 ≤ value) : 0 ≤ toFloat value :=
  BinaryFormat.round_nonneg _ sign

private theorem floatTimes_nonneg {value : Rat} {factor : Int} (sign : 0 ≤ value)
    (positive : 0 ≤ factor) : 0 ≤ floatTimes value factor := by
  have cast : (0 : Rat) ≤ factor := by exact_mod_cast positive
  exact toFloat_nonneg (mul_nonneg sign (toFloat_nonneg cast))

private theorem floatTimes_mono {low high : Rat} {factor : Int} (ordered : low ≤ high)
    (positive : 0 ≤ factor) : floatTimes low factor ≤ floatTimes high factor := by
  have cast : (0 : Rat) ≤ factor := by exact_mod_cast positive
  exact BinaryFormat.round_mono _ (mul_le_mul_of_nonneg_right ordered (toFloat_nonneg cast))

def clampLow (first : Int) : Int := if first < 0 then 0 else first

def clampHigh (size last : Int) : Int := if last ≥ size then size - 1 else last

/-- The first and the last pixel along an axis. -/
structure Ends (size first last : Int) : Prop where
  nonneg : 0 ≤ first
  ordered : first ≤ last
  within : last ≤ size - 1

/-- The coordinates, scaled in float, do not lie beyond the image on either side,
and int has their values. -/
structure Reaches (low high : Rat) (size : Int) : Prop where
  first : -2 ^ 31 - 1 < floatTimes low size ∧ floatTimes low size < size
  last : -1 < floatTimes high size ∧ floatTimes high size < 2 ^ 31

instance (low high : Rat) (size : Int) : Decidable (Reaches low high size) :=
  decidable_of_iff ((-2 ^ 31 - 1 < floatTimes low size ∧ floatTimes low size < size) ∧
    (-1 < floatTimes high size ∧ floatTimes high size < 2 ^ 31))
    ⟨fun both => ⟨both.1,both.2⟩,fun reaches => ⟨reaches.first,reaches.last⟩⟩

/-- A conversion with a given answer beyond the range of int. -/
def answering (beyond : Int) : IntConversion where
  toInt value := if InIntRange (truncate value) then truncate value else beyond
  truncates _ within := if_pos within

theorem answering_beyond {beyond : Int} {value : Rat} (outside : ¬InIntRange (truncate value)) :
    (answering beyond).toInt value = beyond := if_neg outside

section Axis

variable {low high : Rat} {size : Int}

private theorem Reaches.ranges (reaches : Reaches low high size) (positive : 1 ≤ size)
    (ordered : low ≤ high) : InIntRange (truncate (floatTimes low size)) ∧
      InIntRange (truncate (floatTimes high size)) := by
  have monotone := floatTimes_mono ordered (show 0 ≤ size by omega)
  have first := reaches.first
  have last := reaches.last
  rw [inIntRange_iff,inIntRange_iff]
  refine ⟨⟨first.1,by linarith⟩,⟨?_,last.2⟩⟩
  linarith

/-- In range, the clamps give an interval of pixels unless the coordinates lie
beyond the image. -/
theorem clamps_truncated_iff (positive : 1 ≤ size) (ordered : low ≤ high) :
    Ends size (clampLow (truncate (floatTimes low size)))
        (clampHigh size (truncate (floatTimes high size))) ↔
      floatTimes low size < size ∧ -1 < floatTimes high size := by
  have monotone := truncate_mono _ _ (floatTimes_mono ordered (show 0 ≤ size by omega))
  rw [← truncate_lt_iff _ size positive,← truncate_nonneg_iff]
  unfold clampLow clampHigh
  constructor
  · rintro ⟨nonneg,ends,within⟩
    split at ends <;> split at ends <;> omega
  · rintro ⟨before,after⟩
    refine ⟨?_,?_,?_⟩ <;> split_ifs <;> omega

/-- Under every conversion the clamps give an interval of pixels, if and only if
the coordinates do not lie beyond the image or the range of int. -/
theorem clamps_iff (positive : 1 ≤ size) (ordered : low ≤ high) :
    (∀ conversion : IntConversion, Ends size (clampLow (conversion.toInt (floatTimes low size)))
        (clampHigh size (conversion.toInt (floatTimes high size)))) ↔ Reaches low high size := by
  constructor
  · intro all
    have last_range : InIntRange (truncate (floatTimes high size)) := by
      by_contra outside
      have ends := all (answering (-1))
      rw [answering_beyond outside] at ends
      have nonneg := ends.nonneg.trans ends.ordered
      unfold clampHigh at nonneg
      split at nonneg <;> omega
    have first_range : InIntRange (truncate (floatTimes low size)) := by
      by_contra outside
      have ends := all (answering size)
      rw [answering_beyond outside] at ends
      have small := ends.ordered.trans ends.within
      unfold clampLow at small
      split at small <;> omega
    have ends := all cvttss2si
    rw [cvttss2si.truncates _ first_range,cvttss2si.truncates _ last_range,
      clamps_truncated_iff positive ordered] at ends
    rw [inIntRange_iff] at first_range last_range
    exact ⟨⟨first_range.1,ends.1⟩,⟨ends.2,last_range.2⟩⟩
  · intro reaches conversion
    obtain ⟨first_range,last_range⟩ := reaches.ranges positive ordered
    rw [conversion.truncates _ first_range,conversion.truncates _ last_range,
      clamps_truncated_iff positive ordered]
    exact ⟨reaches.first.2,reaches.last.1⟩

end Axis

/-- In float, a hundredth left of an image of a hundred pixels is a pixel left of it. -/
example : floatTimes (toFloat (-1 / 100)) 100 = -1 ∧
    ¬Reaches (toFloat (-1 / 100)) (toFloat (-1 / 100)) 100 := by decide +kernel

structure Within (imgsize : Size) (box : Resultbox) : Prop where
  horizontal : Ends imgsize.width box.left box.right
  vertical : Ends imgsize.height box.top box.bottom

/-- From the first to the last pixel inside the image. -/
def extent (low high : Rat) (size : Int) : Int :=
  min (truncate (floatTimes high size)) (size - 1) - max (truncate (floatTimes low size)) 0

private theorem extent_eq (low high : Rat) (size : Int) :
    clampHigh size (truncate (floatTimes high size)) - clampLow (truncate (floatTimes low size)) =
      extent low high size := by
  unfold extent clampHigh clampLow
  split <;> split <;> omega

private theorem toInt_nonneg (saturate : SaturateCast) (value : Rat) (sign : 0 ≤ value)
    (small : value ≤ 2 ^ 31 - 1) : 0 ≤ saturate.toInt value := by
  have near := saturate.nearest value (by rw [abs_of_nonneg sign]; exact small)
  have bound := (abs_le.mp near).1
  have above : (-1 : Rat) < (saturate.toInt value : Rat) := by linarith
  have integer : (-1 : Int) < saturate.toInt value := by exact_mod_cast above
  omega

/-- A conversion that answers -1 beyond the range of int. -/
def wrapping : SaturateCast where
  toInt value := if |value| ≤ 2 ^ 31 - 1 then round value else -1
  nearest value small := by
    rw [if_pos small,abs_sub_comm]
    exact abs_sub_round value

/-- A region passes the assertion under every conversion if and only if its
extent fits an int. -/
theorem toInt_nonneg_iff (value : Rat) (sign : 0 ≤ value) :
    (∀ saturate : SaturateCast, 0 ≤ saturate.toInt value) ↔ value ≤ 2 ^ 31 - 1 := by
  constructor
  · intro all
    by_contra large
    have answer := all wrapping
    unfold wrapping at answer
    simp only [abs_of_nonneg sign,large,if_false] at answer
    omega
  · intro small saturate
    exact toInt_nonneg saturate value sign small

private theorem init_iff (roi : Rect2d) (width : 0 ≤ roi.width) (height : 0 ≤ roi.height) :
    (∀ saturate, (KCFTracker.init (roi.toRect saturate)).isSome) ↔
      roi.width ≤ 2 ^ 31 - 1 ∧ roi.height ≤ 2 ^ 31 - 1 := by
  rw [← toInt_nonneg_iff _ width,← toInt_nonneg_iff _ height,← forall_and]
  apply forall_congr'
  intro saturate
  simp [KCFTracker.init,Rect2d.toRect]

/-- A side of the region of a box, with the factor computed in float. -/
def scaledSide (raw : Nat) (side : Int) : Rat := floatTimes (toFloat (toFloat (raw : Int) / 304)) side

private theorem scaledSide_nonneg (raw : Nat) {side : Int} (sign : 0 ≤ side) :
    0 ≤ scaledSide raw side := by
  have cast : (0 : Rat) ≤ ((raw : Int) : Rat) := by positivity
  exact floatTimes_nonneg (toFloat_nonneg (div_nonneg (toFloat_nonneg cast) (by norm_num))) sign

section Region

variable (output : Nat → Rat) (result : Nat) (imgsize : Size) (rawWidth rawHeight : Nat)

def RecordReaches : Prop :=
  Reaches (output (result + 3)) (output (result + 5)) imgsize.width ∧
    Reaches (output (result + 4)) (output (result + 6)) imgsize.height

instance : Decidable (RecordReaches output result imgsize) :=
  inferInstanceAs (Decidable (_ ∧ _))

variable {output result imgsize}

private theorem within_iff (wide : 1 ≤ imgsize.width) (high : 1 ≤ imgsize.height)
    (horizontal : output (result + 3) ≤ output (result + 5))
    (vertical : output (result + 4) ≤ output (result + 6)) :
    (∀ conversion, Within imgsize (convertedBox conversion output result imgsize)) ↔
      RecordReaches output result imgsize := by
  have columns := clamps_iff wide horizontal
  have rows := clamps_iff high vertical
  unfold RecordReaches
  rw [← columns,← rows,← forall_and]
  apply forall_congr'
  intro conversion
  exact ⟨fun inside => ⟨inside.horizontal,inside.vertical⟩,fun both => ⟨both.1,both.2⟩⟩

/-- The region of a box that reaches the image is that of the truncated products. -/
theorem region_sides (wide : 1 ≤ imgsize.width) (high : 1 ≤ imgsize.height)
    (horizontal : output (result + 3) ≤ output (result + 5))
    (vertical : output (result + 4) ≤ output (result + 6))
    (reaches : RecordReaches output result imgsize) (conversion : IntConversion) :
    (boundingBox rawWidth rawHeight (convertedBox conversion output result imgsize)).width =
        scaledSide rawWidth (extent (output (result + 3)) (output (result + 5)) imgsize.width) ∧
      (boundingBox rawWidth rawHeight (convertedBox conversion output result imgsize)).height =
        scaledSide rawHeight (extent (output (result + 4)) (output (result + 6)) imgsize.height) := by
  obtain ⟨left,right⟩ := reaches.1.ranges wide horizontal
  obtain ⟨top,bottom⟩ := reaches.2.ranges high vertical
  have truncates := conversion.truncates
  rw [← extent_eq,← extent_eq,← truncates _ left,← truncates _ right,← truncates _ top,
    ← truncates _ bottom]
  exact ⟨rfl,rfl⟩

private theorem region_nonneg {box : Resultbox} (inside : Within imgsize box) :
    0 ≤ (boundingBox rawWidth rawHeight box).width ∧
      0 ≤ (boundingBox rawWidth rawHeight box).height :=
  ⟨scaledSide_nonneg rawWidth (sub_nonneg.mpr inside.horizontal.ordered),
    scaledSide_nonneg rawHeight (sub_nonneg.mpr inside.vertical.ordered)⟩

end Region

/-- Under every conversion of what int has no value for, the box of a record is
within the image and its region passes the assertion of KCFTracker::init, if and
only if the record does not lie beyond the image or the range of int and the
region is not too large for an int. -/
theorem box_trackable_iff (output : Nat → Rat) (result : Nat) (imgsize : Size)
    (rawWidth rawHeight : Nat) (wide : 1 ≤ imgsize.width) (high : 1 ≤ imgsize.height)
    (horizontal : output (result + 3) ≤ output (result + 5))
    (vertical : output (result + 4) ≤ output (result + 6)) :
    (∀ conversion : IntConversion,
      let box := convertedBox conversion output result imgsize
      let roi := boundingBox rawWidth rawHeight box
      Within imgsize box ∧ 0 ≤ roi.width ∧ 0 ≤ roi.height ∧
        ∀ saturate, (KCFTracker.init (roi.toRect saturate)).isSome) ↔
      RecordReaches output result imgsize ∧
        scaledSide rawWidth (extent (output (result + 3)) (output (result + 5)) imgsize.width) ≤
          2 ^ 31 - 1 ∧
        scaledSide rawHeight (extent (output (result + 4)) (output (result + 6)) imgsize.height) ≤
          2 ^ 31 - 1 := by
  have within := within_iff wide high horizontal vertical
  have sides := region_sides rawWidth rawHeight wide high horizontal vertical
  constructor
  · intro all
    have reaches := within.mp fun conversion => (all conversion).1
    obtain ⟨width,height⟩ := sides reaches cvttss2si
    obtain ⟨inside,across,down,accepted⟩ := all cvttss2si
    have fits := (init_iff _ across down).mp accepted
    rw [width,height] at fits
    exact ⟨reaches,fits⟩
  · rintro ⟨reaches,fits⟩ conversion
    have inside := within.mpr reaches conversion
    obtain ⟨across,down⟩ := region_nonneg rawWidth rawHeight inside
    obtain ⟨width,height⟩ := sides reaches conversion
    rw [← width,← height] at fits
    exact ⟨inside,across,down,(init_iff _ across down).mpr fits⟩

def middleRecord : Nat → Rat := fun i => [0,1,1,1 / 4,1 / 4,3 / 4,3 / 4].getD i 0

theorem box_trackable_iff_middle :
    resultboxOf middleRecord 0 ⟨304,304⟩ = ⟨1,1,76,228,76,228⟩ ∧
    Within ⟨304,304⟩ (resultboxOf middleRecord 0 ⟨304,304⟩) ∧
      ∀ saturate, (KCFTracker.init ((boundingBox 1920 1080
        (resultboxOf middleRecord 0 ⟨304,304⟩)).toRect saturate)).isSome := by
  have trackable := (box_trackable_iff middleRecord 0 ⟨304,304⟩ 1920 1080 (by decide) (by decide)
    (by decide +kernel) (by decide +kernel)).mpr (by decide +kernel) cvttss2si
  exact ⟨by decide +kernel,trackable.1,trackable.2.2.2⟩

def rightRecord : Nat → Rat := fun i => [0,1,1,2,0,3,1 / 2].getD i 0

/-- Its box begins right of its end, and its region fails the assertion. -/
theorem box_beyond_image :
    rightRecord 3 ≤ rightRecord 5 ∧ rightRecord 4 ≤ rightRecord 6 ∧
      (resultboxOf rightRecord 0 ⟨304,304⟩).left = 608 ∧
      (resultboxOf rightRecord 0 ⟨304,304⟩).right = 303 ∧
      ∀ saturate, KCFTracker.init ((boundingBox 304 304
        (resultboxOf rightRecord 0 ⟨304,304⟩)).toRect saturate) = none := by
  refine ⟨by decide +kernel,by decide +kernel,by decide +kernel,by decide +kernel,?_⟩
  intro saturate
  have width : (boundingBox 304 304 (resultboxOf rightRecord 0 ⟨304,304⟩)).width = -305 := by
    decide +kernel
  have near := saturate.nearest (-305) (by norm_num [abs_le])
  have below : (saturate.toInt (-305) : Rat) < 0 := by
    have bound := (abs_le.mp near).2
    linarith
  have negative : ¬saturate.toInt (-305) ≥ 0 := by
    have integer : saturate.toInt (-305) < 0 := by exact_mod_cast below
    omega
  simp [KCFTracker.init,Rect2d.toRect,width,negative]

end VideoAnalytics.Tracker
