import VideoAnalytics.TrackerFeatures
import VideoAnalytics.TrackerSpectra
import Mathlib.Tactic.Linarith
import Mathlib.Tactic.Positivity

/-! KCFTracker::detect in exact arithmetic: the response of the filter, its peak, and what
the peak makes of the region of a tracker. The kernel on the GPU is one for all relative
shifts; minMaxLoc finds some place of the greatest value. -/
namespace VideoAnalytics.Tracker
open Fourier

variable {rows cols : Nat} {F : Type}

structure MinMaxLoc (rows cols : Nat) (F : Type) [LE F] where
  maxLoc : CvMat rows cols F → Position rows cols
  greatest : ∀ (res : CvMat rows cols F) p, res p ≤ res (maxLoc res)

/-- The point that detect returns, and its peak_value. -/
structure Detected (F : Type) where
  x : F
  y : F
  peakValue : F
  deriving DecidableEq, Repr

section Peak

variable [Field F] [LinearOrder F]

def subPixelPeak (left center right : F) : F :=
  let divisor := (2 : Nat) * center - right - left
  if divisor = 0 then 0 else 1 / (2 : Nat) * (right - left) / divisor

/-- One coordinate of the peak: subpixel estimation away from the borders, and the
distance from the middle. -/
def peakAxis (size pi : Nat) (left center right : F) : F :=
  let p : F := pi
  let p := if pi > 0 ∧ pi + 1 < size then p + subPixelPeak left center right else p
  p - (size / 2 : Nat)

def locate (minMaxLoc : MinMaxLoc rows cols F) (res : CvMat rows cols F) : Detected F :=
  let pi := minMaxLoc.maxLoc res
  {x := peakAxis cols pi.2.val (res (pi.1,pi.2 - 1)) (res pi) (res (pi.1,pi.2 + 1))
   y := peakAxis rows pi.1.val (res (pi.1 - 1,pi.2)) (res pi) (res (pi.1 + 1,pi.2))
   peakValue := res pi}

private theorem complexMultiplication_eq (a b : CvMat rows cols (Vec2f F))
    (p : Position rows cols) : complexMultiplication a b p = a p * b p := by
  ext
  · simp [complexMultiplication,sub_eq_add_neg]
  · simp [complexMultiplication]

section Response

variable [NeZero rows] [NeZero cols] (waves : Waves (Position rows cols) (Vec2f F))
  (kernel : ShiftKernel rows cols F) (alphaf : CvMat rows cols (Vec2f F))

def response (z x : Features rows cols F) : CvMat rows cols F :=
  let k := kernel.all x z
  real (fftdMerged waves (complexMultiplication alphaf (fftd waves k)) true)

def detect (minMaxLoc : MinMaxLoc rows cols F) (z x : Features rows cols F) : Detected F :=
  locate minMaxLoc (response waves kernel alphaf z x)

/-- The response to features that have moved on is the response moved on. -/
theorem response_moved (s : Position rows cols) (z x : Features rows cols F) :
    response waves kernel alphaf z (x.moved s) = shift s (response waves kernel alphaf z x) := by
  have product : complexMultiplication alphaf (fftd waves (kernel.all (x.moved s) z)) =
      fun u => waves.wave u (-s) *
        complexMultiplication alphaf (fftd waves (kernel.all x z)) u := by
    ext1 u
    have spectrum : fftd waves (shift s (kernel.all x z)) u =
        waves.wave u (-s) * fftd waves (kernel.all x z) u := waves.forward_shift s (merge _) u
    rw [complexMultiplication_eq,complexMultiplication_eq,kernel.all_moved,spectrum,mul_left_comm]
  unfold response
  dsimp only
  rw [product]
  exact congrArg real (waves.backward_wave s _)

end Response

/-- Along an axis, the peak does not move, or stays off the borders as it moves. -/
def Inside (size pi : Nat) (s : Int) : Prop :=
  s = 0 ∨ (0 < pi ∧ pi + 1 < size) ∧ 0 < pi + s ∧ pi + s + 1 < size

private theorem val_moved {size : Nat} [NeZero size] {p : ZMod size} {s : Int}
    (inside : Inside size p.val s) : ((p + s).val : Int) = p.val + s := by
  have low := ZMod.val_lt p
  have sum : ((p.val + s : Int) : ZMod size) = p + s := by
    push_cast
    rw [ZMod.natCast_zmod_val]
  rw [← sum,ZMod.val_intCast]
  apply Int.emod_eq_of_lt
  · unfold Inside at inside
    omega
  · unfold Inside at inside
    omega

private theorem peakAxis_moved {size : Nat} [NeZero size] {p : ZMod size} {s : Int}
    (inside : Inside size p.val s) (left center right : F) :
    peakAxis size (p + s).val left center right = peakAxis size p.val left center right + s := by
  have moved := val_moved inside
  have value : ((p + s).val : F) = p.val + s := by exact_mod_cast congrArg (Int.cast (R := F)) moved
  have off : ((p + s).val > 0 ∧ (p + s).val + 1 < size) ↔ (p.val > 0 ∧ p.val + 1 < size) := by
    unfold Inside at inside
    omega
  unfold peakAxis
  dsimp only
  simp only [off,value]
  split
  · ring
  · ring

/-- A peak that no other place reaches moves on with the response. -/
theorem maxLoc_shift (minMaxLoc : MinMaxLoc rows cols F) {res : CvMat rows cols F}
    (peak : ∀ p, p ≠ minMaxLoc.maxLoc res → res p < res (minMaxLoc.maxLoc res))
    (s : Position rows cols) : minMaxLoc.maxLoc (shift s res) = minMaxLoc.maxLoc res + s := by
  have greatest := minMaxLoc.greatest (shift s res) (minMaxLoc.maxLoc res + s)
  unfold shift at greatest ⊢
  rw [add_sub_cancel_right] at greatest
  rw [← sub_eq_iff_eq_add]
  by_contra other
  exact absurd greatest (not_le.mpr (peak _ other))

private theorem maxLoc_unique (minMaxLoc : MinMaxLoc rows cols F) {res : CvMat rows cols F}
    {pi : Position rows cols} (peak : ∀ p, p ≠ pi → res p < res pi) :
    minMaxLoc.maxLoc res = pi := by
  by_contra other
  exact absurd (minMaxLoc.greatest res pi) (not_le.mpr (peak _ other))

private theorem locate_shift [NeZero rows] [NeZero cols] (minMaxLoc : MinMaxLoc rows cols F)
    {res : CvMat rows cols F}
    (peak : ∀ p, p ≠ minMaxLoc.maxLoc res → res p < res (minMaxLoc.maxLoc res)) {sy sx : Int}
    (acrossRows : Inside rows (minMaxLoc.maxLoc res).1.val sy)
    (acrossCols : Inside cols (minMaxLoc.maxLoc res).2.val sx) :
    locate minMaxLoc (shift ((sy : ZMod rows),(sx : ZMod cols)) res) =
      {x := (locate minMaxLoc res).x + sx
       y := (locate minMaxLoc res).y + sy
       peakValue := (locate minMaxLoc res).peakValue} := by
  have columns := peakAxis_moved (F := F) acrossCols
  have lines := peakAxis_moved (F := F) acrossRows
  unfold locate
  dsimp only
  rw [maxLoc_shift minMaxLoc peak]
  unfold shift
  simp only [Prod.fst_add,Prod.snd_add,Prod.mk_sub_mk,add_sub_cancel_right,columns,lines,
    add_sub_right_comm]

/-- Features that move on by whole cells around the patch move the detected point on by as
many, as long as one place alone has the greatest response and it stays off the borders. -/
theorem detect_translates [NeZero rows] [NeZero cols] (waves : Waves (Position rows cols) (Vec2f F))
    (kernel : ShiftKernel rows cols F) (minMaxLoc : MinMaxLoc rows cols F)
    (alphaf : CvMat rows cols (Vec2f F)) (z x : Features rows cols F) (pi : Position rows cols)
    (peak : ∀ p, p ≠ pi →
      response waves kernel alphaf z x p < response waves kernel alphaf z x pi) (sy sx : Int)
    (acrossRows : Inside rows pi.1.val sy) (acrossCols : Inside cols pi.2.val sx) :
    detect waves kernel alphaf minMaxLoc z (x.moved ((sy : ZMod rows),(sx : ZMod cols))) =
      {x := (detect waves kernel alphaf minMaxLoc z x).x + sx
       y := (detect waves kernel alphaf minMaxLoc z x).y + sy
       peakValue := (detect waves kernel alphaf minMaxLoc z x).peakValue} := by
  have found := maxLoc_unique minMaxLoc peak
  subst found
  unfold detect
  rw [response_moved]
  exact locate_shift minMaxLoc peak acrossRows acrossCols

end Peak

section Bounds

variable [Field F] [LinearOrder F] [IsStrictOrderedRing F]

private theorem abs_subPixelPeak_le {left center right : F} (below : left ≤ center)
    (above : right ≤ center) : |subPixelPeak left center right| ≤ 1 / 2 := by
  unfold subPixelPeak
  simp only [Nat.cast_ofNat]
  split
  · simp
  · next nonzero =>
    have positive : 0 < 2 * center - right - left := by
      apply lt_of_le_of_ne _ (Ne.symm nonzero)
      linarith
    have sides : |right - left| ≤ 2 * center - right - left := by
      rw [abs_le]
      constructor
      · linarith
      · linarith
    rw [abs_div,abs_mul,abs_of_pos positive,div_le_iff₀ positive,abs_of_pos (by norm_num)]
    linarith

/-- A peak is found within the patch. -/
theorem abs_peakAxis_le {size pi : Nat} {left center right : F} (within : pi < size)
    (below : left ≤ center) (above : right ≤ center) :
    |peakAxis size pi left center right| ≤ (size / 2 : Nat) := by
  have half : (size : F) ≤ (size / 2 : Nat) + (size / 2 : Nat) + 1 := by
    exact_mod_cast show size ≤ size / 2 + size / 2 + 1 by omega
  have last : (pi : F) + 1 ≤ size := by exact_mod_cast within
  have first : (0 : F) ≤ pi := by positivity
  have part := abs_le.mp (abs_subPixelPeak_le below above)
  unfold peakAxis
  dsimp only
  split
  · next inner =>
    have low : (1 : F) ≤ pi := by exact_mod_cast inner.1
    have high : (pi : F) + 1 + 1 ≤ size := by exact_mod_cast inner.2
    rw [abs_le]
    constructor
    · linarith
    · linarith
  · rw [abs_le]
    constructor
    · linarith
    · linarith

private theorem locate_within [NeZero rows] [NeZero cols] (minMaxLoc : MinMaxLoc rows cols F)
    (res : CvMat rows cols F) :
    |(locate minMaxLoc res).x| ≤ (cols / 2 : Nat) ∧ |(locate minMaxLoc res).y| ≤ (rows / 2 : Nat) :=
  ⟨abs_peakAxis_le (ZMod.val_lt _) (minMaxLoc.greatest _ _) (minMaxLoc.greatest _ _),
    abs_peakAxis_le (ZMod.val_lt _) (minMaxLoc.greatest _ _) (minMaxLoc.greatest _ _)⟩

end Bounds

section Window

/-- The region as the clamps before detect leave it, and after the update. -/
structure Moved where
  before : Rect2d
  after : Rect2d
  deriving DecidableEq

/-- Updates of a tracker with the responses that its filter gives. -/
def follows (minMaxLoc : MinMaxLoc rows cols Rat) (frame : Size) :
    Machine.System KCFTracker (CvMat rows cols Rat) Moved where
  step tracker res :=
    let detected := locate minMaxLoc res
    (tracker.update frame.width frame.height ⟨detected.x,detected.y⟩).map fun next =>
      (next,[{before := {tracker.roi with
                x := clampBefore frame.width tracker.roi.width tracker.roi.x
                y := clampBefore frame.height tracker.roi.height tracker.roi.y}
              after := next.roi}])

/-- Along an axis the region moves by less than half of the window that the features are
of, or is put back onto the two first pixels of the frame. -/
def WithinWindow (window extent before after : Rat) : Prop :=
  2 * |after - before| < window ∨ |after - before| < 2 ∧ after = -extent + 2

def Moved.Within (template : Template) (moved : Moved) : Prop :=
  WithinWindow (template.scale * template.tmplSz.width) moved.before.width moved.before.x
      moved.after.x ∧
    WithinWindow (template.scale * template.tmplSz.height) moved.before.height moved.before.y
      moved.after.y

/-- Before detect, a region overlaps the frame. -/
theorem clampBefore_bounds (size : Int) (extent x : Rat) (wide : 3 ≤ size) (sign : 0 ≤ extent) :
    clampBefore size extent x < size - 1 ∧ 0 < clampBefore size extent x + extent := by
  have cast : (3 : Rat) ≤ size := by exact_mod_cast wide
  unfold clampBefore
  dsimp only
  split
  · split
    · constructor
      · linarith
      · linarith
    · constructor
      · linarith
      · linarith
  · split
    · constructor
      · linarith
      · linarith
    · constructor
      · linarith
      · linarith

private theorem clampAfter_near {size : Int} {extent before : Rat} (right : before < size - 1)
    (left : 0 < before + extent) (wide : 3 ≤ size) (distance : Rat) :
    |clampAfter size extent (before + distance) - before| ≤ |distance| ∨
      |clampAfter size extent (before + distance) - before| < 2 ∧
        clampAfter size extent (before + distance) = -extent + 2 := by
  have cast : (3 : Rat) ≤ size := by exact_mod_cast wide
  unfold clampAfter
  dsimp only
  by_cases beyond : before + distance ≥ size - 1
  · rw [if_pos beyond,if_neg (by linarith)]
    left
    rw [abs_of_pos (by linarith),abs_of_pos (by linarith)]
    linarith
  · rw [if_neg beyond]
    by_cases short : before + distance + extent ≤ 0
    · rw [if_pos short]
      by_cases near : before < -extent + 4
      · right
        refine ⟨?_,rfl⟩
        rw [abs_lt]
        constructor
        · linarith
        · linarith
      · left
        rw [abs_of_nonpos (by linarith),abs_of_nonpos (by linarith)]
        linarith
    · rw [if_neg short,add_sub_cancel_left]
      exact .inl le_rfl

/-- Along an axis, from a response in the patch to the region. -/
theorem axis_within {size : Int} {extent x res scale window : Rat} {cells : Nat} (wide : 3 ≤ size)
    (sign : 0 ≤ extent) (positive : 0 < scale) (found : |res| ≤ (cells / 2 : Nat))
    (patch : scale * (cells * cellSize) < window) :
    WithinWindow window extent (clampBefore size extent x)
      (clampAfter size extent (displace extent (clampBefore size extent x) res scale)) := by
  obtain ⟨right,left⟩ := clampBefore_bounds size extent x wide sign
  have moved : displace extent (clampBefore size extent x) res scale =
      clampBefore size extent x + res * cellSize * scale := by
    unfold displace
    ring
  have halves : ((cells / 2 : Nat) : Rat) * 2 ≤ cells := by
    exact_mod_cast Nat.div_mul_le_self cells 2
  have step : 2 * |res * cellSize * scale| < window := by
    have size : |res * cellSize * scale| = |res| * (cellSize * scale) := by
      rw [mul_assoc,abs_mul,abs_of_pos (a := (cellSize : Rat) * scale)]
      exact mul_pos (by norm_num [cellSize]) positive
    have area : (0 : Rat) < cellSize * scale := mul_pos (by norm_num [cellSize]) positive
    calc 2 * |res * cellSize * scale| = (|res| * 2) * (cellSize * scale) := by rw [size]; ring
      _ ≤ cells * (cellSize * scale) := by
        apply mul_le_mul_of_nonneg_right _ area.le
        linarith
      _ = scale * (cells * cellSize) := by ring
      _ < window := patch
  rw [moved]
  rcases clampAfter_near right left wide (res * cellSize * scale) with near | back
  · left
    linarith
  · exact .inr back

private theorem getTemplate_positive {conversion : IntConversion} {roi : Rect} {template : Template}
    (width : 0 ≤ roi.width) (height : 0 ≤ roi.height) (across : padded roi.width ≤ 2147483647)
    (down : padded roi.height ≤ 2147483647)
    (found : getTemplate conversion roi.toRect2d = some template) : 0 < template.scale := by
  have first := toInt_padding conversion width across
  have second := toInt_padding conversion height down
  have nonneg : 0 ≤ padded roi.width := by unfold padded; omega
  have other : 0 ≤ padded roi.height := by unfold padded; omega
  rcases lt_or_ge 0 (max (padded roi.width) (padded roi.height)) with positive | empty
  · obtain ⟨scaled,same,scale,_⟩ := getTemplate_some conversion
      (show conversion.toInt (roi.toRect2d.width * padding) = _ from first)
      (show conversion.toInt (roi.toRect2d.height * padding) = _ from second)
      nonneg other positive
    obtain rfl := Option.some.inj (same.symm.trans found)
    have cast : (0 : Rat) < (max (padded roi.width) (padded roi.height) : Int) := by
      exact_mod_cast positive
    rw [scale]
    unfold templateSize
    positivity
  · rw [getTemplate_none conversion
      (show conversion.toInt (roi.toRect2d.width * padding) = _ from first)
      (show conversion.toInt (roi.toRect2d.height * padding) = _ from second) (by omega)] at found
    contradiction

private theorem patch_window {side : Int} {cells : Nat} {scale : Rat} (positive : 0 < scale)
    (patch : side.tdiv cellSize - 2 = cells) : scale * (cells * cellSize) < scale * side := by
  have sign : 0 ≤ side := by
    by_contra negative
    have quotient : 0 ≤ (-side).tdiv cellSize := Int.tdiv_nonneg (by omega) (by decide)
    rw [Int.neg_tdiv] at quotient
    omega
  rw [Int.tdiv_eq_ediv_of_nonneg sign] at patch
  have whole : (cells : Int) * cellSize < side := by
    unfold cellSize at patch ⊢
    omega
  apply mul_lt_mul_of_pos_left _ positive
  exact_mod_cast whole

variable [NeZero rows] [NeZero cols] (minMaxLoc : MinMaxLoc rows cols Rat) {frame : Size}
  {initial : Rect} {template : Template}

private theorem follows_step (wide : 3 ≤ frame.width) (high : 3 ≤ frame.height)
    (width : 0 ≤ initial.width) (height : 0 ≤ initial.height) (positive : 0 < template.scale)
    (patch : sizePatch template.tmplSz = ((rows : Int),(cols : Int))) (tracker : KCFTracker)
    (res : CvMat rows cols Rat)
    (kept : SidesKept initial tracker ∧ tracker.scale = template.scale) :
    ∃ next moved, (follows minMaxLoc frame).step tracker res = some (next,[moved]) ∧
      (SidesKept initial next ∧ next.scale = template.scale) ∧
      moved.after = next.roi ∧ moved.Within template := by
  obtain ⟨⟨across,down⟩,scale⟩ := kept
  obtain ⟨lines,columns⟩ := Prod.ext_iff.mp patch
  have nonneg : (0 : Rat) ≤ tracker.roi.width := by rw [across]; exact_mod_cast width
  have other : (0 : Rat) ≤ tracker.roi.height := by rw [down]; exact_mod_cast height
  obtain ⟨x,y⟩ := locate_within minMaxLoc res
  have asserted : tracker.roi.width ≥ 0 ∧ tracker.roi.height ≥ 0 := ⟨nonneg,other⟩
  simp only [follows,KCFTracker.update,if_pos asserted,Option.map_some,Option.some.injEq,
    Prod.mk.injEq,List.cons.injEq,and_true]
  refine ⟨_,_,⟨rfl,rfl⟩,⟨⟨across,down⟩,scale⟩,rfl,?_⟩
  rw [scale]
  exact ⟨axis_within wide nonneg positive x (patch_window positive columns),
    axis_within high other positive y (patch_window positive lines)⟩

/-- However the filter responds, an update finds the region again within the window of the
features, or puts it back into the frame that it has left. -/
theorem update_within_window (wide : 3 ≤ frame.width) (high : 3 ≤ frame.height)
    {kept : Rect} (accepted : KCFTracker.init initial = some kept)
    (across : padded initial.width ≤ 2147483647) (down : padded initial.height ≤ 2147483647)
    {conversion : IntConversion} (found : getTemplate conversion initial.toRect2d = some template)
    (patch : sizePatch template.tmplSz = ((rows : Int),(cols : Int)))
    (responses : List (CvMat rows cols Rat)) :
    ∃ tracker trace, (follows minMaxLoc frame).run ⟨kept.toRect2d,template.scale⟩ responses =
      some (tracker,trace) ∧ trace.length = responses.length ∧
        (∀ moved ∈ trace.getLast?, moved.after = tracker.roi) ∧
        ∀ moved ∈ trace, moved.Within template := by
  unfold KCFTracker.init at accepted
  split at accepted
  · next sides =>
    obtain rfl := Option.some.inj accepted
    have positive := getTemplate_positive sides.1 sides.2 across down found
    have start : SidesKept initial ⟨initial.toRect2d,template.scale⟩ ∧
        template.scale = template.scale := ⟨⟨rfl,rfl⟩,rfl⟩
    obtain ⟨tracker,trace,ran,long,last,near⟩ := Machine.run_reports
      (fun tracker => SidesKept initial tracker ∧ tracker.scale = template.scale)
      (fun next (moved : Moved) => moved.after = next.roi ∧ moved.Within template)
      (follows_step minMaxLoc wide high sides.1 sides.2 positive patch) responses start
    refine ⟨tracker,trace,ran,long,fun moved member => (last moved member).1,?_⟩
    intro moved member
    obtain ⟨_,_,_,within⟩ := near moved member
    exact within
  · contradiction

end Window

noncomputable def someMaxLoc (rows cols : Nat) [NeZero rows] [NeZero cols] :
    MinMaxLoc rows cols Rat where
  maxLoc res := (Finite.exists_max res).choose
  greatest res := (Finite.exists_max res).choose_spec

def roughKernel (rows cols : Nat) [NeZero rows] [NeZero cols] : ShiftKernel rows cols Rat :=
  gaussianKernel (fun t => 1 / (1 - t)) 1 1

/-- A point in the corner of the patch. -/
def corner (rows cols : Nat) : Features rows cols Rat := fun _ p =>
  if p.1.val = 0 ∧ p.2.val = 0 then 1 else 0

/-- With a filter of ones, the response is the kernel. -/
theorem response_one {rows cols : Nat} [NeZero rows] [NeZero cols]
    (waves : Waves (Position rows cols) (Vec2f Rat)) (kernel : ShiftKernel rows cols Rat)
    (z x : Features rows cols Rat) :
    response waves kernel (fun _ => 1) z x = kernel.all x z := by
  have product : complexMultiplication (fun _ => 1) (fftd waves (kernel.all x z)) =
      waves.forward (merge (kernel.all x z)) := by
    ext1 u
    rw [complexMultiplication_eq,one_mul]
    rfl
  unfold response
  dsimp only
  rw [product]
  exact congrArg real (waves.backward_forward _)

theorem detect_translates_column : ∃ waves : Waves (Position 4 4) (Vec2f Rat),
    detect waves (roughKernel 4 4) (fun _ => 1) (someMaxLoc 4 4) (corner 4 4)
        (((corner 4 4).moved (0,3)).moved (((0 : Int) : ZMod 4),((1 : Int) : ZMod 4))) =
      {x := (detect waves (roughKernel 4 4) (fun _ => 1) (someMaxLoc 4 4) (corner 4 4)
          ((corner 4 4).moved (0,3))).x + (1 : Int)
       y := (detect waves (roughKernel 4 4) (fun _ => 1) (someMaxLoc 4 4) (corner 4 4)
          ((corner 4 4).moved (0,3))).y + (0 : Int)
       peakValue := (detect waves (roughKernel 4 4) (fun _ => 1) (someMaxLoc 4 4) (corner 4 4)
          ((corner 4 4).moved (0,3))).peakValue} := by
  obtain ⟨waves⟩ := waves_four
  refine ⟨waves.prod waves,detect_translates (waves.prod waves) (roughKernel 4 4) (someMaxLoc 4 4)
    (fun _ => 1) (corner 4 4) ((corner 4 4).moved (0,3)) (2,1) ?_ 0 1 (.inl rfl) (.inr (by decide))⟩
  rw [response_one]
  decide +kernel

/-- A response with its peak in one place and one left of it that is half as high. -/
def peakedAt (rows cols : Nat) (pi : Position rows cols) : CvMat rows cols Rat := fun p =>
  if p = pi then 1 else if p = (pi.1,pi.2 - 1) then 1 / 2 else 0

/-- The first peak takes the region out of the frame, and it is put back. -/
def windowTrace : List Moved :=
  [⟨⟨2,3,40,60⟩,⟨-38,-58,40,60⟩⟩,⟨⟨-38,-58,40,60⟩,⟨-337 / 24,-58,40,60⟩⟩]

theorem update_within_window_runs :
    (∃ tracker, (follows (someMaxLoc 24 16) ⟨1920,1080⟩).run
      ⟨(Rect.mk 2 3 40 60).toRect2d,25 / 16⟩
      [peakedAt 24 16 (0,0),peakedAt 24 16 (11,12)] = some (tracker,windowTrace)) ∧
        ∀ moved ∈ windowTrace, moved.Within ⟨25 / 16,⟨72,104⟩⟩ := by
  have accepted : KCFTracker.init ⟨2,3,40,60⟩ = some ⟨2,3,40,60⟩ := if_pos (by decide)
  have found : getTemplate cvttss2si (Rect.mk 2 3 40 60).toRect2d =
      some ⟨25 / 16,⟨72,104⟩⟩ := by
    decide +kernel
  obtain ⟨tracker,trace,ran,_,_,within⟩ := update_within_window (someMaxLoc 24 16)
    (show 3 ≤ (Size.mk 1920 1080).width by decide) (show 3 ≤ (Size.mk 1920 1080).height by decide)
    accepted (by decide) (by decide) found (by decide)
    [peakedAt 24 16 (0,0),peakedAt 24 16 (11,12)]
  have first : (someMaxLoc 24 16).maxLoc (peakedAt 24 16 (11,12)) = (11,12) :=
    maxLoc_unique _ (by decide +kernel)
  have second : (someMaxLoc 24 16).maxLoc (peakedAt 24 16 (0,0)) = (0,0) :=
    maxLoc_unique _ (by decide +kernel)
  have moves : ((follows (someMaxLoc 24 16) ⟨1920,1080⟩).run
      ⟨(Rect.mk 2 3 40 60).toRect2d,25 / 16⟩
      [peakedAt 24 16 (0,0),peakedAt 24 16 (11,12)]).map Prod.snd = some windowTrace := by
    simp only [Machine.System.run,follows,locate,first,second]
    decide +kernel
  rw [ran] at moves
  obtain rfl := Option.some.inj moves
  exact ⟨⟨tracker,ran⟩,within⟩

end VideoAnalytics.Tracker
