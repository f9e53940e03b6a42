import VideoAnalytics.Library.Machine
import VideoAnalytics.TrackerBoxes

/-! KCFTracker::update in exact arithmetic: where the clamps leave the region of
a tracker, and the box that TrackerThreadFunc makes of it. What detect answers
is an argument of the step. -/
namespace VideoAnalytics.Tracker

structure Point2f where
  x : Rat
  y : Rat
  deriving DecidableEq, Repr

structure KCFTracker where
  roi : Rect2d
  scale : Rat
  deriving DecidableEq, Repr

/-- HOG cell size -/
def cellSize : Int := 4

def Rect.toRect2d (rect : Rect) : Rect2d := ⟨rect.x,rect.y,rect.width,rect.height⟩

/-- The clamps before detect, for one coordinate of the region. -/
def clampBefore (size : Int) (extent x : Rat) : Rat :=
  let x : Rat := if x + extent ≤ 0 then -extent + 1 else x
  if x ≥ size - 1 then size - 2 else x

/-- Adjust by cell size and scale, about the centre of the region. -/
def displace (extent x res scale : Rat) : Rat :=
  let cx := x + extent / 2
  cx - extent / 2 + res * cellSize * scale

/-- The clamps after detect. -/
def clampAfter (size : Int) (extent x : Rat) : Rat :=
  let x : Rat := if x ≥ size - 1 then size - 1 else x
  if x + extent ≤ 0 then -extent + 2 else x

def KCFTracker.update (tracker : KCFTracker) (width height : Int) (res : Point2f) :
    Option KCFTracker :=
  let roi := tracker.roi
  let x := clampBefore width roi.width roi.x
  let y := clampBefore height roi.height roi.y
  let x := clampAfter width roi.width (displace roi.width x res.x tracker.scale)
  let y := clampAfter height roi.height (displace roi.height y res.y tracker.scale)
  -- assert(_roi.width >= 0 && _roi.height >= 0)
  if roi.width ≥ 0 ∧ roi.height ≥ 0 then some {tracker with roi := {roi with x := x, y := y}}
  else none

/-- The conversion of a float to int as a rounding without bounds. -/
structure NearestInt where
  toInt : Rat → Int
  nearest : ∀ value : Rat, |(toInt value : Rat) - value| ≤ 1 / 2

def NearestInt.saturate (rounding : NearestInt) : SaturateCast where
  toInt := rounding.toInt
  nearest value _ := rounding.nearest value

/-- The region after an update, and what update returns of it. -/
structure Returned where
  roi : Rect2d
  rect : Rect
  deriving DecidableEq, Repr

def updates (rounding : NearestInt) (frame : Size) : Machine.System KCFTracker Point2f Returned where
  step tracker res := (tracker.update frame.width frame.height res).map fun next =>
    (next,[⟨next.roi,next.roi.toRect rounding.saturate⟩])

/-- objectResult[nloop] in TrackerThreadFunc, with integers without bounds. -/
def objectResult (rawWidth rawHeight classid : Int) (confidence : Rat) (rect : Rect) : Resultbox :=
  let result := rect.toRect2d
  {classid := classid
   confidence := confidence
   left := clampLow (truncate result.x)
   right := clampHigh rawWidth (truncate (result.width + result.x))
   top := clampLow (truncate result.y)
   bottom := clampHigh rawHeight (truncate (result.height + result.y))}

private theorem clampAfter_bounds (size : Int) (extent x : Rat) (wide : 3 ≤ size)
    (sign : 0 ≤ extent) :
    clampAfter size extent x ≤ size - 1 ∧ 0 < clampAfter size extent x + extent := by
  have cast : (3 : Rat) ≤ size := by exact_mod_cast wide
  unfold clampAfter
  dsimp only
  split
  · split
    · constructor
      · linarith
      · linarith
    · constructor
      · linarith
      · linarith
  · split
    · constructor
      · linarith
      · linarith
    · constructor
      · linarith
      · linarith

private theorem objectResult_eq (rawWidth rawHeight classid : Int) (confidence : Rat)
    (rect : Rect) : objectResult rawWidth rawHeight classid confidence rect =
      {classid := classid
       confidence := confidence
       left := clampLow rect.x
       right := clampHigh rawWidth (rect.width + rect.x)
       top := clampLow rect.y
       bottom := clampHigh rawHeight (rect.height + rect.y)} := by
  simp only [objectResult,Rect.toRect2d,← Int.cast_add,truncate_intCast]

section Rounding

variable (rounding : NearestInt)

private theorem toInt_le (value : Rat) (limit : Int) (below : value ≤ limit) :
    rounding.toInt value ≤ limit := by
  have near := (abs_le.mp (rounding.nearest value)).2
  have next : (rounding.toInt value : Rat) < limit + 1 := by linarith
  have integer : rounding.toInt value < limit + 1 := by exact_mod_cast next
  omega

private theorem le_toInt (value : Rat) (limit : Int) (above : (limit : Rat) ≤ value) :
    limit ≤ rounding.toInt value := by
  have near := (abs_le.mp (rounding.nearest value)).1
  have next : (limit : Rat) - 1 < rounding.toInt value := by linarith
  have integer : limit - 1 < rounding.toInt value := by exact_mod_cast next
  omega

private theorem toInt_intCast (value : Int) : rounding.toInt value = value :=
  le_antisymm (toInt_le rounding value value le_rfl) (le_toInt rounding value value le_rfl)

private theorem rounded_interval (size extent : Int) (x : Rat) (positive : 1 ≤ size)
    (sign : 0 ≤ extent) (begins : x ≤ size - 1) (ends : 0 < x + extent) :
    let first := clampLow (rounding.toInt x)
    let last := clampHigh size (extent + rounding.toInt x)
    Ends size first last := by
  have high := toInt_le rounding x (size - 1) (by push_cast; exact begins)
  have low := le_toInt rounding x (-extent) (by push_cast; linarith)
  unfold clampLow clampHigh
  dsimp only
  refine ⟨?_,?_,?_⟩ <;> split_ifs <;> omega

end Rounding

/-- One returned region can be drawn: rounded, it keeps the initial sides and overlaps
the frame. -/
structure Drawable (rounding : NearestInt) (frame : Size) (initial : Rect)
    (returned : Returned) : Prop where
  rounded : returned.rect = returned.roi.toRect rounding.saturate
  sides : returned.rect.width = initial.width ∧ returned.rect.height = initial.height
  columns : returned.roi.x ≤ frame.width - 1 ∧ 0 < returned.roi.x + initial.width
  rows : returned.roi.y ≤ frame.height - 1 ∧ 0 < returned.roi.y + initial.height
  box : ∀ classid confidence,
    Within frame (objectResult frame.width frame.height classid confidence returned.rect)

section Updates

variable (rounding : NearestInt) (frame : Size) (initial : Rect)
  (wide : 3 ≤ frame.width) (high : 3 ≤ frame.height)
  (width : 0 ≤ initial.width) (height : 0 ≤ initial.height)

/-- The sides of the region never change. -/
def SidesKept (tracker : KCFTracker) : Prop :=
  tracker.roi.width = initial.width ∧ tracker.roi.height = initial.height

include wide high width height

private theorem updates_step (tracker : KCFTracker) (res : Point2f)
    (kept : SidesKept initial tracker) :
    ∃ next returned, (updates rounding frame).step tracker res = some (next,[returned]) ∧
      SidesKept initial next ∧
      returned.roi = next.roi ∧ Drawable rounding frame initial returned := by
  obtain ⟨across,down⟩ := kept
  have nonneg : (0 : Rat) ≤ initial.width := by exact_mod_cast width
  have other : (0 : Rat) ≤ initial.height := by exact_mod_cast height
  have asserted : tracker.roi.width ≥ 0 ∧ tracker.roi.height ≥ 0 := by
    rw [across,down]
    exact ⟨nonneg,other⟩
  simp only [updates,KCFTracker.update,if_pos asserted,Option.map_some,Option.some.injEq,
    Prod.mk.injEq,List.cons.injEq,and_true]
  refine ⟨_,_,⟨rfl,rfl⟩,⟨across,down⟩,rfl,?_⟩
  have columns := clampAfter_bounds frame.width tracker.roi.width (displace tracker.roi.width
    (clampBefore frame.width tracker.roi.width tracker.roi.x) res.x tracker.scale) wide asserted.1
  have rows := clampAfter_bounds frame.height tracker.roi.height (displace tracker.roi.height
    (clampBefore frame.height tracker.roi.height tracker.roi.y) res.y tracker.scale) high asserted.2
  rw [across] at columns
  rw [down] at rows
  refine ⟨rfl,⟨?_,?_⟩,by simpa only [across] using columns,by simpa only [down] using rows,?_⟩
  · simp only [Rect2d.toRect,NearestInt.saturate,across]
    exact toInt_intCast rounding initial.width
  · simp only [Rect2d.toRect,NearestInt.saturate,down]
    exact toInt_intCast rounding initial.height
  · intro classid confidence
    have horizontal := rounded_interval rounding frame.width initial.width _ (by omega) width
      columns.1 columns.2
    have vertical := rounded_interval rounding frame.height initial.height _ (by omega) height
      rows.1 rows.2
    rw [objectResult_eq]
    simp only [Rect2d.toRect,NearestInt.saturate,across,down,toInt_intCast]
    exact ⟨horizontal,vertical⟩

/-- After init with a region that it accepts, every update returns its region, which can
be drawn. -/
theorem update_drawable (scale : Rat) (displacements : List Point2f) :
    ∃ kept, KCFTracker.init initial = some kept ∧ ∃ tracker trace,
      (updates rounding frame).run ⟨kept.toRect2d,scale⟩ displacements = some (tracker,trace) ∧
        trace.length = displacements.length ∧
        (∀ returned ∈ trace.getLast?, returned.roi = tracker.roi) ∧
        ∀ returned ∈ trace, Drawable rounding frame initial returned := by
  refine ⟨initial,if_pos ⟨width,height⟩,?_⟩
  have kept : SidesKept initial ⟨initial.toRect2d,scale⟩ := ⟨rfl,rfl⟩
  obtain ⟨tracker,trace,ran,long,last,drawn⟩ := Machine.run_reports (SidesKept initial)
    (fun next returned => returned.roi = next.roi ∧ Drawable rounding frame initial returned)
    (updates_step rounding frame initial wide high width height) displacements kept
  refine ⟨tracker,trace,ran,long,fun returned member => (last returned member).1,?_⟩
  intro returned member
  obtain ⟨_,_,_,drawable⟩ := drawn returned member
  exact drawable

end Updates

def halfUp : NearestInt where
  toInt := round
  nearest value := by
    rw [abs_sub_comm]
    exact abs_sub_round value

/-- The first displacement leaves the frame on the left, the second on the right and above. -/
def leavingTrace : List Returned :=
  [⟨⟨-38,106,40,60⟩,⟨-38,106,40,60⟩⟩,⟨⟨1919,-58,40,60⟩,⟨1919,-58,40,60⟩⟩]

theorem update_drawable_leaving :
    (∃ tracker, (updates halfUp ⟨1920,1080⟩).run ⟨(Rect.mk 100 100 40 60).toRect2d,1⟩
      [⟨-50,3 / 2⟩,⟨1000,-1000⟩] = some (tracker,leavingTrace)) ∧
        ∀ returned ∈ leavingTrace, Drawable halfUp ⟨1920,1080⟩ ⟨100,100,40,60⟩ returned := by
  obtain ⟨kept,accepted,tracker,trace,ran,_,_,drawn⟩ := update_drawable halfUp ⟨1920,1080⟩
    ⟨100,100,40,60⟩ (by decide) (by decide) (by decide) (by decide) 1 [⟨-50,3 / 2⟩,⟨1000,-1000⟩]
  obtain rfl : Rect.mk 100 100 40 60 = kept := by simpa [KCFTracker.init] using accepted
  have left : ((updates halfUp ⟨1920,1080⟩).run ⟨(Rect.mk 100 100 40 60).toRect2d,1⟩
      [⟨-50,3 / 2⟩,⟨1000,-1000⟩]).map Prod.snd = some leavingTrace := by
    decide +kernel
  rw [ran] at left
  obtain rfl := Option.some.inj left
  exact ⟨⟨tracker,ran⟩,drawn⟩

end VideoAnalytics.Tracker
