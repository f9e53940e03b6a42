import VideoAnalytics.Detector
import Mathlib.Algebra.Order.Round

/-! The region that TrackerThreadFunc hands to a tracker for a detection, and
what KCFTracker::init asks of it. -/
namespace VideoAnalytics.Tracker

structure Rect2d where
  x : Rat
  y : Rat
  width : Rat
  height : Rat
  deriving DecidableEq, Repr

structure Rect where
  x : Int
  y : Int
  width : Int
  height : Int
  deriving DecidableEq, Repr

/-- The conversion of a double to int in OpenCV: the nearest integer, and no
promise beyond the range of int. -/
structure SaturateCast where
  toInt : Rat → Int
  nearest : ∀ value : Rat, |value| ≤ 2 ^ 31 - 1 → |(toInt value : Rat) - value| ≤ 1 / 2

/-- The boxes are of a picture of 304 by 304. -/
def boundingBox (rawWidth rawHeight : Int) (box : Resultbox) : Rect2d :=
  let Hfactor := toFloat (toFloat rawWidth / 304)
  let Vfactor := toFloat (toFloat rawHeight / 304)
  {x := floatTimes Hfactor box.left
   y := floatTimes Vfactor box.top
   width := floatTimes Hfactor (box.right - box.left)
   height := floatTimes Vfactor (box.bottom - box.top)}

def Rect2d.toRect (saturate : SaturateCast) (rect : Rect2d) : Rect where
  x := saturate.toInt rect.x
  y := saturate.toInt rect.y
  width := saturate.toInt rect.width
  height := saturate.toInt rect.height

/-- The assertion at the start of KCFTracker::init, and the region it keeps. -/
def KCFTracker.init (roi : Rect) : Option Rect :=
  if roi.width ≥ 0 ∧ roi.height ≥ 0 then some roi else none

end VideoAnalytics.Tracker
