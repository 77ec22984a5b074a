import AirTraffic.Track
import AirTraffic.Geo.LocalPlane
import AirTraffic.Fit.Polynomial
import AirTraffic.Settings
/-!
# Motion fitted around each report

East and north are fitted as cubics of time to the reports around one of them, in the plane at that
report. The value of the cubics replaces the measured position, their slope gives speed and course.
-/
namespace AirTraffic

open Scalar AirTraffic.Units

structure Motion (α : Type) where
  position : Position α
  speed : α
  course : α
  deriving Repr

structure MotionFit where
  /-- Width of the window; a window too sparse is tried again at twice the width. -/
  windowMs : Int
  positive : 0 < windowMs

namespace MotionFit

variable {α ρ : Type} [Scalar α]

def standard : MotionFit := ⟨60000, by decide⟩

def ofMs (ms : Int) : Except (SettingError α) MotionFit :=
  if h : 0 < ms then .ok ⟨ms, h⟩ else .error (.notPositive "fit window" (ofInt ms))

def degree : Nat := 3

def nearby (reports : List (Report α ρ)) (centre : Report α ρ) (halfMs : Int) : List (Report α ρ) :=
  reports.filter fun r => (r.time - centre.time).natAbs ≤ halfMs

def observe (centre : Report α ρ) (coordinate : Position α → α) (reports : List (Report α ρ)) :
    List (α × α) :=
  reports.map fun r => (ofInt (r.time - centre.time) / msPerSecond, coordinate r.position)

/-- Needs one report more than a cubic has coefficients. -/
def motionWithin? [TableInverse α] (reports : List (Report α ρ)) (centre : Report α ρ)
    (halfMs : Int) :
    Option (Motion α) := do
  let around := nearby reports centre halfMs
  guard (degree + 2 ≤ around.length)
  let plane := LocalPlane.around centre.position
  let east ← Polynomial.fit? degree (observe centre (fun p => (plane.offset p).east) around)
  let north ← Polynomial.fit? degree (observe centre (fun p => (plane.offset p).north) around)
  guard (isFinite east[0] && isFinite north[0] && isFinite east[1] && isFinite north[1])
  return {
    position := plane.position ⟨east[0], north[0]⟩
    speed := greatest (hypot east[1] north[1] * secondsPerHour) zero
    course := Angle.compass (atan2 east[1] north[1] * degreesPerRadian) }

def motion? [TableInverse α] (s : MotionFit) (reports : List (Report α ρ)) (centre : Report α ρ) :
    Option (Motion α) :=
  (motionWithin? reports centre (s.windowMs / 2)).or (motionWithin? reports centre s.windowMs)

def move (m : Motion α) (r : Report α ρ) : Report α ρ :=
  ((r.withPosition m.position).withSpeed (some m.speed)).withCourse (some m.course)

/-- Reports without a fit are dropped. A single report stands still. -/
def clean [TableInverse α] (s : MotionFit) (reports : List (Report α ρ)) :
    Option (List (Report α ρ)) :=
  match reports with
  | [r] => some [r.withSpeed (some zero)]
  | _ =>
    let fitted := reports.filterMap fun r => (s.motion? reports r).map (move · r)
    if fitted.isEmpty then none else some fitted

end MotionFit
end AirTraffic
