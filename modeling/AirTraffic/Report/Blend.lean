import AirTraffic.Report
/-!
# Reports between two reports

Position, altitude, speed and curvature change in proportion to time, the course along the shorter
arc. What only one of the two knows is carried over, and a course that neither knows is that of the
way between them.
-/
namespace AirTraffic

open Scalar

inductive BlendError (α : Type) where
  | outOfOrder (first second : Int)
  | outsideSpan (time start stop : Int)
  | tooFarApart (latitudes longitudes : α)
  deriving Repr

def BlendError.message : BlendError Float → String
  | outOfOrder first second => s!"points are out of time order ({first} > {second})"
  | outsideSpan time start stop => s!"time {time} is outside [{start}, {stop}]"
  | tooFarApart latitudes longitudes =>
    "points are too far apart to interpolate (dLat " ++ Decimal.messageText latitudes
      ++ ", dLon " ++ Decimal.messageText longitudes ++ ")"

namespace Report

variable {α ρ : Type} [Scalar α] [Geodesy α]

/-- Between two values in proportion; else the value of the nearer report, else that of the other.
-/
def blendValue (p q near far : Option α) (fraction : α) : Option α :=
  match p, q with
  | some a, some b => some (lerp a b fraction)
  | _, _ => near.or far

def blendCourse (p q near far : Report α ρ) (fraction : α) : Option α :=
  match p.course, q.course with
  | some a, some b => some (Angle.compass (a + fraction * Angle.turn b a))
  | _, _ => (near.course.or far.course).or
      (if p.position.same q.position then none else some (p.courseTo q))

def blendDraft (p q : Report α ρ) (time : Int) (fraction : α) : ReportDraft α ρ :=
  let halfway := ofDecimal 5 1
  let near := if fraction < halfway then p else q
  let far := if fraction < halfway then q else p
  let value (field : Report α ρ → Option α) :=
    blendValue (field p) (field q) (field near) (field far) fraction
  { time := some time
    position := some {
      latitude := lerp p.position.latitude q.position.latitude fraction
      longitude := lerp p.position.longitude q.position.longitude fraction }
    altitude := value (·.altitude)
    speed := value (·.speed)
    course := blendCourse p q near far fraction
    curvature := value (·.curvature)
    alongTrackDistance := value (·.alongTrackDistance)
    trackId := near.trackId
    payload := near.payload }

/-- The report at `time` between an earlier and a later one. Over more than a quarter turn of
latitude or half a turn of longitude a straight line means nothing. -/
def blend (p q : Report α ρ) (time : Int) : Except (BlendError α) (Report α ρ) :=
  if q.time < p.time then .error (.outOfOrder p.time q.time)
  else if time < p.time ∨ q.time < time then .error (.outsideSpan time p.time q.time)
  else if time = p.time then .ok p
  else if time = q.time then .ok q
  else
    let latitudes := abs (q.position.latitude - p.position.latitude)
    let longitudes := abs (q.position.longitude - p.position.longitude)
    let fraction : α := ofInt (time - p.time) / ofInt (q.time - p.time)
    if ofInt 90 < latitudes ∨ ofInt 180 < longitudes then .error (.tooFarApart latitudes longitudes)
    else (blendDraft p q time fraction).build.mapError fun _ => .tooFarApart latitudes longitudes

end Report
end AirTraffic
