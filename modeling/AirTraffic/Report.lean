import AirTraffic.Geo.Position
import AirTraffic.Decimal.Text
/-!
# Surveillance reports

One timestamped position of one aircraft, with what else the sensor said and a payload of the data
format. A report is made from a draft, which lets nothing through that is not finite and in range,
so that no later rule has to check again.
-/
namespace AirTraffic

open Scalar

structure Report (α ρ : Type) where
  /-- Milliseconds since the epoch. Times are idealised to unbounded integers, and so are their sums
  and differences, which on a machine are 64-bit words. -/
  time : Int
  position : Position α
  altitude : Option α
  speed : Option α
  course : Option α
  curvature : Option α
  alongTrackDistance : Option α
  trackId : Option String
  payload : ρ

inductive ReportField where
  | time
  | latitude
  | longitude
  | altitude
  | speed
  | course
  | curvature
  | alongTrackDistance
  deriving DecidableEq, Repr

inductive ReportError (α : Type) where
  | missing (field : ReportField)
  | notFinite (field : ReportField) (value : α)
  | latitudeOutOfRange (value : α)
  | longitudeOutOfRange (value : α)
  deriving Repr

def ReportField.label : ReportField → String
  | time => "time"
  | latitude => "latitude"
  | longitude => "longitude"
  | altitude => "altitude"
  | speed => "speed"
  | course => "course"
  | curvature => "curvature"
  | alongTrackDistance => "along_track_distance"

def ReportError.message : ReportError Float → String
  | missing field => s!"point is missing a {field.label}"
  | notFinite field value => s!"{field.label} must be finite, got {Decimal.messageText value}"
  | latitudeOutOfRange value => s!"latitude {Decimal.messageText value} is outside [-90, 90]"
  | longitudeOutOfRange value => s!"longitude {Decimal.messageText value} is outside [-180, 180]"

structure ReportDraft (α ρ : Type) where
  time : Option Int
  position : Option (Position α)
  altitude : Option α
  speed : Option α
  course : Option α
  curvature : Option α
  alongTrackDistance : Option α
  trackId : Option String
  payload : ρ

variable {α ρ : Type} [Scalar α]

namespace ReportDraft

def required {β : Type} (field : ReportField) (value : Option β) : Except (ReportError α) β :=
  match value with
  | some v => .ok v
  | none => .error (.missing field)

def finite (field : ReportField) (value : α) : Except (ReportError α) α :=
  if isFinite value then .ok value else .error (.notFinite field value)

def finite? (field : ReportField) : Option α → Except (ReportError α) (Option α)
  | none => .ok none
  | some value => some <$> finite field value

def inRange (bound x : α) : Bool := -bound ≤ x && x ≤ bound

def checkPosition (p : Position α) : Except (ReportError α) (Position α) := do
  let latitude ← finite .latitude p.latitude
  let longitude ← finite .longitude p.longitude
  if !inRange (ofInt 90) latitude then throw (.latitudeOutOfRange latitude)
  if !inRange (ofInt 180) longitude then throw (.longitudeOutOfRange longitude)
  return p

/-- The first fault in field order is the one reported. Courses are brought onto the compass. -/
def build (d : ReportDraft α ρ) : Except (ReportError α) (Report α ρ) := do
  let time ← required .time d.time
  let position ← checkPosition (← required .latitude d.position)
  let altitude ← finite? .altitude d.altitude
  let speed ← finite? .speed d.speed
  let course ← finite? .course d.course
  let curvature ← finite? .curvature d.curvature
  let alongTrackDistance ← finite? .alongTrackDistance d.alongTrackDistance
  return {
    time, position, altitude, speed, curvature, alongTrackDistance
    course := course.map Angle.compass
    trackId := d.trackId
    payload := d.payload }

end ReportDraft

namespace Report

def draft (r : Report α ρ) : ReportDraft α ρ :=
  { r with time := some r.time, position := some r.position }

def distanceTo [Geodesy α] (r q : Report α ρ) : α := Geodesy.distance r.position q.position

def courseTo [Geodesy α] (r q : Report α ρ) : α := Geodesy.course r.position q.position

def withPosition (r : Report α ρ) (p : Position α) : Report α ρ := { r with position := p }

def withAltitude (r : Report α ρ) (altitude : Option α) : Report α ρ :=
  { r with altitude := altitude.filter isFinite }

def withSpeed (r : Report α ρ) (speed : Option α) : Report α ρ :=
  { r with speed := speed.filter isFinite }

def withCourse (r : Report α ρ) (course : Option α) : Report α ρ :=
  { r with course := (course.filter isFinite).map Angle.compass }

def compareOption {β : Type} (cmp : β → β → Ordering) : Option β → Option β → Ordering
  | some x, some y => cmp x y
  | none, some _ => .lt
  | some _, none => .gt
  | none, none => .eq

def compare (r q : Report α ρ) : Ordering :=
  (Ord.compare r.time q.time)
    |>.then (totalCompare r.position.latitude q.position.latitude)
    |>.then (totalCompare r.position.longitude q.position.longitude)
    |>.then (compareOption totalCompare r.altitude q.altitude)
    |>.then (compareOption totalCompare r.speed q.speed)
    |>.then (compareOption totalCompare r.course q.course)
    |>.then (compareOption Ord.compare r.trackId q.trackId)

def alike (r q : Report α ρ) : Bool := r.compare q == .eq

/-- Reports that compare equal keep their order. -/
def sort (reports : List (Report α ρ)) : List (Report α ρ) :=
  reports.mergeSort fun r q => (r.compare q).isLE

end Report
end AirTraffic
