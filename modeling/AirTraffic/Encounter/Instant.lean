import AirTraffic.Encounter.Error
/-!
# Two aircraft at one instant

Horizontal vectors have a northern and an eastern part, offsets in nautical miles and velocities in
knots.
-/
namespace AirTraffic

open Scalar

structure Vector2 (α : Type) where
  north : α
  east : α
  deriving Repr

namespace Vector2

variable {α : Type} [Scalar α]

def along (length course : α) : Vector2 α :=
  let angle := course * Units.radiansPerDegree
  ⟨length * cos angle, length * sin angle⟩

def add (u v : Vector2 α) : Vector2 α := ⟨u.north + v.north, u.east + v.east⟩

def sub (u v : Vector2 α) : Vector2 α := ⟨u.north - v.north, u.east - v.east⟩

def scale (u : Vector2 α) (k : α) : Vector2 α := ⟨u.north * k, u.east * k⟩

def dot (u v : Vector2 α) : α := u.north * v.north + u.east * v.east

def norm (u : Vector2 α) : α := sqrt (u.dot u)

end Vector2

structure Instant (α ρ : Type) where
  first : Report α ρ
  second : Report α ρ

structure ClosestApproach (α : Type) where
  untilMs : Int
  distanceNm : α
  deriving Repr

namespace Instant

variable {α ρ : Type} [Scalar α]

def required (r : Report α ρ) (field : ReportField) (value : Option α) :
    Except (SeparationError α) α :=
  match value with
  | some v => .ok v
  | none => .error (.missing r.time field)

def altitude (r : Report α ρ) : Except (SeparationError α) α := required r .altitude r.altitude

def speed (r : Report α ρ) : Except (SeparationError α) α := required r .speed r.speed

def course (r : Report α ρ) : Except (SeparationError α) α := required r .course r.course

def velocity (r : Report α ρ) : Except (SeparationError α) (Vector2 α) := do
  let v ← speed r
  return .along v (← course r)

variable (p : Instant α ρ)

def altitudeDelta : Except (SeparationError α) α := do
  let a ← altitude p.first
  return abs (a - (← altitude p.second))

def meanAltitude : Except (SeparationError α) α := do
  let a ← altitude p.first
  return (a + (← altitude p.second)) / ofInt 2

def speedDelta : Except (SeparationError α) α := do
  let u ← speed p.first
  return abs (u - (← speed p.second))

def velocityDelta : Except (SeparationError α) α := do
  let u ← velocity p.first
  return (u.sub (← velocity p.second)).norm

/-- The turn from the second course to the first. -/
def courseDelta : Except (SeparationError α) α := do
  let c ← course p.first
  return Angle.turn c (← course p.second)

def midpoint : Position α := p.first.position.midpoint p.second.position

variable [Geodesy α]

/-- Nautical miles. -/
def lateral : α := p.first.distanceTo p.second

def offset : Vector2 α := .along p.lateral (p.first.courseTo p.second)

/-- Knots at which the lateral distance shrinks, negative while it grows. At one spot there is no
direction to close along. -/
def closure : Except (SeparationError α) α :=
  if p.offset.norm < ofDecimal 1 3 then .ok zero
  else do
    let u ← velocity p.first
    let relative := u.sub (← velocity p.second)
    return p.offset.dot relative / p.offset.norm

def isWithin (maximumFt maximumNm : α) : Except (SeparationError α) Bool := do
  let vertical ← p.altitudeDelta
  return vertical ≤ maximumFt && p.lateral ≤ maximumNm

/-- Straight flight at the present speeds and courses. Aircraft that do not come closer are closest
now. -/
def closestApproach : Except (SeparationError α) (ClosestApproach α) :=
  if p.first.time ≠ p.second.time then .error (.differentTimes p.first.time p.second.time)
  else do
    let v ← velocity p.second
    let relative := v.sub (← velocity p.first)
    let hours := -(p.offset.dot relative) / relative.dot relative
    if isFinite hours && decide (zero < hours) then
      return ⟨truncate (hours * Units.msPerHour), (p.offset.add (relative.scale hours)).norm⟩
    else return ⟨0, p.lateral⟩

end Instant
end AirTraffic
