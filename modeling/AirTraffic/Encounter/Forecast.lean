import AirTraffic.Encounter.TrackPair
/-!
# Forecasts

What the geometry of two tracks looks like from one instant. The vertical separation at the closest
point of approach is extrapolated from the rate at that instant; what the tracks do later takes no
part.
-/
namespace AirTraffic

structure Forecast (α : Type) where
  time : Int
  closest : ClosestApproach α
  verticalAtClosestFt : α
  lateralNm : α
  verticalFt : α
  /-- Feet per second, positive while closing. -/
  verticalClosure : α
  /-- Knots, positive while closing. -/
  lateralClosure : α
  deriving Repr

/-- Both tracks need altitude, speed and course at the instant. -/
def TrackPair.forecast {α ρ : Type} [Scalar α] [Geodesy α] (p : TrackPair α ρ) (time : Int) :
    Except (SeparationError α) (Forecast α) := do
  let instant ← p.instantAt time
  let closest ← instant.closestApproach
  let profile ← p.profile
  let verticalAtClosestFt ← profile.verticalAfter time closest.untilMs
  let verticalFt ← instant.altitudeDelta
  let verticalClosure ← profile.verticalClosure time
  let lateralClosure ← profile.horizontalClosure time
  return {
    time, closest, verticalAtClosestFt, verticalFt, verticalClosure, lateralClosure
    lateralNm := instant.lateral }

end AirTraffic
