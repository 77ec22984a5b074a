import AirTraffic.Encounter.Forecast
import AirTraffic.Json.Value
/-!
# Encounters

What is reported of two associated tracks: how close they came in the overlap, and what was to be
expected at its start.
-/
namespace AirTraffic

structure Encounter (α : Type) where
  firstTrack : Option String
  secondTrack : Option String
  overlap : TimeSpan
  closest : Separation α
  /-- Made at the first instant of the overlap. -/
  forecast : Forecast α
  deriving Repr

/-- The vertical separation is the one that the profile reads at the instant of least lateral
distance. -/
def TrackPair.encounter {α ρ : Type} [Scalar α] [Geodesy α] (p : TrackPair α ρ) :
    Except (SeparationError α) (Encounter α) := do
  let overlap ← p.overlap
  let profile ← p.profile
  let sample := profile.closest
  let verticalFt ← profile.verticalAt sample.time
  let forecast ← p.forecast overlap.start
  return {
    firstTrack := p.first.id?, secondTrack := p.second.id?
    overlap, closest := { sample with verticalFt }, forecast }

def Forecast.json (f : Forecast Float) : String :=
  Json.objectText
    [ ("time", toString f.time),
      ("time_until_cpa_ms", toString f.closest.untilMs),
      ("lateral_distance_at_cpa_nm", Decimal.recordText f.closest.distanceNm),
      ("vertical_separation_at_cpa_ft", Decimal.recordText f.verticalAtClosestFt),
      ("current_lateral_nm", Decimal.recordText f.lateralNm),
      ("current_vertical_ft", Decimal.recordText f.verticalFt),
      ("vertical_closure_rate_fps", Decimal.recordText f.verticalClosure),
      ("lateral_closure_rate_kts", Decimal.recordText f.lateralClosure) ]

def Encounter.json (e : Encounter Float) : String :=
  Json.objectText
    [ ("track1", Json.quoted (e.firstTrack.getD "")),
      ("track2", Json.quoted (e.secondTrack.getD "")),
      ("overlap_start", toString e.overlap.start),
      ("overlap_end", toString e.overlap.stop),
      ("min_lateral_nm", Decimal.recordText e.closest.horizontalNm),
      ("time_of_min_lateral", toString e.closest.time),
      ("vertical_at_min_lateral_ft", Decimal.recordText e.closest.verticalFt),
      ("prediction", e.forecast.json) ]

end AirTraffic
