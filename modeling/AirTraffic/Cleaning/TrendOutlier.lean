import AirTraffic.Track.Nearest
import AirTraffic.Fit.Line
import AirTraffic.Cleaning.Spacing
/-!
# Reports off the local trend

A report is compared with the line through its nearest neighbours in time. It is an outlier only if
the line fits much worse with it than without it, and if it is further off the line than the least
error worth acting on.
-/
namespace AirTraffic

open Scalar

structure TrendTest (α : Type) where
  /-- Size of the neighbourhood, the report itself included. -/
  sampleSize : Nat
  /-- Drop in the quality of the fit that marks an outlier. -/
  fitDrop : α
  minimumError : α
  sampleSize_ge : 3 ≤ sampleSize

namespace TrendTest

variable {α ρ : Type} [Scalar α]

def ofLimits (sampleSize : Nat) (fitDrop minimumError : α) :
    Except (SettingError α) (TrendTest α) :=
  if h : 3 ≤ sampleSize then
    if !(decide (zero ≤ fitDrop) && decide (fitDrop ≤ one)) then
      .error (.notFraction "fit drop" fitDrop)
    else if !(decide (zero < minimumError) && isFinite minimumError) then
      .error (.notPositive "minimum error" minimumError)
    else .ok ⟨sampleSize, fitDrop, minimumError, h⟩
  else .error (.notPositive "sample size above 2" (ofInt sampleSize))

def altitudes : TrendTest α := ⟨7, ofDecimal 5 1, ofInt 300, by decide⟩

def positions : TrendTest α := ⟨9, ofDecimal 3 1, ofDecimal 5 2, by decide⟩

def neighbours? (test : TrendTest α) (reports : List (Report α ρ)) (i : Nat) :
    Option (Report α ρ × List (Report α ρ)) := do
  let candidate ← reports[i]?
  let stretch := Report.nearest reports candidate.time test.sampleSize
  guard (test.sampleSize ≤ stretch.length)
  return (candidate, (stretch.indices.filter (· ≠ i)).filterMap (reports[·]?))

def seconds (origin t : Int) : α := ofInt (t - origin) / Units.msPerSecond

def observe (field : Report α ρ → Option α) (candidate : Report α ρ) (others : List (Report α ρ)) :
    Observations α :=
  others.filterMap fun r => (field r).map (seconds candidate.time r.time, ·)

def correctedAltitude? (test : TrendTest α) (reports : List (Report α ρ)) (i : Nat) : Option α := do
  let candidate ← reports[i]?
  let altitude ← candidate.altitude
  let (_, others) ← test.neighbours? reports i
  let without := observe (·.altitude) candidate others
  let predicted ← (without.predict? zero).filter isFinite
  let drop := without.fitQuality - Observations.fitQuality (without ++ [(zero, altitude)])
  guard (test.fitDrop < drop ∧ test.minimumError < abs (predicted - altitude))
  return predicted

/-- Index and corrected altitude of every outlier, each judged against the reports as they came. -/
def altitudeOutliers (test : TrendTest α) (reports : List (Report α ρ)) : List (Nat × α) :=
  (List.range reports.length).filterMap fun i => (test.correctedAltitude? reports i).map (i, ·)

def correctAltitudes (test : TrendTest α) (reports : List (Report α ρ)) : List (Report α ρ) :=
  reports.zipIdx.map fun (r, i) =>
    match test.correctedAltitude? reports i with
    | some altitude => r.withAltitude (some altitude)
    | none => r

/-- Geometric mean of how well latitudes and longitudes fit. -/
def positionQuality (latitudes longitudes : Observations α) : α :=
  sqrt (latitudes.fitQuality * longitudes.fitQuality)

def isPositionOutlier [Geodesy α] (test : TrendTest α) (reports : List (Report α ρ)) (i : Nat) :
    Bool :=
  match test.neighbours? reports i with
  | none => false
  | some (candidate, others) =>
    let latitudes := observe (some ·.position.latitude) candidate others
    let longitudes := observe (some ·.position.longitude) candidate others
    match (latitudes.predict? zero).filter isFinite, (longitudes.predict? zero).filter isFinite with
    | some latitude, some longitude =>
      let drop := positionQuality latitudes longitudes
        - positionQuality (latitudes ++ [(zero, candidate.position.latitude)])
            (longitudes ++ [(zero, candidate.position.longitude)])
      test.fitDrop < drop &&
        test.minimumError < Geodesy.distance ⟨latitude, longitude⟩ candidate.position
    | _, _ => false

def positionFlags [Geodesy α] (test : TrendTest α) (reports : List (Report α ρ)) : List Bool :=
  (List.range reports.length).map (test.isPositionOutlier reports)

def dropPositionOutliers [Geodesy α] (test : TrendTest α) (reports : List (Report α ρ)) :
    Option (List (Report α ρ)) :=
  let kept := Report.dropFlagged (test.positionFlags reports) reports
  if kept.isEmpty then none else some kept

end TrendTest
end AirTraffic
