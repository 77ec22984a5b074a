import AirTraffic.Cleaning.Spacing
import AirTraffic.Cleaning.Occupancy
import AirTraffic.Cleaning.MissingValues
import AirTraffic.Cleaning.TrendOutlier
import AirTraffic.Cleaning.Outage
import AirTraffic.Cleaning.LocalMotion
import AirTraffic.Cleaning.AltitudeProfile
/-!
# Cleaning steps

A step takes a track and gives back a cleaner one, or nothing. Working steps edit the plain list of
reports, which may run empty; around them a track is thawed and put in order again. Steps are data,
so that a procedure can be looked at as well as run.
-/
namespace AirTraffic

inductive Chain (σ : Type) where
  | step (s : σ)
  | group (parts : List (Chain σ))

namespace Chain

variable {σ τ : Type}

mutual

def run (apply : σ → τ → Option τ) : Chain σ → τ → Option τ
  | step s, x => apply s x
  | group parts, x => runAll apply parts x

/-- The first step that gives nothing ends the run. -/
def runAll (apply : σ → τ → Option τ) : List (Chain σ) → τ → Option τ
  | [], x => some x
  | part :: rest, x =>
    match run apply part x with
    | some y => runAll apply rest y
    | none => none

end

def name (stepName : σ → String) : Chain σ → String
  | step s => stepName s
  | group _ => "CompositeCleaner"

end Chain

inductive WorkStep (α : Type) where
  | thinTimes (s : TimeThinning)
  | thinDistances (s : DistanceThinning α)
  | dropZeroAltitudes
  | fillAltitudes
  | fillSpeeds
  | correctAltitudes (test : TrendTest α)
  | dropPositionOutliers (test : TrendTest α)
  | dropOutageOutliers (test : OutageTest α)
  | fitMotion (s : MotionFit)
  | smoothAltitudes (s : AltitudeProfile α)
  | discard (rule : DiscardRule α)

namespace WorkStep

variable {α ρ : Type} [Scalar α] [Geodesy α] [TableInverse α]

def apply : WorkStep α → List (Report α ρ) → Option (List (Report α ρ))
  | thinTimes s, reports => some (s.clean reports)
  | thinDistances s, reports => some (s.clean reports)
  | dropZeroAltitudes, reports => some (reports.map MissingValues.dropZeroAltitude)
  | fillAltitudes, reports => MissingValues.fillAltitudes reports
  | fillSpeeds, reports => MissingValues.fillSpeeds reports
  | correctAltitudes test, reports => some (test.correctAltitudes reports)
  | dropPositionOutliers test, reports => test.dropPositionOutliers reports
  | dropOutageOutliers test, reports => test.clean reports
  | fitMotion s, reports => s.clean reports
  | smoothAltitudes s, reports => some (s.clean reports)
  | discard rule, reports => if rule.applies reports then none else some reports

def name : WorkStep α → String
  | thinTimes _ => "TimeDownSampler"
  | thinDistances _ => "DistanceDownSampler"
  | dropZeroAltitudes => "ZeroAltitudeToNull"
  | fillAltitudes => "FillMissingAltitudes"
  | fillSpeeds => "FillMissingSpeeds"
  | correctAltitudes _ => "VerticalOutlierDetector"
  | dropPositionOutliers _ => "LateralOutlierDetector"
  | dropOutageOutliers _ => "AccelerationOutlierDetector"
  | fitMotion _ => "TrackFilter"
  | smoothAltitudes _ => "AltitudeSmoother"
  | discard _ => "RemoveTracksMatching"

end WorkStep

abbrev WorkPlan (α : Type) := List (Chain (WorkStep α))

inductive TrackStep (α ρ : Type) where
  | dropCoasted (isCoasted : Report α ρ → Bool)
  | dropCrowded (s : Crowding)
  | requireSize (s : TrackSize)
  | discard (rule : DiscardRule α)
  | work (plan : WorkPlan α)
  /-- A step that somebody else defines. -/
  | custom (name : String) (clean : Track α ρ → Option (Track α ρ))

abbrev CleaningPlan (α ρ : Type) := List (Chain (TrackStep α ρ))

namespace TrackStep

variable {α ρ : Type} [Scalar α] [Geodesy α] [TableInverse α]

def runWork (plan : WorkPlan α) (track : Track α ρ) : Option (Track α ρ) :=
  (Chain.runAll WorkStep.apply plan track.reports).bind Track.ofReports?

def apply : TrackStep α ρ → Track α ρ → Option (Track α ρ)
  | dropCoasted isCoasted, track => Track.ofReports? (track.reports.filter (!isCoasted ·))
  | dropCrowded s, track => s.clean track
  | requireSize s, track => s.clean track
  | discard rule, track => if rule.applies track.reports then none else some track
  | work plan, track => runWork plan track
  | custom _ clean, track => clean track

def name : TrackStep α ρ → String
  | dropCoasted _ => "CoastedPointRemover"
  | dropCrowded _ => "HighFrequencyPointRemover"
  | requireSize _ => "SmallTrackRemover"
  | discard _ => "RemoveTracksMatching"
  | work _ => "MutableSmoother"
  | custom name _ => name

end TrackStep

namespace CleaningPlan

variable {α ρ : Type} [Scalar α] [Geodesy α] [TableInverse α]

def run (plan : CleaningPlan α ρ) (track : Track α ρ) : Option (Track α ρ) :=
  Chain.runAll TrackStep.apply plan track

def stepNames (plan : CleaningPlan α ρ) : List String := plan.map (Chain.name TrackStep.name)

end CleaningPlan

def WorkPlan.stepNames {α : Type} (plan : WorkPlan α) : List String :=
  plan.map (Chain.name WorkStep.name)

end AirTraffic
