import AirTraffic.Cleaning.Step
/-!
# The standard procedure

The order matters: every step assumes that the ones before it have run.
-/
namespace AirTraffic.CleaningPlan

variable {α ρ : Type} [Scalar α]

def workSteps : WorkPlan α :=
  [ .step (.thinTimes .standard),
    .step .fillSpeeds,
    .step (.discard (.repetition .standard)),
    .step (.thinDistances .standard),
    .step .dropZeroAltitudes,
    .step .fillAltitudes,
    .step (.correctAltitudes .altitudes),
    .step (.dropPositionOutliers .positions),
    .step (.fitMotion .standard) ]

def outageSteps : WorkPlan α := [.step (.dropOutageOutliers .standard)]

/-- Which reports the sensor made up depends on the data format. -/
def withWork (isCoasted : Report α ρ → Bool) (plan : WorkPlan α) : CleaningPlan α ρ :=
  [ .step (.dropCoasted isCoasted),
    .step (.dropCrowded .standard),
    .step (.requireSize .standard),
    .step (.work plan) ]

def core (isCoasted : Report α ρ → Bool) : CleaningPlan α ρ := withWork isCoasted workSteps

def outageAware (isCoasted : Report α ρ → Bool) : CleaningPlan α ρ :=
  withWork isCoasted (outageSteps ++ workSteps)

/-- The test for formats that do not mark made-up reports. -/
def neverCoasted (_ : Report α ρ) : Bool := false

end AirTraffic.CleaningPlan
