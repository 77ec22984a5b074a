import AirTraffic.Report.Blend
/-!
# Separation errors
-/
namespace AirTraffic

inductive SeparationError (α : Type) where
  | missing (time : Int) (field : ReportField)
  | differentTimes (first second : Int)
  | noOverlap
  | outsideSpan (time start stop : Int)
  | tooFewSamples (count : Nat)
  | unequalLengths
  | timesNotIncreasing
  | stepNotPositive (ms : Int)
  | stepNegative (ms : Int)
  | blend (cause : BlendError α)
  deriving Repr

def SeparationError.message : SeparationError Float → String
  | missing time field => s!"point at time {time} has no {field.label}"
  | differentTimes first second => s!"points must share an instant ({first} vs {second})"
  | noOverlap => "tracks do not overlap in time"
  | outsideSpan time start stop => s!"time {time} is outside [{start}, {stop}]"
  | tooFewSamples count => s!"a separation series needs at least two samples, got {count}"
  | unequalLengths => "series inputs must have equal lengths"
  | timesNotIncreasing => "series times must be strictly increasing"
  | stepNotPositive ms => s!"time step must be positive, got {ms} ms"
  | stepNegative ms => s!"time step must not be negative, got {ms} ms"
  | blend cause => cause.message

end AirTraffic
