import AirTraffic.Report
/-!
# Distance in time and space

Both metrics are weighted sums of a time difference in milliseconds and a separation in feet, so
both are metrics wherever the separation is one.
-/
namespace AirTraffic

open Scalar

inductive MetricError where
  | missingAltitude (time : Int)
  deriving DecidableEq, Repr

def MetricError.message : MetricError → String
  | missingAltitude time => s!"point at time {time} has no altitude, required for 3-D distance"

abbrev Metric (α ρ : Type) := Report α ρ → Report α ρ → Except MetricError α

structure MetricWeights (α : Type) where
  /-- Per millisecond. -/
  time : α
  /-- Per foot. -/
  distance : α
  deriving Repr

namespace Metric

variable {α ρ : Type} [Scalar α]

def equalWeights : MetricWeights α := ⟨one, one⟩

def weighted (w : MetricWeights α) (feet : α) (timeMs : Nat) : α :=
  w.distance * feet + w.time * ofInt timeMs

/-- Idealised to an unbounded integer, as times are. -/
def timeApart (r q : Report α ρ) : Nat := (r.time - q.time).natAbs

def feetApart [Geodesy α] (r q : Report α ρ) : α := r.distanceTo q * Units.feetPerNm

/-- Altitudes do not count. -/
def flat [Geodesy α] (w : MetricWeights α) : Metric α ρ :=
  fun r q => .ok (weighted w (feetApart r q) (timeApart r q))

def requiredAltitude (r : Report α ρ) : Except MetricError α :=
  match r.altitude with
  | some altitude => .ok altitude
  | none => .error (.missingAltitude r.time)

/-- Both reports need an altitude. -/
def spatial [Geodesy α] (w : MetricWeights α) : Metric α ρ := fun r q => do
  let vertical := abs ((← requiredAltitude r) - (← requiredAltitude q))
  return weighted w (hypot (feetApart r q) vertical) (timeApart r q)

end Metric
end AirTraffic
