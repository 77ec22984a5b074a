import AirTraffic.Proximity.Error
/-!
# Pairing criteria

How close in space and time two reports have to be to count as a pair.
-/
namespace AirTraffic

open Scalar

structure PairingCriteria (α : Type) where
  windowMs : Int
  distanceNm : α
  weights : MetricWeights α
  deriving Repr

namespace PairingCriteria

variable {α : Type} [Scalar α]

/-- Thirteen seconds and ten miles. -/
def standard : PairingCriteria α := ⟨13000, ofInt 10, Metric.equalWeights⟩

def windowLimitMs : Int := 100

def checkWeight (name : String) (value : α) : Except (PairingError α) Unit :=
  if isFinite value && decide (zero ≤ value) then .ok () else .error (.invalidWeight name value)

def check (c : PairingCriteria α) : Except (PairingError α) (PairingCriteria α) := do
  if c.windowMs ≤ windowLimitMs then throw (.windowTooSmall c.windowMs)
  if !(decide (zero < c.distanceNm) && isFinite c.distanceNm) then
    throw (.distanceNotPositive c.distanceNm)
  checkWeight "time" c.weights.time
  checkWeight "distance" c.weights.distance
  return c

def slackMs : Int := 7000

/-- The metric distance at which two reports pair. -/
def threshold (c : PairingCriteria α) : α :=
  c.weights.time * ofInt slackMs + c.weights.distance * c.distanceNm * Units.feetPerNm

end PairingCriteria
end AirTraffic
