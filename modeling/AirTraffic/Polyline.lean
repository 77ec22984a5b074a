import AirTraffic.Scalar
/-!
# Broken lines

A value sampled at ordered instants, read off between the samples along straight segments.
-/
namespace AirTraffic

abbrev Polyline (α : Type) := List (Int × α)

namespace Polyline

open Scalar

variable {α : Type} [Scalar α]

/-- The value at `t` on the segment between two samples. -/
def between (p q : Int × α) (t : Int) : α := lerp p.2 q.2 (ofInt (t - p.1) / ofInt (q.1 - p.1))

/-- The value at `t`; of several samples at one instant the first. Absent outside the samples. -/
def value? : Polyline α → Int → Option α
  | [], _ => none
  | [p], t => if t = p.1 then some p.2 else none
  | p :: q :: rest, t =>
    if t < p.1 then none
    else if t = p.1 then some p.2
    else if t < q.1 then some (between p q t)
    else value? (q :: rest) t

/-- How fast the value falls along the segment between two samples, per millisecond. -/
def descent (p q : Int × α) : α := (p.2 - q.2) / ofInt (q.1 - p.1)

/-- The descent on the segment that starts at or before `t`; at the last sample that of the last
segment. -/
def descent? : Polyline α → Int → Option α
  | p :: q :: rest, t =>
    if t < p.1 then none
    else if t < q.1 ∨ (t = q.1 ∧ rest.isEmpty) then some (descent p q)
    else descent? (q :: rest) t
  | _, _ => none

end Polyline
end AirTraffic
