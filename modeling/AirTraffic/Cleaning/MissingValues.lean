import AirTraffic.Track
import AirTraffic.Polyline
/-!
# Missing altitudes and speeds

An altitude that is not positive counts as missing. Missing altitudes follow the known ones around
them, missing speeds the way between the neighbouring reports.
-/
namespace AirTraffic.MissingValues

open Scalar

variable {α ρ : Type} [Scalar α]

def dropZeroAltitude (r : Report α ρ) : Report α ρ :=
  if r.altitude.any fun a => decide (a ≤ zero) then r.withAltitude none else r

def known? (r : Report α ρ) : Option (Int × α) := r.altitude.map (r.time, ·)

/-- From the last known altitude before and the first one after. -/
def estimate? (before after : Option (Int × α)) (t : Int) : Option α :=
  match before, after with
  | some p, some q => some (if q.1 = p.1 then lerp p.2 q.2 zero else Polyline.between p q t)
  | some p, none => some p.2
  | none, some q => some q.2
  | none, none => none

def fillAltitudesFrom (before : Option (Int × α)) : List (Report α ρ) → List (Report α ρ)
  | [] => []
  | r :: rest =>
    match known? r with
    | some p => r :: fillAltitudesFrom (some p) rest
    | none => r.withAltitude (estimate? before (rest.findSome? known?) r.time)
      :: fillAltitudesFrom before rest

/-- Absent when no altitude is known at all. -/
def fillAltitudes (reports : List (Report α ρ)) : Option (List (Report α ρ)) :=
  if reports.any (·.altitude.isSome) then some (fillAltitudesFrom none reports) else none

variable [Geodesy α]

def impliedSpeed (p q : Report α ρ) : α :=
  p.distanceTo q / (ofInt (q.time - p.time).natAbs / Units.msPerHour)

/-- Between two neighbours the mean over both legs and the way past the report; at an end that of
its one leg. -/
def deducedSpeed? (before : Option (Report α ρ)) (r : Report α ρ) (after : Option (Report α ρ)) :
    Option α :=
  match before, after with
  | some p, some q => some ((impliedSpeed p r + impliedSpeed r q + impliedSpeed p q) / ofInt 3)
  | some p, none => some (impliedSpeed p r)
  | none, some q => some (impliedSpeed r q)
  | none, none => none

def fillSpeedsFrom (before : Option (Report α ρ)) : List (Report α ρ) → List (Report α ρ)
  | [] => []
  | r :: rest =>
    (if r.speed.isNone then r.withSpeed (deducedSpeed? before r rest.head?) else r)
      :: fillSpeedsFrom (some r) rest

def fillSpeeds (reports : List (Report α ρ)) : Option (List (Report α ρ)) :=
  if reports.length < 2 then none else some (fillSpeedsFrom none reports)

end AirTraffic.MissingValues
