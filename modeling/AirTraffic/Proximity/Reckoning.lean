import AirTraffic.Proximity.Error
/-!
# Dead reckoning

Reports taken at slightly different instants are moved to one instant along their courses before
they are compared.
-/
namespace AirTraffic

open Scalar

variable {α ρ : Type} [Scalar α] [Geodesy α]

def Report.reckon (r : Report α ρ) (time : Int) : Report α ρ :=
  let moved : Report α ρ :=
    match r.speed, r.course with
    | some speed, some course =>
      r.withPosition (Geodesy.destination r.position course
        (Units.nmTravelled speed (time - r.time)))
    | _, _ => r
  { moved with time := time }

def halfwayTime (t u : Int) : Int := t + (u - t).tdiv 2

/-- Separation in feet, altitude included, with both reports carried to the instant half way between
them. -/
def Report.reckonedFeet (r q : Report α ρ) (limitMs : Int) : Except (PairingError α) α :=
  let apart : Int := (r.time - q.time).natAbs
  if limitMs < apart then .error (.tooFarInTime apart limitMs)
  else
    let time := halfwayTime r.time q.time
    (Metric.spatial ⟨zero, one⟩ (r.reckon time) (q.reckon time)).mapError .unmeasurable

end AirTraffic
