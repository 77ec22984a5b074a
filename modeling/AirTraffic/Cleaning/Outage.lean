import AirTraffic.Track.Nearest
import AirTraffic.Geo.LocalPlane
import AirTraffic.Cleaning.Spacing
/-!
# Errant reports next to outages

Sensors tend to emit wrong positions right before losing a target and right after finding it again.
Reports close to an outage, or to an end of the track, are dropped when an impossible acceleration
lies between them and the rest of the track.
-/
namespace AirTraffic

open Scalar AirTraffic.Units

/-- Reports just before and just after a break in the data. -/
structure Outage where
  before : Stretch
  after : Stretch
  deriving DecidableEq, Repr

/-- How far times are apart is idealised to an unbounded integer. -/
structure OutageTest (α : Type) where
  /-- Knots per second. -/
  maximumAcceleration : α
  /-- How far from an outage reports are inspected. -/
  windowMs : Int
  /-- Reports further apart than this have an outage between them. -/
  gapMs : Int

namespace OutageTest

variable {α ρ : Type} [Scalar α] (test : OutageTest α)

def standard : OutageTest α := ⟨ofInt 70, 15000, 10000⟩

/-- The indices up to `last` whose times are less than a window before the time there. -/
def inspectedBefore (times : List Int) (last : Nat) (t : Int) : Stretch :=
  let start := (times.takeWhile (· ≤ t - test.windowMs)).length
  .upTo (min start (last + 1)) (last + 1)

/-- The indices from `first` on whose times are less than a window after the time there. -/
def inspectedAfter (times : List Int) (first : Nat) (t : Int) : Stretch :=
  .upTo first (times.takeWhile (· < t + test.windowMs)).length

def outages (times : List Int) : List Outage :=
  match times with
  | [] => []
  | start :: rest =>
    let stop := rest.getLastD start
    let gaps := ((times.zip rest).zipIdx.filter fun p => p.1.1 + test.gapMs < p.1.2)
    ⟨⟨0, 0⟩, test.inspectedAfter times 0 start⟩
      :: ⟨test.inspectedBefore times rest.length stop, ⟨0, 0⟩⟩
      :: gaps.map fun p =>
        ⟨test.inspectedBefore times p.2 p.1.1, test.inspectedAfter times (p.2 + 1) p.1.2⟩

/-- Triples that lie in a stretch. -/
def triples (s : Stretch) : List Nat := List.range' s.start (s.length - 2)

/-- Before an outage everything from the end of the first bad triple on. -/
def droppedBefore (bad : Nat → Bool) (s : Stretch) : Stretch :=
  match (triples s).find? bad with
  | some i => .upTo (i + 2) s.stop
  | none => ⟨0, 0⟩

/-- After an outage everything up to the start of the last bad triple. -/
def droppedAfter (bad : Nat → Bool) (s : Stretch) : Stretch :=
  match (triples s).reverse.find? bad with
  | some i => .upTo s.start (i + 1)
  | none => ⟨0, 0⟩

def dropFlags (times : List Int) (bad : Nat → Bool) : List Bool :=
  let dropped :=
    (test.outages times).flatMap fun o => [droppedBefore bad o.before, droppedAfter bad o.after]
  (List.range times.length).map fun i => dropped.any (·.contains i)

def velocity (plane : LocalPlane α) (p q : Report α ρ) : Offset α :=
  let a := plane.offset p.position
  let b := plane.offset q.position
  let hours := ofInt (q.time - p.time) / msPerHour
  ⟨(b.east - a.east) / hours, (b.north - a.north) / hours⟩

/-- Change of velocity over half the time that three reports span. -/
def acceleration (plane : LocalPlane α) (p q r : Report α ρ) : α :=
  let u := velocity plane p q
  let v := velocity plane q r
  let seconds := ofInt (r.time - p.time) / ofInt 2000
  abs (hypot (u.east - v.east) (u.north - v.north) / seconds)

def badTriples (plane : LocalPlane α) : List (Report α ρ) → List Bool
  | p :: q :: r :: rest =>
    decide (test.maximumAcceleration < acceleration plane p q r) ::
      badTriples plane (q :: r :: rest)
  | _ => []

def flags (reports : List (Report α ρ)) : List Bool :=
  match reports with
  | [] => []
  | first :: _ =>
    let bad := (test.badTriples (.around first.position) reports).toArray
    test.dropFlags (Report.times reports) fun i => bad.getD i false

def clean (reports : List (Report α ρ)) : Option (List (Report α ρ)) :=
  let kept := Report.dropFlagged (test.flags reports) reports
  if kept.isEmpty then none else some kept

end OutageTest
end AirTraffic
