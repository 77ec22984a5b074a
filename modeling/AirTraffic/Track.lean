import AirTraffic.Report.Blend
import AirTraffic.TimeSpan
/-!
# Tracks

The reports of one aircraft in order. A track has at least one report; where cleaning leaves none,
there is no track.
-/
namespace AirTraffic

structure Track (α ρ : Type) where
  reports : List (Report α ρ)
  reports_ne_nil : reports ≠ []

inductive TrackError where
  | empty
  deriving DecidableEq, Repr

def TrackError.message : TrackError → String
  | empty => "a track requires at least one point"

namespace Track

variable {α ρ : Type} [Scalar α]

def ofReports? (reports : List (Report α ρ)) : Option (Track α ρ) :=
  let sorted := Report.sort reports
  if h : sorted ≠ [] then some ⟨sorted, h⟩ else none

def ofReports (reports : List (Report α ρ)) : Except TrackError (Track α ρ) :=
  match ofReports? reports with
  | some track => .ok track
  | none => .error .empty

def size (t : Track α ρ) : Nat := t.reports.length

def first (t : Track α ρ) : Report α ρ := t.reports.head t.reports_ne_nil

def last (t : Track α ρ) : Report α ρ := t.reports.getLast t.reports_ne_nil

def span (t : Track α ρ) : TimeSpan := .between t.first.time t.last.time

def id? (t : Track α ρ) : Option String := t.first.trackId

def within (t : Track α ρ) (w : TimeSpan) : List (Report α ρ) :=
  (t.reports.dropWhile (·.time < w.start)).takeWhile (·.time ≤ w.stop)

/-- The report at an instant, blended from its neighbours where there is none; absent outside the
span of the track, and where the neighbours are too far apart. -/
def at? [Geodesy α] (t : Track α ρ) (time : Int) : Option (Report α ρ) :=
  if !t.span.contains time then none
  else
    match (t.reports.takeWhile (·.time < time)).getLast?, t.reports.dropWhile (·.time < time) with
    | _, [] => none
    | none, after :: _ => some after
    | some before, after :: _ => if after.time = time then some after else
      (before.blend after time).toOption

end Track

/-- One track for each identity among the reports, by identity. Reports of no known aircraft are
left out. -/
def Track.group {α ρ : Type} [Scalar α] (reports : List (Report α ρ)) : List (Track α ρ) :=
  let ids := (reports.filterMap (·.trackId)).eraseDups.mergeSort fun a b => a ≤ b
  ids.filterMap fun id => ofReports? (reports.filter (·.trackId == some id))

end AirTraffic
