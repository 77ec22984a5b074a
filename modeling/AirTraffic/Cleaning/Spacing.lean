import AirTraffic.Track
import AirTraffic.Settings
/-!
# Spacing of reports

Reports crowded together in time are dropped altogether, and a dense track is thinned to reports
some time or some way apart.
-/
namespace AirTraffic

open Scalar

variable {α ρ : Type} [Scalar α]

def Report.dropFlagged : List Bool → List (Report α ρ) → List (Report α ρ)
  | [], reports => reports
  | _, [] => []
  | flag :: flags, r :: reports =>
    if flag then dropFlagged flags reports else r :: dropFlagged flags reports

/-- Of two reports too close in time neither stays: keeping one would mean guessing which is honest.
How far they are apart is idealised to an unbounded integer. -/
structure Crowding where
  minimumMs : Int
  positive : 0 < minimumMs

namespace Crowding

def standard : Crowding := ⟨500, by decide⟩

def ofMs (ms : Int) : Except (SettingError α) Crowding :=
  if h : 0 < ms then .ok ⟨ms, h⟩ else .error (.notPositive "minimum spacing" (ofInt ms))

def flagsFrom (c : Crowding) (afterClose : Bool) : List Int → List Bool
  | [] => []
  | [_] => [afterClose]
  | t :: u :: rest =>
    let close := u - t < c.minimumMs
    (afterClose || close) :: flagsFrom c close (u :: rest)

/-- Which times are too close to the one before or after. -/
def flags (c : Crowding) (times : List Int) : List Bool := c.flagsFrom false times

def clean (c : Crowding) (track : Track α ρ) : Option (Track α ρ) :=
  Track.ofReports? (Report.dropFlagged (c.flags (track.reports.map (·.time))) track.reports)

end Crowding

/-- The least number of reports worth calling a track. -/
structure TrackSize where
  minimum : Nat
  positive : 0 < minimum

namespace TrackSize

def standard : TrackSize := ⟨9, by decide⟩

def ofNat (minimum : Nat) : Except (SettingError α) TrackSize :=
  if h : 0 < minimum then .ok ⟨minimum, h⟩ else .error (.notPositive "minimum track size" zero)

def tooSmall (s : TrackSize) (track : Track α ρ) : Bool := track.size < s.minimum

def clean (s : TrackSize) (track : Track α ρ) : Option (Track α ρ) :=
  if s.tooSmall track then none else some track

end TrackSize

def Report.thinAfter (close : Report α ρ → Report α ρ → Bool) (kept : Report α ρ) :
    List (Report α ρ) → List (Report α ρ)
  | [] => []
  | r :: rest => if close kept r then thinAfter close kept rest else r :: thinAfter close r rest

def Report.thin (close : Report α ρ → Report α ρ → Bool) : List (Report α ρ) → List (Report α ρ)
  | [] => []
  | r :: rest => r :: thinAfter close r rest

structure TimeThinning where
  minimumMs : Int
  positive : 0 < minimumMs

namespace TimeThinning

def standard : TimeThinning := ⟨4000, by decide⟩

def ofMs (ms : Int) : Except (SettingError α) TimeThinning :=
  if h : 0 < ms then .ok ⟨ms, h⟩ else .error (.notPositive "minimum time delta" (ofInt ms))

def close (s : TimeThinning) (kept r : Report α ρ) : Bool := r.time - kept.time < s.minimumMs

def clean (s : TimeThinning) (reports : List (Report α ρ)) : List (Report α ρ) :=
  Report.thin s.close reports

end TimeThinning

/-- A report that has hardly moved is kept only when the heartbeat has run out. The time since the
last report is idealised to an unbounded integer. -/
structure DistanceThinning (α : Type) where
  minimumNm : α
  heartbeatMs : Int
  positive : 0 < heartbeatMs

namespace DistanceThinning

def standard : DistanceThinning α := ⟨ofInt 10 / Units.feetPerNm, 30000, by decide⟩

def ofLimits (minimumNm : α) (heartbeatMs : Int) : Except (SettingError α) (DistanceThinning α) :=
  if !(decide (zero < minimumNm) && isFinite minimumNm) then
    .error (.notPositive "minimum distance" minimumNm)
  else if h : 0 < heartbeatMs then .ok ⟨minimumNm, heartbeatMs, h⟩
  else .error (.notPositive "heartbeat" (ofInt heartbeatMs))

def close [Geodesy α] (s : DistanceThinning α) (kept r : Report α ρ) : Bool :=
  kept.distanceTo r < s.minimumNm && (r.time - kept.time).natAbs < s.heartbeatMs

def clean [Geodesy α] (s : DistanceThinning α) (reports : List (Report α ρ)) : List (Report α ρ) :=
  Report.thin s.close reports

end DistanceThinning
end AirTraffic
