import AirTraffic.Track
import AirTraffic.Polyline
import AirTraffic.Fit.MovingWindow
/-!
# Smooth altitude profiles

Altitudes are sampled at even steps, the samples smoothed, and the smooth altitude read back at the
time of every report. What lies past the last whole step keeps its measured altitude.
-/
namespace AirTraffic

open Scalar

structure AltitudeProfile (α : Type) where
  stepMs : Int
  filter : MovingFit α
  positive : 0 < stepMs

namespace AltitudeProfile

variable {α ρ : Type} [Scalar α]

def defaultStepMs : Int := 3000

def withFilter (stepMs : Int) (filter : MovingFit α) :
    Except (SettingError α) (AltitudeProfile α) :=
  if h : 0 < stepMs then .ok ⟨stepMs, filter, h⟩
  else .error (.notPositive "altitude time step" (ofInt stepMs))

def ofStep [TableInverse α] (stepMs : Int) : Except (SettingError α) (AltitudeProfile α) :=
  if 0 < stepMs then do
    withFilter stepMs (← MovingFit.standard (ofInt stepMs / Units.msPerSecond))
  else .error (.notPositive "altitude time step" (ofInt stepMs))

def sampleTimes (stepMs : Int) (span : TimeSpan) : List Int :=
  let times := span.steps stepMs
  if span.duration % stepMs = 0 then times else times.dropLast

def measured? (reports : List (Report α ρ)) : Option (Polyline α) :=
  reports.mapM fun r => r.altitude.map (r.time, ·)

def smoothed (s : AltitudeProfile α) (span : TimeSpan) (measured : Polyline α) : Polyline α :=
  let times := sampleTimes s.stepMs span
  times.zip (s.filter.smooth (times.filterMap measured.value?))

def follow (profile : Polyline α) (r : Report α ρ) : Report α ρ :=
  match profile.value? r.time with
  | some altitude => r.withAltitude (some altitude)
  | none => r

/-- Tracks of less than two steps, and tracks with altitudes missing, stay as they are. -/
def clean (s : AltitudeProfile α) (reports : List (Report α ρ)) : List (Report α ρ) :=
  match reports.head?, reports.getLast?, measured? reports with
  | some first, some last, some measured =>
    let span := TimeSpan.between first.time last.time
    if span.duration < 2 * s.stepMs then reports
    else reports.map (follow (s.smoothed span measured))
  | _, _, _ => reports

end AltitudeProfile
end AirTraffic
