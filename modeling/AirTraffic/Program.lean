import AirTraffic.CommandLine.Options
import AirTraffic.Cleaning.Standard
import AirTraffic.Encounter.Summary
import AirTraffic.Intake
import AirTraffic.Proximity.Association
import AirTraffic.Standard
import AirTraffic.Text.Visible
/-!
# A run

From the reports to the encounters: each track is cleaned, the cleaned tracks are paired, and every
associated pair is summed up. A pair that cannot be summed up is passed over with a warning.
-/
namespace AirTraffic

inductive LogLevel where
  | info
  | warning
  deriving DecidableEq, Repr

def LogLevel.label : LogLevel → String
  | info => "INFO"
  | warning => "WARN"

structure LogLine where
  level : LogLevel
  message : String
  deriving DecidableEq, Repr

/-- What ends a run early. -/
inductive Failure where
  | criteria (cause : PairingError Float)
  | intake (cause : IntakeError)
  | setting (cause : SettingError Float)
  deriving Repr

def Failure.message : Failure → String
  | criteria cause => cause.message
  | intake cause => cause.message
  | setting cause => cause.message

abbrev Run := ExceptT Failure (StateM (List LogLine))

namespace Run

open CommandLine (Options)

def say (level : LogLevel) (message : String) : Run Unit :=
  modify (· ++ [⟨level, Text.visible message⟩])

def orFail {ε β : Type} (failure : ε → Failure) (result : Except ε β) : Run β :=
  ExceptT.mk (pure (result.mapError failure))

def criteriaMessage (c : PairingCriteria Float) : String :=
  "Pairing window " ++ toString c.windowMs ++ " ms, distance " ++ Decimal.messageText c.distanceNm
    ++ " NM, threshold " ++ Decimal.roundedText 0 c.threshold

def plan (o : Options) : Except (SettingError Float) (CleaningPlan Float ReportFlags) := do
  let isCoasted (r : Intake.InputReport) : Bool := r.payload.coasted
  let base :=
    if o.outageAware then CleaningPlan.outageAware isCoasted else CleaningPlan.core isCoasted
  if o.smoothAltitudes then
    let profile ← AltitudeProfile.ofStep (o.altitudeStepSecs * 1000)
    return base ++ [.step (.work [.step (.smoothAltitudes profile)])]
  else return base

def clean (plan : CleaningPlan Float ReportFlags) (raw : List (Track Float ReportFlags)) :
    Run (List (Track Float ReportFlags)) := do
  let tracks := raw.filterMap plan.run
  if tracks.length < raw.length then
    say .info (toString (raw.length - tracks.length) ++ " of " ++ toString raw.length
      ++ " tracks did not survive cleaning")
  return tracks

def record (p : TrackPair Float ReportFlags) : Run (Option String) :=
  match p.encounter with
  | .ok encounter => return some encounter.json
  | .error cause => do
    say .warning ("Skipping " ++ p.first.id?.getD "?" ++ " / " ++ p.second.id?.getD "?" ++
      ": " ++ cause.message)
    return none

def pairAt (tracks : List (Track Float ReportFlags)) (indices : Nat × Nat) :
    Option (TrackPair Float ReportFlags) := do
  return .of (← tracks[indices.1]?) (← tracks[indices.2]?)

/-- The records of a run over the bytes of the input, which are missing if it could not be opened.
-/
def records (o : Options) (input : Option ByteArray) : Run (List String) := do
  if o.verbose then say .info "Verbose logging enabled (DEBUG level)"
  let criteria ← orFail .criteria o.criteria
  say .info (criteriaMessage criteria)
  let bytes ← orFail .intake (input.elim (.error .unreadable) .ok)
  let raw := Track.group (← orFail .intake (Intake.reports bytes))
  say .info ("Read " ++ toString raw.length ++ " tracks")
  let tracks ← clean (← orFail .setting (plan o)) raw
  let candidates ← orFail .criteria (Association.candidates RebuildOrder.arrival tracks criteria)
  say .info (toString candidates.length ++ " candidate track pairs")
  (candidates.filterMap (pairAt tracks)).filterMapM record

end Run

structure Transcript where
  records : List String
  log : List LogLine
  failure : Option Failure

def Transcript.ofRun (o : CommandLine.Options) (input : Option ByteArray) : Transcript :=
  match (Run.records o input).run.run [] with
  | (.ok records, log) => ⟨records, log, none⟩
  | (.error failure, log) => ⟨[], log, some failure⟩

end AirTraffic
