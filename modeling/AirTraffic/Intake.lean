import AirTraffic.Json.Record
import AirTraffic.Text.Blank
import AirTraffic.Scalar.Floating
import AirTraffic.Track
/-!
# Reading reports

One JSON record a line. Blank lines are passed over; the first line that cannot be read ends the
reading and is named in the error.
-/
namespace AirTraffic

/-- What the line format says about a report beyond its fields. -/
structure ReportFlags where
  /-- The sensor extrapolated the report and did not observe it. -/
  coasted : Bool
  deriving DecidableEq, Repr

inductive IntakeError where
  | unreadable
  | malformed (line : Nat)
  | rejected (line : Nat) (cause : ReportError Float)
  deriving Repr

def IntakeError.message : IntakeError → String
  | unreadable => "failed to read input"
  | malformed line => s!"line {line}: not a report"
  | rejected line cause => s!"line {line}: {cause.message}"

namespace Intake

abbrev InputReport := Report Float ReportFlags

def fieldNames : List String := ["time", "track", "lat", "lon", "alt", "speed", "course", "coasted"]

/-- Time, identity and position are required, and a report counts as observed unless it says
otherwise. -/
def draft? (record : Json) : Option (ReportDraft Float ReportFlags) := do
  match ← record.fields? fieldNames 4 with
  | [time, track, lat, lon, alt, speed, course, coasted] =>
    let position : Position Float := ⟨← (← lat).float?, ← (← lon).float?⟩
    let coasted ← match coasted with
      | none => some false
      | some flag => flag.bool?
    return {
      time := some (← (← time).int64?)
      position := some position
      altitude := ← Json.optionalFloat? alt
      speed := ← Json.optionalFloat? speed
      course := ← Json.optionalFloat? course
      curvature := none
      alongTrackDistance := none
      trackId := some (← (← track).string?)
      payload := ⟨coasted⟩ }
  | _ => none

def readLine (line : Nat) (text : String) : Except IntakeError InputReport :=
  match (Json.parse? text).bind draft? with
  | none => .error (.malformed line)
  | some draft => draft.build.mapError (.rejected line)

def splitLines (bytes : List UInt8) : List (List UInt8) :=
  bytes.foldr (fun b lines => if b = 10 then [] :: lines else (b :: lines.headD []) :: lines.tail)
    [[]]

def readLines (line : Nat) : List (List UInt8) → Except IntakeError (List InputReport)
  | [] => .ok []
  | bytes :: rest =>
    match String.fromUTF8? ⟨bytes.toArray⟩ with
    | none => .error .unreadable
    | some text =>
      if Text.allBlank text then readLines (line + 1) rest
      else do
        let report ← readLine line text
        return report :: (← readLines (line + 1) rest)

def reports (input : ByteArray) : Except IntakeError (List InputReport) :=
  readLines 1 (splitLines input.toList)

end Intake
end AirTraffic
