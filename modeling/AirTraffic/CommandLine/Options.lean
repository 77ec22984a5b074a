import AirTraffic.CommandLine.Value
import AirTraffic.Proximity.Criteria
import AirTraffic.Scalar.Floating
/-!
# Options

What a run can be told. The flags are data, so that the reader of the arguments and the help text
agree.
-/
namespace AirTraffic.CommandLine

structure Options where
  /-- The file of reports; without one they come from standard input. -/
  input : Option String
  windowSecs : Float
  distanceNm : Float
  timeWeight : Float
  distanceWeight : Float
  outageAware : Bool
  smoothAltitudes : Bool
  altitudeStepSecs : Int
  verbose : Bool
  deriving Repr

def Options.standard : Options :=
  { input := none, windowSecs := 13.0, distanceNm := 10.0, timeWeight := 1.0, distanceWeight := 1.0
    outageAware := false, smoothAltitudes := false, altitudeStepSecs := 3, verbose := false }

def Options.criteria (o : Options) : Except (PairingError Float) (PairingCriteria Float) :=
  PairingCriteria.check
    ⟨Scalar.truncate (Scalar.round (o.windowSecs * 1000.0)), o.distanceNm,
      ⟨o.timeWeight, o.distanceWeight⟩⟩

inductive Setting where
  | input
  | windowSecs
  | distanceNm
  | timeWeight
  | distanceWeight
  | altitudeStepSecs
  deriving DecidableEq, Repr

inductive Switch where
  | outageAware
  | smoothAltitudes
  | verbose
  deriving DecidableEq, Repr

inductive Question where
  | help
  | version
  deriving DecidableEq, Repr

inductive Flag where
  | setting (s : Setting)
  | switch (s : Switch)
  | question (q : Question)
  deriving DecidableEq, Repr

inductive UsageError where
  | unknownArgument
  | malformedNumber
  | missingValue
  | unexpectedValue
  | givenTwice
  deriving DecidableEq, Repr

def UsageError.message : UsageError → String
  | unknownArgument => "unexpected argument"
  | malformedNumber => "invalid number"
  | missingValue => "a value is required"
  | unexpectedValue => "no value can be given to this option"
  | givenTwice => "an option cannot be used several times"

/-- Why the arguments do not lead to a run. -/
inductive Stop where
  | refused (cause : UsageError)
  | asked (q : Question)
  deriving DecidableEq, Repr

def refuse {β : Type} (cause : UsageError) : Except Stop β := .error (.refused cause)

def number {β : Type} (value : Option β) : Except Stop β :=
  match value with
  | some v => .ok v
  | none => refuse .malformedNumber

/-- An empty name of a file counts as missing. -/
def Setting.apply (s : Setting) (value : String) (o : Options) : Except Stop Options :=
  match s with
  | input => if value.isEmpty then refuse .missingValue else .ok { o with input := some value }
  | windowSecs => do return { o with windowSecs := ← number (Value.float? value) }
  | distanceNm => do return { o with distanceNm := ← number (Value.float? value) }
  | timeWeight => do return { o with timeWeight := ← number (Value.float? value) }
  | distanceWeight => do return { o with distanceWeight := ← number (Value.float? value) }
  | altitudeStepSecs => do return { o with altitudeStepSecs := ← number (Value.int64? value) }

def Switch.apply (s : Switch) (o : Options) : Options :=
  match s with
  | outageAware => { o with outageAware := true }
  | smoothAltitudes => { o with smoothAltitudes := true }
  | verbose => { o with verbose := true }

namespace Flag

def all : List Flag :=
  [ setting .input, setting .windowSecs, setting .distanceNm, setting .timeWeight,
    setting .distanceWeight,
    switch .outageAware, switch .smoothAltitudes, setting .altitudeStepSecs, switch .verbose,
    question .help, question .version ]

def long : Flag → String
  | setting .input => "input"
  | setting .windowSecs => "window-secs"
  | setting .distanceNm => "distance-nm"
  | setting .timeWeight => "time-coef"
  | setting .distanceWeight => "dist-coef"
  | setting .altitudeStepSecs => "altitude-step-secs"
  | switch .outageAware => "outage-aware"
  | switch .smoothAltitudes => "smooth-altitudes"
  | switch .verbose => "verbose"
  | question .help => "help"
  | question .version => "version"

def short? : Flag → Option Char
  | setting .input => some 'i'
  | switch .verbose => some 'v'
  | question .help => some 'h'
  | question .version => some 'V'
  | _ => none

def ofLong? (name : String) : Option Flag := all.find? (·.long == name)

def ofShort? (letter : Char) : Option Flag := all.find? (·.short? == some letter)

def placeholder? : Flag → Option String
  | setting .input => some "FILE"
  | setting .windowSecs => some "WINDOW_SECS"
  | setting .distanceNm => some "DISTANCE_NM"
  | setting .timeWeight => some "TIME_COEF"
  | setting .distanceWeight => some "DIST_COEF"
  | setting .altitudeStepSecs => some "ALTITUDE_STEP_SECS"
  | _ => none

def help : Flag → String
  | setting .input => "JSON-lines file of surveillance reports; reads stdin when omitted"
  | setting .windowSecs => "How long a report stays eligible for pairing, in seconds [default: 13]"
  | setting .distanceNm =>
      "Horizontal distance that makes two reports a candidate pair, in NM [default: 10]"
  | setting .timeWeight => "Pairing metric weight on time (per ms) [default: 1]"
  | setting .distanceWeight => "Pairing metric weight on distance (per ft) [default: 1]"
  | setting .altitudeStepSecs => "Altitude smoothing resampling step, in seconds [default: 3]"
  | switch .outageAware => "Drop errant points either side of data outages before smoothing"
  | switch .smoothAltitudes => "Savitzky-Golay smooth altitudes after the standard cleaning stages"
  | switch .verbose => "Verbose logging (DEBUG level)"
  | question .help => "Print help"
  | question .version => "Print version"

def usage (f : Flag) : List String :=
  let short := match f.short? with
    | some c => String.ofList [' ', ' ', '-', c, ',', ' ']
    | none => "      "
  let value := match f.placeholder? with
    | some v => " <" ++ v ++ ">"
    | none => ""
  [short ++ "--" ++ f.long ++ value, "          " ++ f.help]

end Flag

def Question.answer : Question → List String
  | help =>
    [ "Trajectory cleaning, streaming proximity pairing and closest-point-of-approach projection "
        ++ "for aircraft surveillance data",
      "", "Usage: airprox [OPTIONS]", "", "Options:" ] ++ Flag.all.flatMap Flag.usage
  | version => ["airprox 0.1.0"]

end AirTraffic.CommandLine
