import AirTraffic.CommandLine.Arguments
import AirTraffic.Program
/-!
# The command line
-/
namespace AirTraffic.CommandLine

def readInput (input : Option String) : IO (Option ByteArray) := do
  match input with
  | none => some <$> (← IO.getStdin).readBinToEnd
  | some path => try some <$> IO.FS.readBinFile path catch _ => pure none

def runProgram (o : Options) : IO UInt32 := do
  let transcript := Transcript.ofRun o (← readInput o.input)
  for line in transcript.log do
    IO.eprintln (line.level.label ++ " " ++ line.message)
  for record in transcript.records do
    IO.println record
  match transcript.failure with
  | none => return 0
  | some failure =>
    IO.eprintln ("Error: " ++ failure.message)
    return 1

def execute (args : List String) : IO UInt32 := do
  match Options.ofArguments args with
  | .ok o => runProgram o
  | .error (.asked q) =>
    for line in q.answer do
      IO.println line
    return 0
  | .error (.refused cause) =>
    IO.eprintln ("error: " ++ cause.message)
    return 2

end AirTraffic.CommandLine

def main (args : List String) : IO UInt32 := AirTraffic.CommandLine.execute args
