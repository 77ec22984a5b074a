/-!
# Durations as text

Minutes and seconds, such as `1m 5.123 sec`. No minutes are written unless there are some.
-/
namespace AirTraffic.Text

def zeroPadded (width : Nat) (n : Int) : String :=
  let digits := toString n.natAbs
  let sign := if n < 0 then "-" else ""
  sign ++ String.ofList (List.replicate (width - sign.length - digits.length) '0') ++ digits

/-- Division is toward zero: every part of a negative duration has its own sign. -/
def duration (ms : Int) : String :=
  let minutes := ms.tdiv 60000
  let rest := ms.tmod 60000
  let seconds := toString (rest.tdiv 1000) ++ "." ++ zeroPadded 3 (rest.tmod 1000) ++ " sec"
  if 0 < minutes then toString minutes ++ "m " ++ seconds else seconds

end AirTraffic.Text
