/-!
# Characters that a terminal obeys

A log line can quote text from outside. Characters that would make a terminal ring, move or recolour
are written out as escapes; tabs, ends of line and all others stay.
-/
namespace AirTraffic.Text

def isTerminalCommand (c : Char) : Bool := [7, 8, 12, 27, 127].contains c.toNat

/-- The control characters beyond the first 128, which some terminals take for two-character
commands. -/
def isHighControl (c : Char) : Bool := 0x80 ≤ c.toNat && c.toNat ≤ 0x9F

def hexByte (n : Nat) : String := String.ofList [Nat.digitChar (n / 16), Nat.digitChar (n % 16)]

def visibleChar (c : Char) : String :=
  if isTerminalCommand c then "\\x" ++ hexByte c.toNat
  else if isHighControl c then "\\u\x7b" ++ hexByte c.toNat ++ "\x7d"
  else c.toString

def visible (s : String) : String := String.join (s.toList.map visibleChar)

end AirTraffic.Text
