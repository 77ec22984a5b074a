import AirTraffic.Decimal.Numeral
/-!
# Reading digits

The parts of a written number that all grammars share. Every reader gives back the text after what
it read.
-/
namespace AirTraffic.Numeral

def isDigit (c : Char) : Bool := '0' ≤ c && c ≤ '9'

def digits (cs : List Char) : List Nat × List Char :=
  ((cs.takeWhile isDigit).map (·.toNat - 48), cs.dropWhile isDigit)

def digits1 (cs : List Char) : Option (List Nat × List Char) :=
  let (ds, rest) := digits cs
  if ds.isEmpty then none else some (ds, rest)

def exponentDigits (negative : Bool) (cs : List Char) : Option (Option Int × List Char) := do
  let (ds, rest) ← digits1 cs
  let magnitude : Int := digitsValue ds
  return (some (if negative then -magnitude else magnitude), rest)

def exponentPart : List Char → Option (Option Int × List Char)
  | c :: rest =>
    if c == 'e' || c == 'E' then
      match rest with
      | '-' :: rest => exponentDigits true rest
      | '+' :: rest => exponentDigits false rest
      | _ => exponentDigits false rest
    else some (none, c :: rest)
  | [] => some (none, [])

end AirTraffic.Numeral
