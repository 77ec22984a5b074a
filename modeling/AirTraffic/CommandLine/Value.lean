import AirTraffic.Decimal.Digits
/-!
# Numbers among the arguments
-/
namespace AirTraffic.CommandLine.Value

open Numeral

def sign : List Char → Bool × List Char
  | '-' :: rest => (true, rest)
  | '+' :: rest => (false, rest)
  | cs => (false, cs)

def int? (s : String) : Option Int := do
  let (negative, cs) := sign s.toList
  let (ds, rest) ← digits1 cs
  guard rest.isEmpty
  let magnitude : Int := digitsValue ds
  return if negative then -magnitude else magnitude

def int64? (s : String) : Option Int := (int? s).filter isInt64

/-- Digits may be missing on one side of the point. -/
def numeral? (negative : Bool) (cs : List Char) : Option Numeral := do
  let (whole, rest) := digits cs
  let (fraction, rest) :=
    match rest with
    | '.' :: rest =>
      let (ds, rest) := digits rest
      (some ds, rest)
    | _ => (none, rest)
  guard (!(whole ++ fraction.getD []).isEmpty)
  let (exponent, rest) ← exponentPart rest
  guard rest.isEmpty
  return ⟨negative, whole, fraction, exponent⟩

def named? (cs : List Char) : Option Float :=
  match String.ofList (cs.map Char.toLower) with
  | "inf" | "infinity" => some (1.0 / 0.0)
  | "nan" => some (0.0 / 0.0)
  | _ => none

def float? (s : String) : Option Float :=
  let (negative, cs) := sign s.toList
  match named? cs with
  | some x => some (if negative then -x else x)
  | none => Numeral.nearest <$> numeral? negative cs

end AirTraffic.CommandLine.Value
