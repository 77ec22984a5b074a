import AirTraffic.Decimal.Rounding
import AirTraffic.Decimal.Shortest
/-!
# Numbers as text

Messages write a number with all its places, records switch to an exponent where the number is very
large or very small. Both use the fewest digits that read back.
-/
namespace AirTraffic.Decimal

def positional (digits : String) (place : Int) : String :=
  if place ≤ 0 then "0." ++ zeros (-place).toNat ++ digits
  else if (digits.length : Int) ≤ place then digits ++ zeros (place - digits.length).toNat
  else String.ofList (digits.toList.take place.toNat) ++ "." ++
    String.ofList (digits.toList.drop place.toNat)

def scientific (digits : String) (place : Int) : String :=
  let point := if digits.length ≤ 1 then "" else "."
  String.ofList (digits.toList.take 1) ++ point ++ String.ofList (digits.toList.drop 1) ++
    "e" ++ toString (place - 1)

def place (d : Decimal) : Int := (toString d.digits).length + d.exponent

def plain (d : Decimal) : String :=
  if d.digits = 0 then "0" else positional (toString d.digits) d.place

/-- Positional from `1e-5` up to `1e16`, always with a point or an exponent. -/
def record (d : Decimal) : String :=
  if d.digits = 0 then "0.0"
  else
    let text := toString d.digits
    if -5 < d.place ∧ d.place ≤ 16 then
      positional text d.place ++ (if 0 ≤ d.exponent then ".0" else "")
    else scientific text d.place

def signed (negative : Bool) (text : String) : String := if negative then "-" ++ text else text

/-- The text of a number in messages. Of two decimals equally near it shows the one farther from
zero. -/
def messageText (x : Float) : String :=
  match Binary.ofFloat? x with
  | some b => signed b.negative (shortest .above b).plain
  | none => if x.isNaN then "NaN" else if x < 0.0 then "-inf" else "inf"

/-- The text of a number in records, which know no infinite ones. Of two decimals equally near the
even one stands. -/
def recordText (x : Float) : String :=
  match Binary.ofFloat? x with
  | some b => signed b.negative (shortest .even b).record
  | none => "null"

def roundedText (places : Nat) (x : Float) : String :=
  match Binary.ofFloat? x with
  | some b => signed b.negative (fixedText places b.ratio.1 b.ratio.2)
  | none => messageText x

end AirTraffic.Decimal
