import AirTraffic.Scalar.Powers
/-!
# Numerals

A numeral is the text of a number taken apart; what number it names depends on who reads it.
`nearest` is the closest floating-point number. `scaled` is what a reader gets that keeps the
leading digits in 64 bits and multiplies by a power of ten at the end; it refuses what grows out of
range.
-/
namespace AirTraffic

structure Numeral where
  negative : Bool
  whole : List Nat
  /-- The digits after the point, when there is a point. -/
  fraction : Option (List Nat)
  exponent : Option Int
  deriving Repr, DecidableEq

namespace Numeral

def digitsValue (digits : List Nat) : Nat := digits.foldl (fun n d => 10 * n + d) 0

/-- The whole number that the numeral names, if it has neither point nor exponent; a zero with a
minus names none. -/
def int? (n : Numeral) : Option Int :=
  match n.fraction, n.exponent with
  | none, none =>
    let magnitude := digitsValue n.whole
    if n.negative then (if magnitude = 0 then none else some (-(magnitude : Int)))
    else some magnitude
  | _, _ => none

def isInt64 (i : Int) : Bool := -(twoPow 63 : Int) ≤ i && i < (twoPow 63 : Int)

def signed (n : Numeral) (magnitude : Float) : Float := if n.negative then -magnitude else magnitude

/-- Exponents beyond this bound leave the range of floating-point numbers whatever the digits. -/
def nearest (n : Numeral) : Float :=
  let fraction := n.fraction.getD []
  let digits := digitsValue (n.whole ++ fraction)
  let exponent := n.exponent.getD 0 - fraction.length
  let place := (toString digits).length + exponent
  n.signed <|
    if digits = 0 ∨ place < -400 then 0.0
    else if 400 < place then 1.0 / 0.0
    else Float.ofScientific digits (exponent < 0) exponent.natAbs

structure Leading where
  significand : Nat
  exponent : Int

def leadingLimit : Nat := twoPow 64

def Leading.push (l : Leading) (digit : Nat) : Option Leading :=
  let next := 10 * l.significand + digit
  if next < leadingLimit then some { l with significand := next } else none

def Leading.wholeDigits (l : Leading) : List Nat → Leading
  | [] => l
  | d :: rest =>
    match l.push d with
    | some next => next.wholeDigits rest
    | none => { l with exponent := l.exponent + (rest.length + 1) }

def Leading.fractionDigits (l : Leading) : List Nat → Leading
  | [] => l
  | d :: rest =>
    match l.push d with
    | some next => fractionDigits { next with exponent := next.exponent - 1 } rest
    | none => l

def maxPower : Nat := 308

def tenTo (e : Nat) : Float := Float.ofScientific 1 false e

/-- Divides by `10 ^ e`, in steps that stay in range; after three of them nothing is left. -/
def divideByPower (x : Float) (e : Nat) : Nat → Float
  | 0 => 0.0
  | steps + 1 =>
    if e ≤ maxPower then x / tenTo e
    else if x == 0.0 then x
    else divideByPower (x / tenTo maxPower) (e - maxPower) steps

def scaleByPower? (x : Float) (e : Int) : Option Float :=
  if e < 0 then some (divideByPower x e.natAbs 4)
  else if e ≤ maxPower then
    let y := x * tenTo e.natAbs
    if y.isInf then none else some y
  else if x == 0.0 then some x
  else none

def scaled? (n : Numeral) : Option Float :=
  let leading := ((Leading.mk 0 0).wholeDigits n.whole).fractionDigits (n.fraction.getD [])
  n.signed <$> scaleByPower? (Float.ofNat leading.significand)
    (leading.exponent + n.exponent.getD 0)

end Numeral
end AirTraffic
