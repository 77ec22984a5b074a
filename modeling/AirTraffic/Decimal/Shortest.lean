import AirTraffic.Scalar.Binary
/-!
# The fewest digits that read back

A floating-point number stands for every real number that rounds to it. Its shortest decimal is the
one with the fewest digits among those, and of these the nearest. Candidates at each number of
digits are the two neighbours of the number on that decimal grid, tested in exact arithmetic.
-/
namespace AirTraffic

inductive Tie where
  | even
  | above
  deriving Repr, DecidableEq

structure Decimal where
  digits : Nat
  exponent : Int
  deriving Repr, DecidableEq

/-- A number and the ends of the interval that rounds to it, over one denominator. -/
structure RoundingInterval where
  value : Nat
  lower : Nat
  upper : Nat
  denominator : Nat
  /-- Whether the ends belong to the interval. -/
  closed : Bool

namespace RoundingInterval

/-- Below a power of two the next lower number is only half as far away. -/
def ofBinary (b : Binary) : RoundingInterval :=
  let below := if b.significand = twoPow 52 ∧ -1074 < b.exponent then 1 else 2
  let q := b.exponent - 2
  let scale := twoPow q.toNat
  { value := 4 * b.significand * scale
    lower := (4 * b.significand - below) * scale
    upper := (4 * b.significand + 2) * scale
    denominator := twoPow (-q).toNat
    closed := b.significand % 2 = 0 }

def scaled (i : RoundingInterval) (g : Int) : RoundingInterval :=
  let up := tenPow (-g).toNat
  { i with
    value := i.value * up, lower := i.lower * up, upper := i.upper * up
    denominator := i.denominator * tenPow g.toNat }

def contains (i : RoundingInterval) (n : Nat) : Bool :=
  let x := n * i.denominator
  if i.closed then i.lower ≤ x && x ≤ i.upper else i.lower < x && x < i.upper

def nearestWhole? (tie : Tie) (i : RoundingInterval) : Option Nat :=
  let below := i.value / i.denominator
  let gap := i.value % i.denominator
  let above := below + 1
  match i.contains below, i.contains above with
  | false, false => none
  | true, false => some below
  | false, true => some above
  | true, true =>
    if 2 * gap < i.denominator ∨ (2 * gap = i.denominator ∧ tie = .even ∧ below % 2 = 0) then
      some below
    else some above

def leadingExponent (i : RoundingInterval) : Int :=
  if i.denominator ≤ i.value then ((toString (i.value / i.denominator)).length : Int) - 1
  else
    let p := (toString (i.denominator / i.value)).length
    if i.denominator ≤ i.value * tenPow (p - 1) then -((p : Int) - 1) else -(p : Int)

/-- The point of the interval with `n` digits nearest to the value, if there is one. Rounding up to
a power of ten gives a digit too many, which is a zero. -/
def withDigits? (tie : Tie) (i : RoundingInterval) (n : Nat) : Option Decimal :=
  let g := i.leadingExponent + 1 - n
  ((i.scaled g).nearestWhole? tie).map fun d => if d = tenPow n then ⟨d / 10, g + 1⟩ else ⟨d, g⟩

end RoundingInterval

namespace Decimal

/-- Seventeen digits always suffice. -/
def shortest (tie : Tie) (b : Binary) : Decimal :=
  if b.significand = 0 then ⟨0, 0⟩
  else
    let interval := RoundingInterval.ofBinary b
    ((List.range 17).findSome? fun n => interval.withDigits? tie (n + 1)).getD
      ⟨b.significand, b.exponent⟩

end Decimal
end AirTraffic
