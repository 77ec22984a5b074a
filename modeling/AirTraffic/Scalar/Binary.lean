import AirTraffic.Scalar.Powers
/-!
# Floating-point numbers as exact fractions

A finite `Float` is a whole significand times a power of two. Operations that have to be exact work
on that form.
-/
namespace AirTraffic

structure Binary where
  negative : Bool
  significand : Nat
  exponent : Int
  deriving Repr, DecidableEq

namespace Binary

def ofFloat? (x : Float) : Option Binary :=
  let bits := x.toBits.toNat
  let negative := bits / twoPow 63 = 1
  let biased : Nat := bits / twoPow 52 % twoPow 11
  let fraction := bits % twoPow 52
  if biased = twoPow 11 - 1 then none
  else if biased = 0 then some ⟨negative, fraction, -1074⟩
  else some ⟨negative, fraction + twoPow 52, (biased : Int) - 1075⟩

/-- Exact when the significand fits in 53 bits and the result is not below the least normal number.
-/
def toFloat (b : Binary) : Float :=
  let magnitude := (Float.ofNat b.significand).scaleB b.exponent
  if b.negative then -magnitude else magnitude

def ratio (b : Binary) : Nat × Nat :=
  (b.significand * twoPow b.exponent.toNat, twoPow (-b.exponent).toNat)

def remainder (a b : Binary) : Binary :=
  let exponent := min a.exponent b.exponent
  let dividend := a.significand * twoPow (a.exponent - exponent).toNat
  let divisor := b.significand * twoPow (b.exponent - exponent).toNat
  ⟨a.negative, dividend % divisor, exponent⟩

end Binary
end AirTraffic
