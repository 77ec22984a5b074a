/-!
# Scalars

The arithmetic of the library. Every rule is written once over any type with these operations: it
runs on `Float`, and it can be reasoned about on exact numbers. Order and equality are those of the
type, so a value that is not a number is neither below, above nor equal to anything.
-/
namespace AirTraffic

class Scalar (α : Type) extends Add α, Sub α, Mul α, Div α, Neg α, LT α, LE α, BEq α where
  [ltDecidable : DecidableLT α]
  [leDecidable : DecidableLE α]
  ofInt : Int → α
  /-- The number `m / 10 ^ e`, or the nearest one. -/
  ofDecimal (m : Int) (e : Nat) : α
  pi : α
  abs : α → α
  sqrt : α → α
  sin : α → α
  cos : α → α
  asin : α → α
  /-- The angle of the vector with the second argument ahead and the first to its side. -/
  atan2 : α → α → α
  hypot : α → α → α
  /-- What is left of the first number after whole multiples of the second, with the sign of the
  first. -/
  remainder : α → α → α
  /-- The nearest whole number, halves away from zero. -/
  round : α → α
  /-- The whole part, held to 64 bits; zero for what is not a number. -/
  truncate : α → Int
  isFinite : α → Bool
  /-- A total order that refines `<`: it tells zeros of either sign apart and places every value. -/
  totalCompare : α → α → Ordering

namespace Scalar

variable {α : Type} [Scalar α]

instance : DecidableLT α := ltDecidable

instance : DecidableLE α := leDecidable

def zero : α := ofInt 0

def one : α := ofInt 1

/-- The lesser of two numbers; of a number and something that is none, the number. -/
def least (a b : α) : α := if a < b then a else if b ≤ b then b else a

/-- The greater of two numbers; of a number and something that is none, the number. -/
def greatest (a b : α) : α := if b < a then a else if b ≤ b then b else a

def clamp (lo hi x : α) : α := if x < lo then lo else if hi < x then hi else x

/-- The remainder in `[0, m)`, up to rounding. -/
def modulo (x m : α) : α :=
  let r := remainder x m
  if r < zero then r + abs m else r

def powerFrom (acc base : α) (n : Nat) : α :=
  if n = 0 then acc
  else powerFrom (if n % 2 = 1 then acc * base else acc) (base * base) (n / 2)
termination_by n

def power (x : α) (n : Nat) : α := powerFrom one x n

def square (x : α) : α := x * x

def lerp (a b f : α) : α := a + f * (b - a)

def sum (xs : List α) : α := xs.foldl (· + ·) zero

/-- Sum of products of matching entries. -/
def dot (xs ys : List α) : α := sum (List.zipWith (· * ·) xs ys)

def mean (xs : List α) : α := sum xs / ofInt xs.length

end Scalar
end AirTraffic
