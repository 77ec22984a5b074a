import Mathlib.Order.Compare
import AirTraffic.Proofs.Scalar.Exact

/-!
# Exact numbers and what is none

Exact numbers with the two infinities and what is no number, as floating-point numbers have them but
without rounding and with one zero. Zero divided by zero is no number, no sum, product or quotient
of what is no number is one, and it is neither below, above nor equal to anything. On numbers the
operations are the exact ones where these are defined: there is no division by zero and no root
below it.
-/
namespace AirTraffic

open Scalar

inductive Extended (α : Type) where
  | number (x : α)
  | infinity (negative : Bool)
  | notANumber
  deriving DecidableEq

namespace Extended

variable {α : Type} [ExactScalar α]

def add : Extended α → Extended α → Extended α
  | number x, number y => number (x + y)
  | number _, infinity s => infinity s
  | infinity s, number _ => infinity s
  | infinity s, infinity t => if s = t then infinity s else notANumber
  | _, _ => notANumber

def neg : Extended α → Extended α
  | number x => number (-x)
  | infinity s => infinity !s
  | notANumber => notANumber

def mul : Extended α → Extended α → Extended α
  | number x, number y => number (x * y)
  | number x, infinity s => if x = 0 then notANumber else infinity (s ^^ decide (x < 0))
  | infinity s, number y => if y = 0 then notANumber else infinity (s ^^ decide (y < 0))
  | infinity s, infinity t => infinity (s ^^ t)
  | _, _ => notANumber

def div : Extended α → Extended α → Extended α
  | number x, number y =>
    if y ≠ 0 then number (x / y) else if x ≠ 0 then infinity (x < 0) else notANumber
  | number _, infinity _ => number 0
  | infinity s, number y => infinity (s ^^ decide (y < 0))
  | _, _ => notANumber

/-- How two of them compare, unless one is no number. -/
def order? : Extended α → Extended α → Option Ordering
  | number x, number y => some (compare x y)
  | number _, infinity s => some (if s then .gt else .lt)
  | infinity s, number _ => some (if s then .lt else .gt)
  | infinity s, infinity t => some (compare t s)
  | _, _ => none

/-- A function that has no limit at the infinities. -/
def bounded (f : α → α) : Extended α → Extended α
  | number x => number (f x)
  | _ => notANumber

/-- A function that goes to the infinities. -/
def unbounded (f : α → α) : Extended α → Extended α
  | number x => number (f x)
  | infinity s => infinity s
  | notANumber => notANumber

def magnitude : Extended α → Extended α
  | infinity _ => infinity false
  | a => unbounded Scalar.abs a

def root : Extended α → Extended α
  | number x => if x < 0 then notANumber else number (sqrt x)
  | infinity s => if s then notANumber else infinity s
  | notANumber => notANumber

def arcsine : Extended α → Extended α
  | number x => if x < -1 ∨ 1 < x then notANumber else number (asin x)
  | _ => notANumber

/-- Which way an infinity is. -/
def side (negative : Bool) : α := if negative then -1 else 1

def arctangent : Extended α → Extended α → Extended α
  | number y, number x => number (atan2 y x)
  | number y, infinity s => number (if y < 0 then -atan2 0 (side s) else atan2 0 (side s))
  | infinity t, number _ => number (atan2 (side t) 0)
  | infinity t, infinity s => number (atan2 (side t) (side s))
  | _, _ => notANumber

def hypotenuse : Extended α → Extended α → Extended α
  | number x, number y => number (hypot x y)
  | infinity _, _ => infinity false
  | _, infinity _ => infinity false
  | _, _ => notANumber

def rest : Extended α → Extended α → Extended α
  | number x, number y => if y = 0 then notANumber else number (remainder x y)
  | number x, infinity _ => number x
  | _, _ => notANumber

def place (a b : Extended α) : Ordering :=
  (order? a b).getD (compare (decide (a = notANumber)) (decide (b = notANumber)))

def whole : Extended α → Int
  | number x => truncate x
  | infinity s => if s then -2 ^ 63 else 2 ^ 63 - 1
  | notANumber => 0

def finite : Extended α → Bool
  | number x => isFinite x
  | _ => false

instance : Scalar (Extended α) where
  add := add
  sub a b := add a (neg b)
  mul := mul
  div := div
  neg := neg
  lt a b := order? a b = some .lt
  le a b := order? a b = some .lt ∨ order? a b = some .eq
  beq a b := order? a b == some .eq
  ltDecidable a b := inferInstanceAs (Decidable (order? a b = some .lt))
  leDecidable a b := inferInstanceAs (Decidable (order? a b = some .lt ∨ order? a b = some .eq))
  ofInt n := number (ofInt n)
  ofDecimal m e := number (ofDecimal m e)
  pi := number pi
  abs := magnitude
  sqrt := root
  sin := bounded sin
  cos := bounded cos
  asin := arcsine
  atan2 := arctangent
  hypot := hypotenuse
  remainder := rest
  round := unbounded round
  truncate := whole
  isFinite := finite
  totalCompare := place

section Numbers

variable (x y : α)

theorem ofInt_eq (n : Int) : (ofInt n : Extended α) = number (n : α) :=
  congrArg number (ExactScalar.ofInt_eq n)

@[simp] theorem zero_eq : (zero : Extended α) = number 0 := congrArg number ExactScalar.zero_eq

@[simp] theorem number_add : number x + number y = number (x + y) := rfl

@[simp] theorem number_sub : number x - number y = number (x - y) :=
  congrArg number (sub_eq_add_neg x y).symm

@[simp] theorem number_mul : number x * number y = number (x * y) := rfl

variable {y} in
theorem number_div (divisor : y ≠ 0) : number x / number y = number (x / y) := if_pos divisor

@[simp] theorem zero_div_zero : (number 0 / number 0 : Extended α) = notANumber := by
  change (if (0 : α) ≠ 0 then _ else if (0 : α) ≠ 0 then _ else _) = _
  simp

@[simp] theorem notANumber_mul (a : Extended α) : notANumber * a = notANumber := by
  cases a <;> rfl

@[simp] theorem sub_notANumber (a : Extended α) : a - notANumber = notANumber := by
  cases a <;> rfl

theorem number_beq_iff : (number x == number y) = true ↔ x = y := by
  change (some (compare x y) == some .eq) = true ↔ _
  rw [beq_iff_eq, Option.some_inj, compare_eq_iff_eq]

theorem number_lt_iff : number x < number y ↔ x < y := by
  change some (compare x y) = some .lt ↔ _
  rw [Option.some_inj, compare_lt_iff_lt]

theorem number_le_self : number x ≤ number x :=
  .inr (congrArg some (compare_eq_iff_eq.mpr rfl))

theorem greatest_number : greatest (number x) (number y) = number (max x y) := by
  by_cases above : y < x
  · rw [greatest, if_pos ((number_lt_iff y x).mpr above), max_eq_left above.le]
  · rw [greatest, if_neg (mt (number_lt_iff y x).mp above), if_pos (number_le_self y),
      max_eq_right (not_lt.mp above)]

theorem greatest_notANumber : greatest notANumber (number y) = number y := by
  have incomparable : ¬number y < notANumber := by
    intro less
    cases less
  rw [greatest, if_neg incomparable, if_pos (number_le_self y)]

end Numbers

section Lists

variable (xs ys : List α)

theorem sum_number : sum (xs.map number) = number (sum xs) := by
  rw [sum, sum, List.foldl_map, zero_eq, ExactScalar.zero_eq]
  exact List.foldl_hom number fun _ _ => rfl

theorem dot_number : dot (xs.map number) (ys.map number) = number (dot xs ys) := by
  rw [dot, dot, List.zipWith_map, ← sum_number, List.map_zipWith]
  rfl

variable {xs} in
theorem mean_number (some : xs ≠ []) : mean (xs.map number) = number (mean xs) := by
  have length : ((xs.length : Int) : α) ≠ 0 := by simpa using some
  rw [mean, sum_number, List.length_map, ofInt_eq, number_div _ length, mean, ExactScalar.ofInt_eq]

end Lists

end Extended
end AirTraffic
