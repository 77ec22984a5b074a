import Mathlib.Analysis.SpecialFunctions.Complex.Arg
import Mathlib.Analysis.SpecialFunctions.Trigonometric.Inverse
import Mathlib.Data.Rat.Floor
import Mathlib.Data.Rat.Sqrt
import AirTraffic.Scalar
import AirTraffic.Units

/-!
# Exact scalars

Scalars that compute without rounding: an ordered field all of whose values are numbers.
The real numbers are the model, and the rational ones run; division by zero is zero in both,
as everywhere in Mathlib. Imports of Mathlib come before those of the library, here and in what
builds on this module, so that an exact scalar is compared by the operations of the library.
-/
namespace AirTraffic

open Scalar

class ExactScalar (α : Type) extends
    Scalar α, Field α, LinearOrder α, IsStrictOrderedRing α, LawfulBEq α where
  ofInt_eq (n : Int) : (ofInt n : α) = n
  ofDecimal_eq (m : Int) (e : Nat) : (ofDecimal m e : α) = m / 10 ^ e
  abs_eq (x : α) : Scalar.abs x = |x|
  isFinite_eq (x : α) : isFinite x = true

namespace ExactScalar

attribute [simp] ofInt_eq ofDecimal_eq abs_eq isFinite_eq

variable {α : Type} [ExactScalar α]

@[simp] theorem zero_eq : (zero : α) = 0 := by
  rw [zero, ofInt_eq, Int.cast_zero]

@[simp] theorem one_eq : (one : α) = 1 := by
  rw [one, ofInt_eq, Int.cast_one]

@[simp] theorem greatest_eq (a b : α) : greatest a b = max a b := by
  unfold greatest
  split
  · exact (max_eq_left (le_of_lt ‹b < a›)).symm
  · rw [if_pos le_rfl, max_eq_right (le_of_not_gt ‹¬b < a›)]

theorem ofInt_div_msPerSecond (ms : Int) : (ofInt ms / Units.msPerSecond : α) = ms / 1000 := by
  rw [Units.msPerSecond, ofInt_eq, ofInt_eq, Int.cast_ofNat]

end ExactScalar

namespace ExactScalar

variable {α : Type} [Field α] [LinearOrder α] [FloorRing α]

def wholePart (x : α) : ℤ := if x < 0 then ⌈x⌉ else ⌊x⌋

def roundHalfAway (x : α) : ℤ := if x < 0 then ⌈x - 1 / 2⌉ else ⌊x + 1 / 2⌋

def heldTo64Bits (n : ℤ) : ℤ := max (-2 ^ 63) (min (2 ^ 63 - 1) n)

end ExactScalar

open ExactScalar

noncomputable instance : Scalar ℝ where
  ofInt n := n
  ofDecimal m e := m / 10 ^ e
  pi := Real.pi
  abs x := |x|
  sqrt := Real.sqrt
  sin := Real.sin
  cos := Real.cos
  asin := Real.arcsin
  atan2 y x := Complex.arg ⟨x, y⟩
  hypot x y := Real.sqrt (x ^ 2 + y ^ 2)
  remainder x y := x - y * wholePart (x / y)
  round x := roundHalfAway x
  truncate x := heldTo64Bits (wholePart x)
  isFinite _ := true
  totalCompare x y := compare x y

noncomputable instance : ExactScalar ℝ where
  __ := (inferInstance : Field ℝ)
  __ := (inferInstance : LinearOrder ℝ)
  __ := (inferInstance : IsStrictOrderedRing ℝ)
  __ := (inferInstance : Scalar ℝ)
  eq_of_beq := by simp
  rfl := by simp
  ofInt_eq _ := rfl
  ofDecimal_eq _ _ := rfl
  abs_eq _ := rfl
  isFinite_eq _ := rfl

/-- Rational numbers, to evaluate what needs no trigonometry: roots are those of squares, and
angles are taken for so small that their sines are themselves. -/
instance : Scalar ℚ where
  ofInt n := n
  ofDecimal m e := m / 10 ^ e
  pi := 3141592653589793 / 10 ^ 15
  abs x := |x|
  sqrt := Rat.sqrt
  sin x := x
  cos _ := 1
  asin x := x
  atan2 y x := y / x
  hypot x y := Rat.sqrt (x ^ 2 + y ^ 2)
  remainder x y := x - y * wholePart (x / y)
  round x := roundHalfAway x
  truncate x := heldTo64Bits (wholePart x)
  isFinite _ := true
  totalCompare x y := compare x y

instance : ExactScalar ℚ where
  __ := (inferInstance : Field ℚ)
  __ := (inferInstance : LinearOrder ℚ)
  __ := (inferInstance : IsStrictOrderedRing ℚ)
  __ := (inferInstance : Scalar ℚ)
  eq_of_beq := by simp
  rfl := by simp
  ofInt_eq _ := rfl
  ofDecimal_eq _ _ := rfl
  abs_eq _ := rfl
  isFinite_eq _ := rfl

end AirTraffic
