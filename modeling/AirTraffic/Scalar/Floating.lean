import AirTraffic.Scalar
import AirTraffic.Scalar.Binary
/-!
# Floating-point scalars

The arithmetic the program runs on.
-/
namespace AirTraffic

namespace Floating

def infinity : Float := 1.0 / 0.0

def notANumber : Float := 0.0 / 0.0

def remainder (x y : Float) : Float :=
  match Binary.ofFloat? x, Binary.ofFloat? y with
  | some a, some b => if b.significand = 0 then notANumber else (a.remainder b).toFloat
  | some _, none => if y.isNaN then notANumber else x
  | none, _ => notANumber

/-- Both sides are scaled by one power of two first, so that no square overflows. -/
def hypot (x y : Float) : Float :=
  if x.isInf || y.isInf then infinity
  else
    let scale := (if x.abs < y.abs then y.abs else x.abs).frExp.2
    let a := x.scaleB (-scale)
    let b := y.scaleB (-scale)
    (a * a + b * b).sqrt.scaleB scale

/-- Place in the order from negative to positive infinity, with a zero of either sign apart. -/
def rank (x : Float) : Int :=
  let bits := x.toBits.toNat
  if bits < twoPow 63 then bits else twoPow 63 - 1 - bits

end Floating

instance : Scalar Float where
  ofInt := Float.ofInt
  ofDecimal m e :=
    let magnitude := Float.ofScientific m.natAbs true e
    if m < 0 then -magnitude else magnitude
  pi := 3.141592653589793
  abs := Float.abs
  sqrt := Float.sqrt
  sin := Float.sin
  cos := Float.cos
  asin := Float.asin
  atan2 := Float.atan2
  hypot := Floating.hypot
  remainder := Floating.remainder
  round := Float.round
  truncate x := x.toInt64.toInt
  isFinite := Float.isFinite
  totalCompare x y := compare (Floating.rank x) (Floating.rank y)

end AirTraffic
