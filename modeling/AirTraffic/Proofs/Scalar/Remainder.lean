import AirTraffic.Proofs.Scalar.Exact
import AirTraffic.Geo.Angle

/-!
# Exact remainders

A remainder is smaller than what it is a remainder of, and a number already in range is its own.
This puts courses on the compass and longitudes between the two antimeridians.
-/
namespace AirTraffic

open Scalar

class ExactRemainder (α : Type) [ExactScalar α] : Prop where
  abs_remainder_lt (x : α) {m : α} (hm : 0 < m) : |remainder x m| < m
  remainder_of_lt {x m : α} (hx : 0 ≤ x) (hm : x < m) : remainder x m = x

namespace ExactRemainder

variable {α : Type} [ExactScalar α] [ExactRemainder α]

theorem modulo_mem (x : α) {m : α} (hm : 0 < m) : 0 ≤ modulo x m ∧ modulo x m < m := by
  obtain ⟨above, below⟩ := abs_lt.mp (abs_remainder_lt x hm)
  unfold modulo
  simp only [ExactScalar.zero_eq, ExactScalar.abs_eq, abs_of_pos hm]
  split
  · constructor
    · linarith
    · linarith
  · exact ⟨not_lt.mp ‹_›, below⟩

theorem modulo_of_lt {x m : α} (hx : 0 ≤ x) (hm : x < m) : modulo x m = x := by
  unfold modulo
  simp only [ExactScalar.zero_eq, remainder_of_lt hx hm, if_neg (not_lt.mpr hx)]

theorem compass_eq_modulo (x : α) : Angle.compass x = modulo x 360 := by
  unfold Angle.compass
  simp only [ExactScalar.ofInt_eq, Int.cast_ofNat]
  exact if_neg (not_le.mpr (modulo_mem x (by norm_num)).2)

theorem compass_mem (x : α) : 0 ≤ Angle.compass x ∧ Angle.compass x < 360 := by
  rw [compass_eq_modulo]
  exact modulo_mem x (by norm_num)

theorem compass_of_mem {x : α} (hx : 0 ≤ x) (hturn : x < 360) : Angle.compass x = x := by
  rw [compass_eq_modulo, modulo_of_lt hx hturn]

theorem meridian_mem (x : α) : -180 ≤ Angle.meridian x ∧ Angle.meridian x < 180 := by
  obtain ⟨above, below⟩ := modulo_mem (x + 540) (show (0 : α) < 360 by norm_num)
  unfold Angle.meridian
  simp only [ExactScalar.ofInt_eq, Int.cast_ofNat]
  constructor
  · linarith
  · linarith

end ExactRemainder

section WholePart

open ExactScalar (wholePart)

variable {α : Type} [Field α] [LinearOrder α] [FloorRing α]

theorem wholePart_of_lt {x : α} (hx : 0 ≤ x) (hone : x < 1) : wholePart x = 0 := by
  unfold wholePart
  rw [if_neg (not_lt.mpr hx), Int.floor_eq_zero_iff]
  exact ⟨hx, hone⟩

variable [IsStrictOrderedRing α]

theorem abs_sub_wholePart_lt (x : α) : |x - wholePart x| < 1 := by
  unfold wholePart
  rw [abs_lt]
  split
  · constructor
    · linarith [Int.ceil_lt_add_one x]
    · linarith [Int.le_ceil x]
  · constructor
    · linarith [Int.floor_le x]
    · linarith [Int.lt_floor_add_one x]

theorem abs_sub_multiple_lt (x : α) {m : α} (hm : 0 < m) : |x - m * wholePart (x / m)| < m := by
  have share : x - m * wholePart (x / m) = m * (x / m - wholePart (x / m)) := by
    rw [mul_sub, mul_div_cancel₀ x hm.ne']
  rw [share, abs_mul, abs_of_pos hm]
  exact mul_lt_of_lt_one_right hm (abs_sub_wholePart_lt (x / m))

theorem sub_multiple_of_lt {x m : α} (hx : 0 ≤ x) (hm : x < m) :
    x - m * wholePart (x / m) = x := by
  have hpos := hx.trans_lt hm
  rw [wholePart_of_lt (div_nonneg hx hpos.le) ((div_lt_one hpos).mpr hm), Int.cast_zero, mul_zero,
    sub_zero]

end WholePart

instance : ExactRemainder ℝ where
  abs_remainder_lt x _ hm := abs_sub_multiple_lt x hm
  remainder_of_lt hx hm := sub_multiple_of_lt hx hm

instance : ExactRemainder ℚ where
  abs_remainder_lt x _ hm := abs_sub_multiple_lt x hm
  remainder_of_lt hx hm := sub_multiple_of_lt hx hm

end AirTraffic
