import Mathlib.Algebra.Group.ModEq
import Mathlib.Tactic.Linarith
import AirTraffic.Proofs.Scalar.Remainder

/-!
# The shorter arc

Two numbers of degrees are one direction if they differ by whole circles, and each direction has one
number on the compass and one as a turn. A course part of the way along the shorter arc between two
others lies that part of the turn past the first, and the rest of it short of the second.
-/
namespace AirTraffic

open Scalar AddCommGroup

class ExactMultiples (α : Type) [ExactScalar α] : Prop extends ExactRemainder α where
  remainder_modEq (x m : α) : remainder x m ≡ x [PMOD m]

section Multiples

variable {α : Type} [Field α]

theorem sub_multiple_modEq (x m : α) (k : ℤ) : x - m * k ≡ x [PMOD m] := by
  refine modEq_iff_zsmul.mpr ⟨k, ?_⟩
  rw [zsmul_eq_mul]
  ring

theorem add_circle_modEq (x m : α) : x + m ≡ x [PMOD m] := add_modEq_left.mpr self_modEq_zero

theorem sub_circle_modEq (x m : α) : x - m ≡ x [PMOD m] :=
  sub_modEq_iff_modEq_add.mpr (add_circle_modEq x m).symm

theorem eq_of_modEq [LinearOrder α] [IsStrictOrderedRing α] {a b m : α} (same : a ≡ b [PMOD m])
    (close : |b - a| < m) : a = b := by
  obtain ⟨k, hk⟩ := modEq_iff_zsmul.mp same
  rw [zsmul_eq_mul] at hk
  have positive : 0 < m := (abs_nonneg _).trans_lt close
  have less : |(k : α)| * m < 1 * m := by
    rwa [one_mul, ← abs_of_pos positive, ← abs_mul, hk, abs_of_pos positive]
  have few : |k| < 1 := by
    have : |(k : α)| < 1 := lt_of_mul_lt_mul_right less positive.le
    exact_mod_cast this
  rw [Int.abs_lt_one_iff.mp few, Int.cast_zero, zero_mul] at hk
  exact (sub_eq_zero.mp hk.symm).symm

end Multiples

instance : ExactMultiples ℝ where
  remainder_modEq x m := sub_multiple_modEq x m _

instance : ExactMultiples ℚ where
  remainder_modEq x m := sub_multiple_modEq x m _

namespace Angle

variable {α : Type} [ExactScalar α] [ExactMultiples α] {a b d f : α}

theorem modulo_modEq (x : α) : modulo x 360 ≡ x [PMOD 360] := by
  have same := ExactMultiples.remainder_modEq x (360 : α)
  by_cases below : remainder x 360 < 0
  · have up : modulo x 360 = remainder x 360 + 360 := by
      unfold modulo
      simp only [ExactScalar.zero_eq, ExactScalar.abs_eq]
      rw [if_pos below, abs_of_pos (by norm_num)]
    rw [up]
    exact (add_circle_modEq _ _).trans same
  · have kept : modulo x 360 = remainder x 360 := by
      unfold modulo
      simp only [ExactScalar.zero_eq]
      rw [if_neg below]
    rw [kept]
    exact same

theorem compass_modEq (x : α) : compass x ≡ x [PMOD 360] := by
  rw [ExactRemainder.compass_eq_modulo]
  exact modulo_modEq x

theorem meridian_modEq (x : α) : meridian x ≡ x [PMOD 360] := by
  have same := (modulo_modEq (x + 540)).sub_right 180
  have round : x + 540 - 180 = x + 360 := by ring
  rw [round] at same
  unfold meridian
  simp only [ExactScalar.ofInt_eq, Int.cast_ofNat]
  exact same.trans (add_circle_modEq x 360)

theorem meridian_eq_of_modEq {x : α} (same : a ≡ x [PMOD 360]) (above : -180 ≤ x)
    (below : x < 180) : meridian a = x := by
  obtain ⟨above', below'⟩ := ExactRemainder.meridian_mem a
  refine eq_of_modEq ((meridian_modEq a).trans same) ?_
  rw [abs_lt]
  constructor
  · linarith
  · linarith

theorem meridian_of_mem {x : α} (above : -180 ≤ x) (below : x < 180) : meridian x = x :=
  meridian_eq_of_modEq (modEq_refl x) above below

theorem turn_modEq (a b : α) : turn a b ≡ a - b [PMOD 360] := by
  have same := ExactMultiples.remainder_modEq (a - b) (360 : α)
  unfold turn
  simp only [ExactScalar.ofInt_eq, Int.cast_ofNat, Int.cast_neg]
  split
  · exact (sub_circle_modEq _ _).trans same
  · split
    · exact (add_circle_modEq _ _).trans same
    · exact same

theorem turn_mem (a b : α) : -180 < turn a b ∧ turn a b ≤ 180 := by
  obtain ⟨above, below⟩ := abs_lt.mp
    (ExactRemainder.abs_remainder_lt (a - b) (show (0 : α) < 360 by norm_num))
  unfold turn
  simp only [ExactScalar.ofInt_eq, Int.cast_ofNat, Int.cast_neg]
  split
  · constructor
    · linarith
    · linarith
  · split
    · constructor
      · linarith
      · linarith
    · constructor
      · linarith
      · linarith

theorem compass_eq_of_modEq (same : a ≡ b [PMOD 360]) : compass a = compass b := by
  obtain ⟨a0, a360⟩ := ExactRemainder.compass_mem a
  obtain ⟨b0, b360⟩ := ExactRemainder.compass_mem b
  refine eq_of_modEq (((compass_modEq a).trans same).trans (compass_modEq b).symm) ?_
  rw [abs_lt]
  constructor
  · linarith
  · linarith

theorem turn_eq_of_modEq (same : d ≡ a - b [PMOD 360]) (above : -180 < d) (below : d ≤ 180) :
    turn a b = d := by
  obtain ⟨above', below'⟩ := turn_mem a b
  refine eq_of_modEq ((turn_modEq a b).trans same.symm) ?_
  rw [abs_lt]
  constructor
  · linarith
  · linarith

theorem turn_eq_of_modEq_add (same : b ≡ a + d [PMOD 360]) (above : -180 < d) (below : d ≤ 180) :
    turn b a = d := by
  have difference := same.symm.sub_right a
  rw [add_sub_cancel_left] at difference
  exact turn_eq_of_modEq difference above below

omit [ExactMultiples α] in
theorem part_of_turn_mem (hf : 0 ≤ f ∧ f ≤ 1) (hd : -180 < d ∧ d ≤ 180) :
    -180 < f * d ∧ f * d ≤ 180 := by
  by_cases clockwise : 0 ≤ d
  · have := mul_nonneg hf.1 clockwise
    have := mul_le_of_le_one_left clockwise hf.2
    constructor
    · linarith
    · linarith
  · have back := (not_le.mp clockwise).le
    have := mul_nonpos_of_nonneg_of_nonpos hf.1 back
    have := mul_le_mul_of_nonpos_right hf.2 back
    constructor
    · linarith
    · linarith

theorem turn_partWay (hf : 0 ≤ f ∧ f ≤ 1) (a b : α) :
    turn (compass (a + f * turn b a)) a = f * turn b a := by
  obtain ⟨above, below⟩ := part_of_turn_mem hf (turn_mem b a)
  exact turn_eq_of_modEq_add (compass_modEq _) above below

theorem turn_rest (hf : 0 ≤ f ∧ f ≤ 1) (a b : α) :
    turn b (compass (a + f * turn b a)) = (1 - f) * turn b a := by
  have left : 0 ≤ 1 - f ∧ 1 - f ≤ 1 := ⟨sub_nonneg.mpr hf.2, sub_le_self 1 hf.1⟩
  obtain ⟨above, below⟩ := part_of_turn_mem left (turn_mem b a)
  refine turn_eq_of_modEq ?_ above below
  have short := (turn_modEq b a).sub_right (f * turn b a)
  have reached := (compass_modEq (a + f * turn b a)).symm.sub_left b
  have rest : (1 - f) * turn b a = turn b a - f * turn b a := by ring
  have same : b - (a + f * turn b a) = b - a - f * turn b a := by ring
  rw [rest]
  rw [same] at reached
  exact short.trans reached

end Angle

end AirTraffic
