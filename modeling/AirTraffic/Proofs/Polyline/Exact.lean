import Mathlib.Tactic.FieldSimp
import Mathlib.Tactic.Linarith
import AirTraffic.Proofs.Scalar.Exact
import AirTraffic.Proofs.Polyline

/-!
# Broken lines without rounding

Between two samples a broken line is straight: it stays between their values and falls as fast
everywhere. So it never leaves the range of its samples, and samples of a straight line make that
line.
-/
namespace AirTraffic.Polyline

open Scalar

variable {α : Type} [ExactScalar α] {line : Polyline α} {p q : Int × α} {t : Int}
  {bound lo hi base rate v : α}

theorem between_start (p q : Int × α) : between p q p.1 = p.2 := by
  unfold between lerp
  rw [Int.sub_self, ExactScalar.ofInt_eq, Int.cast_zero, zero_div, zero_mul, add_zero]

theorem between_eq_sub (h : p.1 < q.1) (t u : Int) :
    between p q u = between p q t - descent p q * ofInt (u - t) := by
  have width : ((q.1 - p.1 : Int) : α) ≠ 0 := Int.cast_ne_zero.mpr (by omega)
  unfold between lerp descent
  simp only [ExactScalar.ofInt_eq]
  field_simp
  push_cast
  ring

theorem between_stop (h : p.1 < q.1) : between p q q.1 = q.2 := by
  have width : ((q.1 - p.1 : Int) : α) ≠ 0 := Int.cast_ne_zero.mpr (by omega)
  unfold between lerp
  rw [ExactScalar.ofInt_eq, div_self width]
  ring

theorem between_sub (h : p.1 < q.1) (t : Int) (bound : α) : between p q t - bound =
    (((q.1 - t : Int) : α) * (p.2 - bound) + ((t - p.1 : Int) : α) * (q.2 - bound)) /
      ((q.1 - p.1 : Int) : α) := by
  have width : ((q.1 - p.1 : Int) : α) ≠ 0 := Int.cast_ne_zero.mpr (by omega)
  unfold between lerp
  simp only [ExactScalar.ofInt_eq]
  field_simp
  push_cast
  ring

section Inside

variable (h : p.1 < q.1) (after : p.1 ≤ t) (before : t ≤ q.1)

include h after before

theorem le_between (hp : bound ≤ p.2) (hq : bound ≤ q.2) : bound ≤ between p q t := by
  have width : (0 : α) ≤ ((q.1 - p.1 : Int) : α) := Int.cast_nonneg (by omega)
  have left : (0 : α) ≤ ((q.1 - t : Int) : α) := Int.cast_nonneg (by omega)
  have right : (0 : α) ≤ ((t - p.1 : Int) : α) := Int.cast_nonneg (by omega)
  rw [← sub_nonneg, between_sub h]
  exact div_nonneg (add_nonneg (mul_nonneg left (sub_nonneg.mpr hp))
    (mul_nonneg right (sub_nonneg.mpr hq))) width

theorem between_le (hp : p.2 ≤ bound) (hq : q.2 ≤ bound) : between p q t ≤ bound := by
  have width : (0 : α) ≤ ((q.1 - p.1 : Int) : α) := Int.cast_nonneg (by omega)
  have left : (0 : α) ≤ ((q.1 - t : Int) : α) := Int.cast_nonneg (by omega)
  have right : (0 : α) ≤ ((t - p.1 : Int) : α) := Int.cast_nonneg (by omega)
  rw [← sub_nonpos, between_sub h]
  exact div_nonpos_of_nonpos_of_nonneg (add_nonpos
    (mul_nonpos_of_nonneg_of_nonpos left (sub_nonpos.mpr hp))
    (mul_nonpos_of_nonneg_of_nonpos right (sub_nonpos.mpr hq))) width

end Inside

theorem lt_between (h : p.1 < q.1) (after : p.1 ≤ t) (before : t < q.1) (hp : bound < p.2)
    (hq : bound ≤ q.2) : bound < between p q t := by
  have width : (0 : α) < ((q.1 - p.1 : Int) : α) := Int.cast_pos.mpr (by omega)
  have left : (0 : α) < ((q.1 - t : Int) : α) := Int.cast_pos.mpr (by omega)
  have right : (0 : α) ≤ ((t - p.1 : Int) : α) := Int.cast_nonneg (by omega)
  rw [← sub_pos, between_sub h]
  exact div_pos (add_pos_of_pos_of_nonneg (mul_pos left (sub_pos.mpr hp))
    (mul_nonneg right (sub_nonneg.mpr hq))) width

theorem between_of_straight (h : p.1 < q.1) (hp : p.2 = base + rate * p.1)
    (hq : q.2 = base + rate * q.1) (t : Int) : between p q t = base + rate * t := by
  have width : ((q.1 - p.1 : Int) : α) ≠ 0 := Int.cast_ne_zero.mpr (by omega)
  rw [← sub_eq_zero, between_sub h, hp, hq, div_eq_zero_iff]
  left
  push_cast
  ring

theorem value?_mem (within : ∀ p ∈ line, lo ≤ p.2 ∧ p.2 ≤ hi) (h : line.value? t = some v) :
    lo ≤ v ∧ v ≤ hi := by
  rcases value?_cases h with ⟨p, hp, -, rfl⟩ | ⟨p, hp, q, hq, after, before, rfl⟩
  · exact within p hp
  · have forward := Int.lt_trans after before
    constructor
    · exact le_between forward after.le before.le (within p hp).1 (within q hq).1
    · exact between_le forward after.le before.le (within p hp).2 (within q hq).2

theorem value?_of_straight (straight : ∀ p ∈ line, p.2 = base + rate * p.1)
    (h : line.value? t = some v) : v = base + rate * t := by
  rcases value?_cases h with ⟨p, hp, rfl, rfl⟩ | ⟨p, hp, q, hq, after, before, rfl⟩
  · exact straight p hp
  · exact between_of_straight (Int.lt_trans after before) (straight p hp) (straight q hq) t

end AirTraffic.Polyline
