import AirTraffic.Proofs.Scalar.Exact

/-!
# Rounding to whole numbers

A number is rounded to an integer at most one half away from it, and then held to 64 bits.
-/
namespace AirTraffic

open Scalar ExactScalar

class ExactRounding (α : Type) [ExactScalar α] : Prop where
  nearest (x : α) : ∃ n : ℤ, |x - n| ≤ 1 / 2 ∧ truncate (round x) = heldTo64Bits n

theorem heldTo64Bits_of_nonneg {n : ℤ} (h : 0 ≤ n) : heldTo64Bits n = min (2 ^ 63 - 1) n := by
  unfold heldTo64Bits
  omega

namespace ExactRounding

variable {α : Type} [ExactScalar α] [ExactRounding α] {x : α}

theorem nearest_of_nonneg (hx : 0 ≤ x) : ∃ n : ℤ, 0 ≤ n ∧ |x - n| ≤ 1 / 2 ∧
    truncate (round x) = min (2 ^ 63 - 1) n := by
  obtain ⟨n, close, held⟩ := nearest x
  have above : (-1 : α) < n := by linarith [(abs_le.mp close).2]
  have positive : 0 ≤ n := by
    have : -1 < n := by exact_mod_cast above
    omega
  exact ⟨n, positive, close, held.trans (heldTo64Bits_of_nonneg positive)⟩

theorem truncate_round_nonneg (hx : 0 ≤ x) : 0 ≤ truncate (round x) := by
  obtain ⟨n, positive, -, held⟩ := nearest_of_nonneg hx
  omega

theorem abs_sub_truncate_round_le (hx : 0 ≤ x) (fits : x < 2 ^ 63 - 1 / 2) :
    |x - ((truncate (round x) : ℤ) : α)| ≤ 1 / 2 := by
  obtain ⟨n, -, close, held⟩ := nearest_of_nonneg hx
  have below : (n : α) < 2 ^ 63 := by linarith [(abs_le.mp close).1]
  have whole : n < 2 ^ 63 := by exact_mod_cast below
  rwa [held, min_eq_right (by omega)]

theorem truncate_round_of_le (large : 2 ^ 63 - 1 / 2 ≤ x) :
    truncate (round x) = 2 ^ 63 - 1 := by
  have hx : 0 ≤ x := le_trans (by norm_num) large
  obtain ⟨n, -, close, held⟩ := nearest_of_nonneg hx
  have above : (2 : α) ^ 63 - 1 ≤ n := by linarith [(abs_le.mp close).2]
  have whole : 2 ^ 63 - 1 ≤ n := by exact_mod_cast above
  rw [held, min_eq_left whole]

end ExactRounding

section WholePart

variable {α : Type} [Field α] [LinearOrder α] [IsStrictOrderedRing α] [FloorRing α]

theorem wholePart_intCast (n : ℤ) : wholePart (n : α) = n := by
  unfold wholePart
  rw [Int.ceil_intCast, Int.floor_intCast, ite_self]

theorem abs_sub_roundHalfAway_le (x : α) : |x - roundHalfAway x| ≤ 1 / 2 := by
  unfold roundHalfAway
  rw [abs_le]
  split
  · constructor
    · linarith [Int.ceil_lt_add_one (x - 1 / 2)]
    · linarith [Int.le_ceil (x - 1 / 2)]
  · constructor
    · linarith [Int.floor_le (x + 1 / 2)]
    · linarith [Int.lt_floor_add_one (x + 1 / 2)]

end WholePart

instance : ExactRounding ℝ where
  nearest x := ⟨roundHalfAway x, abs_sub_roundHalfAway_le x,
    congrArg heldTo64Bits (wholePart_intCast (roundHalfAway x))⟩

instance : ExactRounding ℚ where
  nearest x := ⟨roundHalfAway x, abs_sub_roundHalfAway_le x,
    congrArg heldTo64Bits (wholePart_intCast (roundHalfAway x))⟩

end AirTraffic
