import Mathlib.Algebra.BigOperators.Fin
import AirTraffic.Proofs.Scalar.Exact

/-!
# Exact sums and powers

What is computed term after term, or by repeated squaring, is the sum or the power where nothing is
rounded.
-/
namespace AirTraffic.ExactScalar

open Scalar

variable {α : Type} [ExactScalar α]

theorem powerFrom_eq (acc base : α) (n : Nat) : powerFrom acc base n = acc * base ^ n := by
  induction n using Nat.strong_induction_on generalizing acc base with
  | _ n ih =>
    rw [powerFrom]
    by_cases done : n = 0
    · rw [if_pos done, done, pow_zero, mul_one]
    · have halves := Nat.div_add_mod n 2
      rw [if_neg done, ih (n / 2) (by omega), ← sq, ← pow_mul]
      by_cases odd : n % 2 = 1
      · rw [if_pos odd, mul_assoc, ← pow_succ', ← odd, halves]
      · rw [if_neg odd]
        congr 2
        omega

theorem power_eq (x : α) (n : Nat) : power x n = x ^ n := by
  rw [power, powerFrom_eq, one_eq, one_mul]

theorem sum_eq (xs : List α) : sum xs = xs.sum := by
  rw [sum, zero_eq, List.sum_eq_foldl]

theorem dot_eq (xs ys : List α) : dot xs ys = (List.zipWith (· * ·) xs ys).sum := by
  rw [dot, sum_eq]

theorem dot_map {β : Type} (f g : β → α) (xs : List β) :
    dot (xs.map f) (xs.map g) = (xs.map fun x => f x * g x).sum := by
  rw [dot_eq, List.zipWith_map, List.zipWith_self]

theorem dot_ofFn {n : Nat} (f g : Fin n → α) :
    dot (List.ofFn f) (List.ofFn g) = ∑ i, f i * g i := by
  rw [List.ofFn_eq_map, List.ofFn_eq_map, dot_map, ← List.ofFn_eq_map, List.sum_ofFn]

theorem sum_map_sum {β ι : Type} (s : Finset ι) (f : β → ι → α) (xs : List β) :
    (xs.map fun x => ∑ i ∈ s, f x i).sum = ∑ i ∈ s, (xs.map fun x => f x i).sum := by
  induction xs with
  | nil => simp
  | cons x xs ih => simp [ih, Finset.sum_add_distrib]

end AirTraffic.ExactScalar
