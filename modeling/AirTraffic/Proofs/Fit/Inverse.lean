import Mathlib.LinearAlgebra.Matrix.NonsingularInverse
import Mathlib.LinearAlgebra.Matrix.Determinant.Basic
import AirTraffic.Proofs.Scalar.Sums
import AirTraffic.Fit.Inverse

/-!
# Tables are inverted

A table is a matrix. The standard inverse of up to four rows is the transposed table of cofactors
divided by the determinant, and so it finds every inverse that there is.
-/
namespace AirTraffic

open Scalar

namespace Table

variable {α : Type} {m n : Nat}

def matrix (t : Table m n α) : Matrix (Fin m) (Fin n) α := .of fun i j => (t.get i).get j

theorem get_map {β γ : Type} (v : Vector β n) (f : β → γ) (i : Fin n) :
    (v.map f).get i = f (v.get i) := by
  simp [Vector.get]

theorem toList_get (t : Table m n α) (i : Fin m) :
    (t.get i).toList = List.ofFn fun j => t.matrix i j := by
  apply List.ext_getElem
  · simp
  · intro j hj _
    rw [List.getElem_ofFn]
    rfl

theorem matrix_ofFn (f : Fin m → Fin n → α) : (ofFn f).matrix = .of f := by
  ext i j
  simp [matrix, ofFn, Vector.get]
  rfl

theorem matrix_map {β : Type} (t : Table m n α) (f : α → β) :
    matrix (Vector.map (Vector.map f) t) = t.matrix.map f := by
  ext i j
  simp only [matrix, Matrix.of_apply, get_map, Matrix.map_apply]

theorem matrix_injective : Function.Injective (matrix : Table m n α → _) := by
  intro t u h
  apply Vector.ext
  intro i hi
  apply Vector.ext
  intro j hj
  exact congrFun (congrFun h ⟨i, hi⟩) ⟨j, hj⟩

end Table

/-- Every table of `n` rows that has an inverse is inverted. -/
def TableInverse.Inverts (α : Type) [ExactScalar α] [TableInverse α] (n : Nat) : Prop :=
  ∀ t u : Table n n α, t.matrix * u.matrix = 1 → inverse? t = some u

namespace TableInverse

theorem minor_matrix {α : Type} {n : Nat} (t : Table (n + 1) (n + 1) α) (i j : Fin (n + 1)) :
    (minor t i j).matrix = t.matrix.submatrix i.succAbove j.succAbove := by
  rw [minor, Table.matrix_ofFn]
  rfl

variable {α : Type} [ExactScalar α] {n : Nat}

theorem smallDeterminant_eq_det (small : n ≤ 3) (t : Table n n α) :
    smallDeterminant t = t.matrix.det := by
  rcases n with _ | _ | _ | _ | n
  · exact ExactScalar.one_eq.trans Matrix.det_fin_zero.symm
  · exact (Matrix.det_fin_one t.matrix).symm
  · refine Eq.trans ?_ (Matrix.det_fin_two t.matrix).symm
    exact congrArg (_ - ·) (mul_comm _ _)
  · refine Eq.trans ?_ (Matrix.det_fin_three t.matrix).symm
    change t.matrix 0 0 * t.matrix 1 1 * t.matrix 2 2 - t.matrix 0 0 * t.matrix 2 1 * t.matrix 1 2 -
      t.matrix 0 1 * t.matrix 1 0 * t.matrix 2 2 + t.matrix 0 1 * t.matrix 2 0 * t.matrix 1 2 +
      t.matrix 0 2 * t.matrix 1 0 * t.matrix 2 1 - t.matrix 0 2 * t.matrix 2 0 * t.matrix 1 1 = _
    ring
  · omega

theorem cofactor_eq (small : n ≤ 3) (t : Table (n + 1) (n + 1) α) (i j : Fin (n + 1)) :
    cofactor t i j = t.matrix.adjugate j i := by
  rw [Matrix.adjugate_fin_succ_eq_det_submatrix, ← minor_matrix, ← smallDeterminant_eq_det small,
    cofactor]
  by_cases even : (i.val + j.val) % 2 = 0
  · rw [if_pos even, Even.neg_one_pow (Nat.even_iff.mpr even), one_mul]
  · rw [if_neg even, Odd.neg_one_pow (Nat.odd_iff.mpr (Nat.mod_two_ne_zero.mp even)), neg_one_mul]

theorem adjugate_matrix (small : n ≤ 3) (t : Table (n + 1) (n + 1) α) :
    (adjugate t).matrix = t.matrix.adjugate := by
  ext i j
  rw [adjugate, Table.matrix_ofFn]
  exact cofactor_eq small t j i

theorem sum_row_eq_det (small : n ≤ 3) (t : Table (n + 1) (n + 1) α) :
    sum (List.ofFn fun j => t.matrix 0 j * cofactor t 0 j) = t.matrix.det := by
  have expanded := congrFun (congrFun (Matrix.mul_adjugate t.matrix) 0) 0
  rw [Matrix.mul_apply, Matrix.smul_apply, Matrix.one_apply_eq, smul_eq_mul, mul_one] at expanded
  rw [ExactScalar.sum_eq, List.sum_ofFn, ← expanded]
  exact Finset.sum_congr rfl fun j _ => congrArg _ (cofactor_eq small t 0 j)

theorem sum_column_eq_det (small : n ≤ 3) (t : Table (n + 1) (n + 1) α) :
    sum (List.ofFn fun i => t.matrix i 0 * cofactor t i 0) = t.matrix.det := by
  have expanded := congrFun (congrFun (Matrix.adjugate_mul t.matrix) 0) 0
  rw [Matrix.mul_apply, Matrix.smul_apply, Matrix.one_apply_eq, smul_eq_mul, mul_one] at expanded
  rw [ExactScalar.sum_eq, List.sum_ofFn, ← expanded]
  refine Finset.sum_congr rfl fun i _ => ?_
  rw [cofactor_eq small t i 0, mul_comm]

theorem map_adjugate_eq (small : n ≤ 3) {t u : Table (n + 1) (n + 1) α}
    (h : t.matrix * u.matrix = 1) {divide : α → α}
    (divides : ∀ x, divide x = x / t.matrix.det) :
    t.matrix.det ≠ 0 ∧ (adjugate t).map (·.map divide) = u := by
  have unit : t.matrix.det * u.matrix.det = 1 := by rw [← Matrix.det_mul, h, Matrix.det_one]
  have away : t.matrix.det ≠ 0 := left_ne_zero_of_mul_eq_one unit
  refine ⟨away, Table.matrix_injective ?_⟩
  have inverse : t.matrix.adjugate = t.matrix.det • u.matrix := by
    rw [← Matrix.mul_one t.matrix.adjugate, ← h, ← Matrix.mul_assoc, Matrix.adjugate_mul,
      Matrix.smul_mul, Matrix.one_mul]
  ext i j
  rw [Table.matrix_map, Matrix.map_apply, divides, adjugate_matrix small, inverse,
    Matrix.smul_apply, smul_eq_mul, mul_div_cancel_left₀ _ away]

theorem byDivision_eq (small : n ≤ 3) {t u : Table (n + 1) (n + 1) α}
    (h : t.matrix * u.matrix = 1) : byDivision? t = some u := by
  obtain ⟨away, inverse⟩ := map_adjugate_eq small h fun _ => rfl
  have det := sum_row_eq_det small t
  change (if sum (List.ofFn fun j => t.matrix 0 j * cofactor t 0 j) == zero then none else
    some ((adjugate t).map (·.map
      (· / sum (List.ofFn fun j => t.matrix 0 j * cofactor t 0 j))))) = _
  rw [det, if_neg (by simpa using away), inverse]

theorem byScaling_eq (small : n ≤ 3) {t u : Table (n + 1) (n + 1) α}
    (h : t.matrix * u.matrix = 1) : byScaling? t = some u := by
  have scales (x : α) : x * (one / t.matrix.det) = x / t.matrix.det := by
    rw [ExactScalar.one_eq, mul_one_div]
  obtain ⟨away, inverse⟩ := map_adjugate_eq small h scales
  have det := sum_column_eq_det small t
  change (if sum (List.ofFn fun i => t.matrix i 0 * cofactor t i 0) == zero then none else
    some ((adjugate t).map (·.map
      (· * (one / sum (List.ofFn fun i => t.matrix i 0 * cofactor t i 0)))))) = _
  rw [det, if_neg (by simpa using away), inverse]

theorem standard_inverts (few : n ≤ 4) : @Inverts α _ standard n := by
  intro t u h
  change standard? t = some u
  cases n with
  | zero =>
    rw [standard?]
    exact congrArg some (Vector.ext fun i hi => absurd hi (Nat.not_lt_zero i))
  | succ n =>
    rw [standard?]
    by_cases division : n < 3
    · rw [if_pos division]
      exact byDivision_eq division.le h
    · have four : n = 3 := by omega
      rw [if_neg division, if_pos four]
      exact byScaling_eq four.le h

end TableInverse

end AirTraffic
