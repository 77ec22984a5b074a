import Mathlib.Algebra.Polynomial.OfFn
import Mathlib.Algebra.Polynomial.Roots
import Mathlib.LinearAlgebra.Matrix.ToLinearEquiv
import AirTraffic.Proofs.Fit.Inverse
import AirTraffic.Fit.Polynomial

/-!
# Polynomials found again

Distinct abscissas with positive weights leave the normal equations a single solution. So where the
samples come from a polynomial of at most the degree that is fitted, its own coefficients are found.
-/
namespace AirTraffic.Polynomial

open Scalar ExactScalar

variable {α : Type} [ExactScalar α] {degree : Nat} {samples : Samples α}

/-- Samples through which there is one best polynomial. -/
structure Determining (degree : Nat) (samples : Samples α) : Prop where
  distinct : (samples.map (·.1)).Nodup
  positive : ∀ s ∈ samples, 0 < s.2
  enough : degree < samples.length

theorem normalTable_apply (degree : Nat) (samples : Samples α) (i j : Fin (degree + 1)) :
    (normalTable degree samples).matrix i j =
      (samples.map fun s => s.1 ^ i.val * s.2 * s.1 ^ j.val).sum := by
  simp only [normalTable, Table.matrix_ofFn, Matrix.of_apply, sum_eq, power_eq]

section Normal

variable {q : Polynomial α} (hq : q.natDegree ≤ degree)

include hq

theorem eval_eq_sum (x : α) : q.eval x = ∑ k : Fin (degree + 1), q.coeff k * x ^ k.val := by
  rw [Polynomial.eval_eq_sum_range' (Nat.lt_succ_of_le hq), Finset.sum_range]

theorem normalTable_mulVec (samples : Samples α) :
    (normalTable degree samples).matrix.mulVec (fun k => q.coeff k) = fun i =>
      (samples.map fun s => s.1 ^ i.val * s.2 * q.eval s.1).sum := by
  funext i
  have moment (s : α × α) : s.1 ^ i.val * s.2 * q.eval s.1 =
      ∑ j : Fin (degree + 1), s.1 ^ i.val * s.2 * s.1 ^ j.val * q.coeff j := by
    rw [eval_eq_sum hq, Finset.mul_sum]
    exact Finset.sum_congr rfl fun j _ => by ring
  simp only [Matrix.mulVec, dotProduct, normalTable_apply, moment, sum_map_sum,
    List.sum_map_mul_right]

theorem sum_squares_eq (samples : Samples α) :
    ∑ i : Fin (degree + 1), q.coeff i *
      ((normalTable degree samples).matrix.mulVec (fun k => q.coeff k)) i =
        (samples.map fun s => s.2 * q.eval s.1 ^ 2).sum := by
  have square (s : α × α) : s.2 * q.eval s.1 ^ 2 =
      ∑ i : Fin (degree + 1), q.coeff i * (s.1 ^ i.val * s.2 * q.eval s.1) := by
    calc s.2 * q.eval s.1 ^ 2
      _ = (∑ i : Fin (degree + 1), q.coeff i * s.1 ^ i.val) * (s.2 * q.eval s.1) := by
        rw [← eval_eq_sum hq]
        ring
      _ = _ := by
        rw [Finset.sum_mul]
        exact Finset.sum_congr rfl fun i _ => by ring
  simp only [normalTable_mulVec hq, square, sum_map_sum, List.sum_map_mul_left]

end Normal

theorem Determining.eq_zero_of_eval (h : Determining degree samples) {q : Polynomial α}
    (hq : q.natDegree ≤ degree) (vanishes : ∀ s ∈ samples, q.eval s.1 = 0) : q = 0 := by
  classical
  refine Polynomial.eq_zero_of_natDegree_lt_card_of_eval_eq_zero' q
    (samples.map (·.1)).toFinset ?_ ?_
  · intro x hx
    obtain ⟨s, hs, rfl⟩ := List.mem_map.mp (List.mem_toFinset.mp hx)
    exact vanishes s hs
  · rw [List.toFinset_card_of_nodup h.distinct, List.length_map]
    exact hq.trans_lt h.enough

/-- The normal equations are never singular. -/
theorem Determining.det_ne_zero (h : Determining degree samples) :
    (normalTable degree samples).matrix.det ≠ 0 := by
  intro singular
  obtain ⟨v, nonzero, solved⟩ := Matrix.exists_mulVec_eq_zero_iff.mpr singular
  let q := Polynomial.ofFn (degree + 1) v
  have hq : q.natDegree ≤ degree :=
    Nat.lt_succ_iff.mp (Polynomial.ofFn_natDegree_lt (Nat.succ_pos degree) v)
  have coefficients : (fun k : Fin (degree + 1) => q.coeff k) = v := by
    funext k
    exact Polynomial.ofFn_coeff_eq_val_of_lt v k.isLt
  have squares : (samples.map fun s => s.2 * q.eval s.1 ^ 2).sum = 0 := by
    rw [← sum_squares_eq hq, coefficients, solved]
    simp
  have vanishes : ∀ s ∈ samples, q.eval s.1 = 0 := by
    intro s hs
    have terms : ∀ y ∈ samples.map (fun s => s.2 * q.eval s.1 ^ 2), 0 ≤ y :=
      List.forall_mem_map.mpr fun s hs => mul_nonneg (h.positive s hs).le (sq_nonneg _)
    have zero := List.all_zero_of_le_zero_le_of_sum_eq_zero terms squares (List.mem_map_of_mem hs)
    simpa [(h.positive s hs).ne'] using zero
  refine nonzero ?_
  rw [← coefficients, h.eq_zero_of_eval hq vanishes]
  rfl

theorem Determining.coeff_eq (h : Determining degree samples)
    {inverse : Table (degree + 1) (degree + 1) α}
    (inverts : inverse.matrix = (normalTable degree samples).matrix⁻¹) {q : Polynomial α}
    (hq : q.natDegree ≤ degree) (r : Fin (degree + 1)) :
    ∑ k, inverse.matrix r k * (samples.map fun s => s.1 ^ k.val * s.2 * q.eval s.1).sum =
      q.coeff r := by
  have unit : IsUnit (normalTable degree samples).matrix.det := isUnit_iff_ne_zero.mpr h.det_ne_zero
  calc ∑ k, inverse.matrix r k * (samples.map fun s => s.1 ^ k.val * s.2 * q.eval s.1).sum
    _ = inverse.matrix.mulVec ((normalTable degree samples).matrix.mulVec
          fun k => q.coeff k) r := by
      rw [normalTable_mulVec hq]
      rfl
    _ = q.coeff r := by
      rw [Matrix.mulVec_mulVec, inverts, Matrix.nonsing_inv_mul _ unit, Matrix.one_mulVec]

theorem dot_shares (inverse : Table (degree + 1) (degree + 1) α) (r : Fin (degree + 1))
    (samples : Samples α) (value : α → α) :
    dot (samples.map fun s => dot (inverse.get r).toList
        (List.ofFn fun k : Fin (degree + 1) => power s.1 k.val * s.2))
      (samples.map fun s => value s.1) =
    ∑ k, inverse.matrix r k * (samples.map fun s => s.1 ^ k.val * s.2 * value s.1).sum := by
  have share (s : α × α) : dot (inverse.get r).toList
      (List.ofFn fun k : Fin (degree + 1) => power s.1 k.val * s.2) * value s.1 =
        ∑ k, inverse.matrix r k * (s.1 ^ k.val * s.2 * value s.1) := by
    rw [Table.toList_get, dot_ofFn, Finset.sum_mul]
    refine Finset.sum_congr rfl fun k _ => ?_
    rw [power_eq, mul_assoc]
  simp only [dot_map, share, sum_map_sum, List.sum_map_mul_left]

variable [TableInverse α]

theorem Determining.exists_inverse (h : Determining degree samples)
    (inverts : TableInverse.Inverts α (degree + 1)) :
    ∃ inverse, TableInverse.inverse? (normalTable degree samples) = some inverse ∧
      inverse.matrix = (normalTable degree samples).matrix⁻¹ := by
  let normal := normalTable degree samples
  let inverse : Table (degree + 1) (degree + 1) α := Table.ofFn fun i j => normal.matrix⁻¹ i j
  have unit : IsUnit normal.matrix.det := isUnit_iff_ne_zero.mpr h.det_ne_zero
  have matrix : inverse.matrix = normal.matrix⁻¹ := Table.matrix_ofFn fun i j => normal.matrix⁻¹ i j
  refine ⟨inverse, inverts normal inverse ?_, matrix⟩
  rw [matrix, Matrix.mul_nonsing_inv _ unit]

/-- The samples' shares in the coefficients, weighed with the values of a polynomial, give the
polynomial back. -/
theorem Determining.exists_shares (h : Determining degree samples)
    (inverts : TableInverse.Inverts α (degree + 1)) :
    ∃ rows, shares? degree samples = some rows ∧
      ∀ q : Polynomial α, q.natDegree ≤ degree → ∀ r : Fin (degree + 1),
        dot (rows.get r) (samples.map fun s => q.eval s.1) = q.coeff r := by
  obtain ⟨inverse, solved, matrix⟩ := h.exists_inverse inverts
  refine ⟨_, congrArg (Option.map _) solved, ?_⟩
  intro q hq r
  rw [Table.get_map]
  exact (dot_shares inverse r samples fun x => q.eval x).trans (h.coeff_eq matrix hq r)

section Fit

variable {observations : List (α × α)}

omit [TableInverse α] in
theorem determining_of_distinct (distinct : (observations.map (·.1)).Nodup)
    (enough : degree < observations.length) :
    Determining degree (observations.map fun o => (o.1, one)) := by
  constructor
  case distinct => rwa [List.map_map]
  case positive =>
    refine List.forall_mem_map.mpr ?_
    intro o _
    simp
  case enough => rwa [List.length_map]

theorem exists_fit (distinct : (observations.map (·.1)).Nodup)
    (enough : degree < observations.length) (inverts : TableInverse.Inverts α (degree + 1)) :
    ∃ coefficients, fit? degree observations = some coefficients ∧
      ∀ q : Polynomial α, q.natDegree ≤ degree → (∀ o ∈ observations, o.2 = q.eval o.1) →
        ∀ r : Fin (degree + 1), coefficients.get r = q.coeff r := by
  obtain ⟨rows, solved, reads⟩ := (determining_of_distinct distinct enough).exists_shares inverts
  refine ⟨_, congrArg (Option.map _) solved, ?_⟩
  intro q hq observed r
  have values : observations.map (·.2) =
      (observations.map fun o => (o.1, (one : α))).map fun s => q.eval s.1 := by
    rw [List.map_map]
    exact List.map_congr_left observed
  rw [Table.get_map, values]
  exact reads q hq r

end Fit

end AirTraffic.Polynomial
