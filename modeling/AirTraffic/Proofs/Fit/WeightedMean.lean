import AirTraffic.Proofs.Fit.MovingWindow

/-!
# Lines as weighted means

Where weighted samples balance about zero, the line through them has their weighted mean there. The
standard weights over a window balance about its middle, so that a filter made of them takes means
and leads nowhere that the signal has not been.
-/
namespace AirTraffic

open Scalar
open ExactScalar (dot_eq dot_ofFn power_eq ofInt_eq)

variable {α : Type} [ExactScalar α]

theorem dot_mem {weights values : List α} {lo hi : α} (length : weights.length = values.length)
    (nonneg : ∀ w ∈ weights, 0 ≤ w) (within : ∀ x ∈ values, lo ≤ x ∧ x ≤ hi) :
    weights.sum * lo ≤ dot weights values ∧ dot weights values ≤ weights.sum * hi := by
  rw [dot_eq]
  induction weights generalizing values with
  | nil => simp
  | cons w weights ih =>
    cases values with
    | nil => cases length
    | cons x values =>
      obtain ⟨hw, hweights⟩ := List.forall_mem_cons.mp nonneg
      obtain ⟨hx, hvalues⟩ := List.forall_mem_cons.mp within
      obtain ⟨below, above⟩ := ih (Nat.succ.inj length) hweights hvalues
      rw [List.zipWith_cons_cons, List.sum_cons, List.sum_cons, add_mul, add_mul]
      constructor
      · exact add_le_add (mul_le_mul_of_nonneg_left hx.1 hw) below
      · exact add_le_add (mul_le_mul_of_nonneg_left hx.2 hw) above

namespace Polynomial

variable {samples : Samples α}

/-- The share of a sample in the value at zero is that of its weight in the whole weight. -/
theorem Determining.exists_value_shares [TableInverse α] (h : Determining 1 samples)
    (inverts : TableInverse.Inverts α 2) (balanced : (samples.map fun s => s.2 * s.1).sum = 0) :
    ∃ rows, shares? 1 samples = some rows ∧
      rows.get 0 = samples.map fun s => s.2 / (samples.map (·.2)).sum := by
  obtain ⟨inverse, solved, matrix⟩ := h.exists_inverse inverts
  have unit : IsUnit (normalTable 1 samples).matrix.det := isUnit_iff_ne_zero.mpr h.det_ne_zero
  have product : (normalTable 1 samples).matrix * inverse.matrix = 1 := by
    rw [matrix, Matrix.mul_nonsing_inv _ unit]
  have first (j : Fin 2) : (samples.map (·.2)).sum * inverse.matrix 0 j =
      (1 : Matrix (Fin 2) (Fin 2) α) 0 j := by
    have row := congrFun (congrFun product 0) j
    rw [Matrix.mul_apply, Fin.sum_univ_two, normalTable_apply, normalTable_apply] at row
    simpa [balanced] using row
  have whole : (samples.map (·.2)).sum ≠ 0 := left_ne_zero_of_mul_eq_one (first 0)
  have value : inverse.matrix 0 0 = 1 / (samples.map (·.2)).sum :=
    eq_one_div_of_mul_eq_one_right (first 0)
  have slope : inverse.matrix 0 1 = 0 := (mul_eq_zero.mp (first 1)).resolve_left whole
  refine ⟨_, congrArg (Option.map _) solved, ?_⟩
  rw [Table.get_map]
  apply List.map_congr_left
  intro s _
  rw [Table.toList_get, dot_ofFn, Fin.sum_univ_two, value, slope, zero_mul, add_zero, power_eq,
    Fin.val_zero, pow_zero, one_mul, one_div_mul_eq_div]

end Polynomial

namespace MovingFit

variable {m : MovingFit α}

/-- A filter that replaces samples by weighted means. -/
structure Averaging (m : MovingFit α) : Prop where
  shaped : m.Shaped
  nonneg : ∀ w ∈ m.valueWeights, 0 ≤ w
  whole : m.valueWeights.sum = 1

theorem Averaging.smooth_mem (h : m.Averaging) {signal : List α} {lo hi : α}
    (within : ∀ x ∈ signal, lo ≤ x ∧ x ≤ hi) : ∀ y ∈ m.smooth signal, lo ≤ y ∧ y ≤ hi := by
  intro y hy
  have odd := h.shaped.odd
  have half : m.halfWindow = m.windowLength / 2 := rfl
  rw [smooth] at hy
  by_cases short : signal.length < m.windowLength
  · rw [if_pos short] at hy
    exact within y hy
  · have full := Nat.not_lt.mp short
    rw [if_neg short, h.shaped.windows_eq_around full, List.mem_append, List.mem_append] at hy
    rcases hy with (early | inner) | late
    · exact within y (List.mem_of_mem_take early)
    · rw [List.map_map, List.mem_map] at inner
      obtain ⟨k, hk, rfl⟩ := inner
      rw [List.mem_range] at hk
      have length : m.valueWeights.length =
          (around m.windowLength signal (m.halfWindow + k)).length := by
        have width : m.valueWeights.length = m.windowLength := rfl
        simp only [around, List.length_take, List.length_drop]
        omega
      have mixed := dot_mem length h.nonneg fun x hx =>
        within x (List.mem_of_mem_drop (List.mem_of_mem_take hx))
      rwa [h.whole, one_mul, one_mul] at mixed
    · exact within y (List.mem_of_mem_drop late)

theorem averaging_of_balanced [TableInverse α] {timeStep : α} {weights : List α}
    (inverts : TableInverse.Inverts α 2) (positive : ∀ w ∈ weights, 0 < w)
    (enough : 2 ≤ weights.length)
    (balanced : ((windowSamples weights).map fun s => s.2 * s.1).sum = 0)
    (made : withWeights timeStep 1 weights = .ok m) : m.Averaging := by
  have determining := determining_window positive enough
  obtain ⟨rows, solved, value⟩ := determining.exists_value_shares inverts balanced
  obtain ⟨-, rows', solved', rfl⟩ := withWeights_ok made
  obtain rfl : rows = rows' := Option.some.inj (solved.symm.trans solved')
  let whole := ((windowSamples weights).map (·.2)).sum
  have some : windowSamples weights ≠ [] := by
    intro none
    have length := length_windowSamples weights
    rw [none, List.length_nil] at length
    omega
  have wholePositive : 0 < whole := by
    refine List.sum_pos _ (List.forall_mem_map.mpr determining.positive) ?_
    rwa [Ne, List.map_eq_nil_iff]
  have row : rows.toList.getD 0 [] = (windowSamples weights).map fun s => s.2 / whole :=
    (getD_toList rows [] 0).trans value
  constructor
  case shaped => exact Built.shaped ⟨timeStep, 1, weights, made⟩
  case nonneg =>
    rw [row]
    refine List.forall_mem_map.mpr ?_
    intro s hs
    exact (div_pos (determining.positive s hs) wholePositive).le
  case whole =>
    simp only [row, div_eq_mul_inv, List.sum_map_mul_right]
    exact mul_inv_cancel₀ wholePositive.ne'

theorem balanced_defaultWeights :
    ((windowSamples (defaultWeights : List α)).map fun s => s.2 * s.1).sum = 0 := by
  simp only [windowSamples, defaultWeights, List.map_cons, List.map_nil, List.zipIdx_cons,
    List.zipIdx_nil, List.length_cons, List.length_nil, List.sum_cons, List.sum_nil, ofInt_eq]
  norm_num

theorem positive_defaultWeights : ∀ w ∈ (defaultWeights : List α), 0 < w := by
  simp [defaultWeights]

theorem exists_standard [TableInverse α] {timeStep : α} (inverts : TableInverse.Inverts α 2)
    (forward : 0 < timeStep) :
    ∃ m, standard timeStep = .ok m ∧ m.Averaging ∧ Reproducing 1 m := by
  have enough : 2 ≤ (defaultWeights : List α).length := by
    rw [defaultWeights, List.length_map]
    decide
  have odd : (defaultWeights : List α).length % 2 = 1 := by
    rw [defaultWeights, List.length_map]
    rfl
  obtain ⟨m, made, -, -, reproducing⟩ :=
    exists_reproducing inverts forward le_rfl odd positive_defaultWeights enough
  exact ⟨m, made, averaging_of_balanced inverts positive_defaultWeights enough
    balanced_defaultWeights made, reproducing⟩

end MovingFit

end AirTraffic
