import Mathlib.Algebra.Polynomial.Taylor
import AirTraffic.Proofs.Basic
import AirTraffic.Proofs.Cleaning.Guarantees
import AirTraffic.Proofs.Fit.LeastSquares
import AirTraffic.Proofs.InPlace.MovingWindow

/-!
# Polynomials pass the filter

A moving fit leaves the samples of a polynomial of at most its order as they are, and finds their
slopes. Seen from the middle of a window the polynomial is its Taylor expansion there, of which the
weights over the window read the first two coefficients.
-/
namespace AirTraffic.MovingFit

open Scalar ExactScalar

variable {α : Type} [ExactScalar α] {order : Nat}

/-- The values of a polynomial at the first places of a signal. -/
noncomputable def sampled (p : Polynomial α) (n : Nat) : List α :=
  (List.range n).map fun i : Nat => p.eval (i : α)

/-- The values of a polynomial over a window, its places counted from the middle. -/
noncomputable def overWindow (q : Polynomial α) (n : Nat) : List α :=
  (List.range n).map fun j : Nat => q.eval ((j : α) - (n / 2 : Nat))

theorem length_sampled (p : Polynomial α) (n : Nat) : (sampled p n).length = n := by
  rw [sampled, List.length_map, List.length_range]

theorem around_sampled {n width centre : Nat} (p : Polynomial α) (odd : width % 2 = 1)
    (early : width / 2 ≤ centre) (late : centre + width / 2 < n) :
    around width (sampled p n) centre = overWindow (Polynomial.taylor (centre : α) p) width := by
  apply List.ext_getElem
  · simp only [around, sampled, overWindow, List.length_take, List.length_drop, List.length_map,
      List.length_range]
    omega
  · intro j _ _
    simp only [around, sampled, overWindow, List.getElem_take, List.getElem_drop,
      List.getElem_map, List.getElem_range, Polynomial.taylor_eval]
    rw [Nat.cast_add, Nat.cast_sub early]
    congr 1
    ring

theorem length_windowSamples (weights : List α) :
    (windowSamples weights).length = weights.length := by
  rw [windowSamples, List.length_map, List.length_zipIdx]

theorem abscissas_windowSamples (weights : List α) :
    (windowSamples weights).map (·.1) =
      (List.range weights.length).map fun j : Nat => (j : α) - (weights.length / 2 : Nat) := by
  rw [windowSamples, List.map_map, List.range_eq_range', ← List.zipIdx_map_snd, List.map_map]
  apply List.map_congr_left
  intro s _
  simp only [Function.comp_apply, ofInt_eq, Int.cast_natCast, sub_eq_add_neg]

theorem map_eval_windowSamples (q : Polynomial α) (weights : List α) :
    (windowSamples weights).map (fun s => q.eval s.1) = overWindow q weights.length := by
  have abscissas := congrArg (List.map fun x => q.eval x) (abscissas_windowSamples weights)
  rwa [List.map_map, List.map_map] at abscissas

theorem determining_window {weights : List α} (positive : ∀ w ∈ weights, 0 < w)
    (enough : order + 1 ≤ weights.length) :
    Polynomial.Determining order (windowSamples weights) := by
  constructor
  case distinct =>
    rw [abscissas_windowSamples]
    refine List.Nodup.map ?_ List.nodup_range
    intro i j same
    exact Nat.cast_injective (sub_left_injective same)
  case positive =>
    intro s hs
    obtain ⟨⟨w, i⟩, hw, rfl⟩ := List.mem_map.mp hs
    exact positive w (List.fst_mem_of_mem_zipIdx hw)
  case enough => rwa [length_windowSamples]

theorem checkWeights_of_positive {weights : List α} (least : 1 ≤ order)
    (odd : weights.length % 2 = 1) (positive : ∀ w ∈ weights, 0 < w)
    (enough : order + 1 ≤ weights.length) : checkWeights order weights = .ok () := by
  have none : (weights.find? fun w => !(decide (zero < w) && isFinite w)) = none := by
    rw [List.find?_eq_none]
    intro w hw
    simp [positive w hw]
  rw [checkWeights, if_neg (by omega), if_neg (by omega), if_neg (by omega), none]

/-- A filter whose weights read the value and the slope in the middle off every polynomial of at
most some degree. -/
structure Reproducing (degree : Nat) (m : MovingFit α) : Prop where
  shaped : m.Shaped
  value : ∀ q : Polynomial α, q.natDegree ≤ degree →
    dot m.valueWeights (overWindow q m.windowLength) = q.coeff 0
  slope : ∀ q : Polynomial α, q.natDegree ≤ degree →
    dot m.slopeWeights (overWindow q m.windowLength) = q.coeff 1

theorem exists_reproducing [TableInverse α] {timeStep : α} {weights : List α}
    (inverts : TableInverse.Inverts α (order + 1)) (forward : 0 < timeStep) (least : 1 ≤ order)
    (odd : weights.length % 2 = 1) (positive : ∀ w ∈ weights, 0 < w)
    (enough : order + 1 ≤ weights.length) :
    ∃ m, withWeights timeStep order weights = .ok m ∧ m.timeStep = timeStep ∧
      m.windowLength = weights.length ∧ Reproducing order m := by
  obtain ⟨rows, solved, reads⟩ := (determining_window positive enough).exists_shares inverts
  let m : MovingFit α := ⟨timeStep, order, rows.toList.getD 0 [], rows.toList.getD 1 []⟩
  have made : withWeights timeStep order weights = .ok m := by
    rw [withWeights, if_neg (by simp [forward]),
      checkWeights_of_positive least odd positive enough, solved]
    rfl
  have valueRow : m.valueWeights = rows.get 0 := getD_toList rows [] 0
  have slopeRow : m.slopeWeights = rows.get ⟨1, Nat.succ_lt_succ least⟩ :=
    getD_toList rows [] ⟨1, Nat.succ_lt_succ least⟩
  have width : m.windowLength = weights.length := by
    rw [windowLength, valueRow, ← length_windowSamples weights]
    exact length_of_mem_shares solved (Vector.mem_toList_iff.mpr (Vector.getElem_mem _))
  refine ⟨m, made, rfl, width, Built.shaped ⟨timeStep, order, weights, made⟩, ?_, ?_⟩
  · intro q hq
    rw [width, valueRow, ← map_eval_windowSamples, reads q hq]
    rfl
  · intro q hq
    rw [width, slopeRow, ← map_eval_windowSamples, reads q hq]

section Places

variable {β : Type}

/-- The place nearest to a given one of those with half a window on either side. -/
def nearestInner (m : MovingFit β) (n i : Nat) : Nat :=
  max m.halfWindow (min i (n - 1 - m.halfWindow))

variable (m : MovingFit β) {n i : Nat}

theorem nearestInner_of_inner (early : m.halfWindow ≤ i) (late : i + m.halfWindow < n) :
    m.nearestInner n i = i := by
  rw [nearestInner]
  omega

theorem nearestInner_of_early (early : i ≤ m.halfWindow) :
    m.nearestInner n i = m.halfWindow := by
  rw [nearestInner]
  omega

theorem nearestInner_of_late (full : 2 * m.halfWindow < n) (late : n ≤ i + m.halfWindow + 1) :
    m.nearestInner n i = n - 1 - m.halfWindow := by
  rw [nearestInner]
  omega

end Places

namespace Reproducing

variable {degree : Nat} {m : MovingFit α} (h : Reproducing degree m) {p : Polynomial α}
  (hp : p.natDegree ≤ degree)

include h

theorem exists_inner {n : Nat} (full : m.windowLength ≤ n) :
    ∃ inner, 0 < inner ∧ n = m.halfWindow + (inner + m.halfWindow) := by
  have odd := h.shaped.odd
  have half : m.halfWindow = m.windowLength / 2 := rfl
  exact ⟨n - m.halfWindow - m.halfWindow, by omega, by omega⟩

include hp

theorem value_around {n centre : Nat} (early : m.halfWindow ≤ centre)
    (late : centre + m.halfWindow < n) :
    dot m.valueWeights (around m.windowLength (sampled p n) centre) = p.eval (centre : α) := by
  rw [around_sampled p h.shaped.odd early late, h.value _ (by rwa [Polynomial.natDegree_taylor]),
    Polynomial.taylor_coeff_zero]

theorem slope_around {n centre : Nat} (early : m.halfWindow ≤ centre)
    (late : centre + m.halfWindow < n) :
    m.slopeAround (sampled p n) centre = p.derivative.eval (centre : α) / m.timeStep := by
  rw [slopeAround, around_sampled p h.shaped.odd early late,
    h.slope _ (by rwa [Polynomial.natDegree_taylor]), Polynomial.taylor_coeff_one]

theorem smooth_sampled (n : Nat) : m.smooth (sampled p n) = sampled p n := by
  rw [smooth]
  by_cases short : (sampled p n).length < m.windowLength
  · rw [if_pos short]
  · have full := Nat.not_lt.mp short
    rw [if_neg short, h.shaped.windows_eq_around full, List.map_map]
    rw [length_sampled] at full ⊢
    obtain ⟨inner, -, rfl⟩ := h.exists_inner full
    have count : m.halfWindow + (inner + m.halfWindow) - m.halfWindow - m.halfWindow = inner := by
      omega
    have stop : m.halfWindow + (inner + m.halfWindow) - m.halfWindow = m.halfWindow + inner := by
      omega
    have values : (List.range inner).map (dot m.valueWeights ∘ fun k => around m.windowLength
        (sampled p (m.halfWindow + (inner + m.halfWindow))) (m.halfWindow + k)) =
          (List.range inner).map fun k => p.eval ((m.halfWindow + k : Nat) : α) := by
      apply List.map_congr_left
      intro k hk
      rw [List.mem_range] at hk
      exact h.value_around hp (by omega) (by omega)
    rw [count, stop, values, sampled, map_range_parts, List.take_left' (by simp),
      ← List.append_assoc, List.drop_left' (by simp)]

theorem smoothSlope_sampled {n : Nat} (full : m.windowLength ≤ n) :
    m.smoothSlope (sampled p n) = (List.range n).map fun i =>
      p.derivative.eval (m.nearestInner n i : α) / m.timeStep := by
  obtain ⟨inner, some, rfl⟩ := h.exists_inner full
  let n := m.halfWindow + (inner + m.halfWindow)
  let slope (i : Nat) : α := p.derivative.eval (i : α) / m.timeStep
  have last : (sampled p n).length = m.halfWindow + (inner - 1) + 1 + m.halfWindow := by
    rw [length_sampled]
    omega
  have count : m.halfWindow + (inner - 1) + 1 - m.halfWindow = inner := by omega
  have before : (List.range m.halfWindow).map (fun i => slope (m.nearestInner n i)) =
      List.replicate m.halfWindow (slope m.halfWindow) := by
    apply map_range_eq_replicate
    intro i hi
    rw [m.nearestInner_of_early hi.le]
  have within : (List.range inner).map
      (fun k => slope (m.nearestInner n (m.halfWindow + k))) =
        (List.range inner).map fun k => m.slopeAround (sampled p n) (m.halfWindow + k) := by
    apply List.map_congr_left
    intro k hk
    rw [List.mem_range] at hk
    rw [h.slope_around hp (by omega) (by omega), m.nearestInner_of_inner (by omega) (by omega)]
  have after : (List.range m.halfWindow).map
      (fun i => slope (m.nearestInner n (m.halfWindow + (inner + i)))) =
        List.replicate m.halfWindow (slope (m.halfWindow + (inner - 1))) := by
    apply map_range_eq_replicate
    intro i _
    rw [m.nearestInner_of_late (by omega) (by omega)]
    congr 1
    omega
  rw [h.shaped.smoothSlope_of_full _ (by rwa [length_sampled]) last, count,
    h.slope_around hp le_rfl (by omega), h.slope_around hp (by omega) (by omega), ← within]
  exact ((map_range_parts (fun i => slope (m.nearestInner n i)) _ _ _).trans
    (congrArg₂ _ before (congrArg _ after))).symm

end Reproducing

section Line

variable {p : Polynomial α} (hp : p.natDegree ≤ 1)

include hp

theorem eval_derivative_of_linear (x : α) : p.derivative.eval x = p.coeff 1 := by
  rw [Polynomial.eq_X_add_C_of_natDegree_le_one hp]
  simp

theorem steps_sampled (n : Nat) :
    List.zipWith (fun x y => y - x) (sampled p n) (sampled p n).tail =
      List.replicate (n - 1) (p.coeff 1) := by
  apply List.ext_getElem
  · simp [sampled]
  · intro i _ _
    rw [List.getElem_zipWith, List.getElem_tail, List.getElem_replicate]
    simp only [sampled, List.getElem_map, List.getElem_range, Nat.cast_add, Nat.cast_one]
    rw [Polynomial.eq_X_add_C_of_natDegree_le_one hp]
    simp [mul_add]

theorem meanSlope_sampled (m : MovingFit α) {n : Nat} (two : 2 ≤ n) :
    m.meanSlope (sampled p n) = (sampled p.derivative n).map (· / m.timeStep) := by
  have pairs : ((n - 1 : Nat) : α) ≠ 0 := Nat.cast_ne_zero.mpr (by omega)
  have constant : (sampled p.derivative n).map (· / m.timeStep) =
      List.replicate n (p.coeff 1 / m.timeStep) := by
    rw [sampled, List.map_map]
    apply map_range_eq_replicate
    intro i _
    rw [Function.comp_apply, eval_derivative_of_linear hp]
  have mean : sum (List.replicate (n - 1) (p.coeff 1)) / ofInt (n - 1 : Nat) = p.coeff 1 := by
    rw [sum_eq, List.sum_replicate, nsmul_eq_mul, ofInt_eq, Int.cast_natCast,
      mul_div_cancel_left₀ _ pairs]
  rw [constant, ← mean, ← steps_sampled hp, meanSlope, length_sampled, if_neg (by omega)]

theorem Reproducing.smoothSlope_line {degree : Nat} {m : MovingFit α} (h : Reproducing degree m)
    (least : 1 ≤ degree) {n : Nat} (two : 2 ≤ n) :
    m.smoothSlope (sampled p n) = (sampled p.derivative n).map (· / m.timeStep) := by
  by_cases short : n < m.windowLength
  · rw [smoothSlope, length_sampled, if_pos short, meanSlope_sampled hp m two]
  · rw [h.smoothSlope_sampled (hp.trans least) (Nat.not_lt.mp short), sampled, List.map_map]
    apply List.map_congr_left
    intro i _
    rw [Function.comp_apply, eval_derivative_of_linear hp, eval_derivative_of_linear hp]

end Line

/-- Positive weights over a window of odd length, at least as long as the polynomial has
coefficients, make a filter. It leaves the samples of every polynomial up to its order as they are,
and where the window fits it gives their slopes, continued from the nearest place inside; those of a
line it gives everywhere. -/
theorem reproduces_polynomials [TableInverse α] {timeStep : α} {weights : List α}
    (inverts : TableInverse.Inverts α (order + 1)) (forward : 0 < timeStep) (least : 1 ≤ order)
    (odd : weights.length % 2 = 1) (positive : ∀ w ∈ weights, 0 < w)
    (enough : order + 1 ≤ weights.length) :
    (Polynomial.normalTable order (windowSamples weights)).matrix.det ≠ 0 ∧
      ∃ m, withWeights timeStep order weights = .ok m ∧ m.windowLength = weights.length ∧
        (∀ p : Polynomial α, p.natDegree ≤ order → ∀ n, m.smooth (sampled p n) = sampled p n) ∧
        (∀ p : Polynomial α, p.natDegree ≤ order → ∀ n, m.windowLength ≤ n →
          m.smoothSlope (sampled p n) = (List.range n).map fun i =>
            p.derivative.eval (m.nearestInner n i : α) / timeStep) ∧
        ∀ p : Polynomial α, p.natDegree ≤ 1 → ∀ n, 2 ≤ n →
          m.smoothSlope (sampled p n) = (sampled p.derivative n).map (· / timeStep) := by
  refine ⟨(determining_window positive enough).det_ne_zero, ?_⟩
  obtain ⟨m, made, rfl, width, reproducing⟩ :=
    exists_reproducing inverts forward least odd positive enough
  refine ⟨m, made, width, ?_, ?_, ?_⟩
  · intro p hp n
    exact reproducing.smooth_sampled hp n
  · intro p hp n full
    exact reproducing.smoothSlope_sampled hp full
  · intro p hp n two
    exact reproducing.smoothSlope_line hp least two

/-- Twenty-five squares, smoothed by parabolas with the default weights. -/
theorem squares_reproduced : TableInverse.Inverts ℚ 3 ∧
    ∃ m, withWeights (1 : ℚ) 2 defaultWeights = .ok m ∧
      m.smooth (sampled (.X ^ 2) 25) = sampled (.X ^ 2) 25 ∧
      (m.smoothSlope (sampled (.X ^ 2) 25))[10]? = some 20 ∧
      (m.smoothSlope (sampled (.X ^ 2) 25))[0]? = some 12 ∧
      m.smoothSlope (sampled .X 5) = [1, 1, 1, 1, 1] := by
  have inverts : TableInverse.Inverts ℚ 3 := TableInverse.standard_inverts (by decide)
  have square : (Polynomial.X ^ 2 : Polynomial ℚ).natDegree ≤ 2 := Polynomial.natDegree_X_pow_le 2
  obtain ⟨-, m, made, width, same, slopes, line⟩ :=
    reproduces_polynomials inverts (zero_lt_one' ℚ) one_le_two
      (show (defaultWeights : List ℚ).length % 2 = 1 by decide) (by decide) (by decide)
  have length : m.windowLength = 13 := width
  have half : m.halfWindow = 6 := congrArg (· / 2) length
  refine ⟨inverts, m, made, same _ square 25, ?_, ?_, ?_⟩
  · rw [slopes _ square 25 (by omega)]
    norm_num [nearestInner, half]
  · rw [slopes _ square 25 (by omega)]
    norm_num [nearestInner, half]
  · rw [line _ Polynomial.natDegree_X_le 5 (by decide)]
    norm_num [sampled]
    rfl

end AirTraffic.MovingFit
