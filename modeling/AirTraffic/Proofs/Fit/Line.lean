import Mathlib.Algebra.BigOperators.Ring.List
import Mathlib.Algebra.Order.BigOperators.Group.List
import Mathlib.Tactic.FieldSimp
import Mathlib.Tactic.LinearCombination
import AirTraffic.Proofs.Basic
import AirTraffic.Proofs.Scalar.Sums
import AirTraffic.Fit.Line

/-!
# What an observation weighs

The value of a least-squares line anywhere is a sum of the values observed, and how much each of
them counts depends on the abscissas alone. Within the observations none counts more than once.
Beyond them it can: there the line turns on its outermost observations.
-/
namespace AirTraffic.Observations

open Scalar
open ExactScalar (sum_eq dot_map ofInt_eq)

variable {α : Type} [ExactScalar α]

theorem sum_sq_nonneg {β : Type} (f : β → α) (xs : List β) : 0 ≤ (xs.map fun x => f x ^ 2).sum :=
  List.sum_nonneg (List.forall_mem_map.mpr fun _ _ => sq_nonneg _)

theorem sum_sq_eq_zero_iff {β : Type} {f : β → α} {xs : List β} :
    (xs.map fun x => f x ^ 2).sum = 0 ↔ ∀ x ∈ xs, f x = 0 := by
  constructor
  · intro none x hx
    have terms : ∀ y ∈ xs.map (fun x => f x ^ 2), 0 ≤ y :=
      List.forall_mem_map.mpr fun _ _ => sq_nonneg _
    have zero := List.all_zero_of_le_zero_le_of_sum_eq_zero terms none (List.mem_map_of_mem hx)
    exact (pow_eq_zero_iff two_ne_zero).mp zero
  · intro zero
    refine List.sum_eq_zero (List.forall_mem_map.mpr fun x hx => ?_)
    rw [zero x hx, zero_pow two_ne_zero]

section Moments

variable (values : List α)

theorem mean_eq : mean values = values.sum / values.length := by
  rw [mean, sum_eq, ofInt_eq, Int.cast_natCast]

/-- Sum of squares about the mean. -/
def spread : α := (values.map fun x => (x - mean values) ^ 2).sum

theorem length_mul_mean : values.length * mean values = values.sum := by
  by_cases none : values = []
  · simp [none]
  · have length : (values.length : α) ≠ 0 := by simpa using none
    rw [mean_eq, mul_div_cancel₀ _ length]

variable {values} in
theorem mean_pos (some : values ≠ []) (positive : ∀ v ∈ values, 0 < v) : 0 < mean values := by
  rw [mean_eq]
  exact div_pos (List.sum_pos values positive some) (by simpa [List.length_pos_iff] using some)

theorem sum_deviations : (values.map fun x => x - mean values).sum = 0 := by
  simp only [sub_eq_add_neg, List.sum_map_add, List.map_id', List.map_const', List.sum_replicate,
    nsmul_eq_mul, mul_neg, length_mul_mean, add_neg_cancel]

theorem spread_eq : spread values = (values.map (· ^ 2)).sum - values.sum * mean values := by
  have expand : ∀ x : α, (x - mean values) ^ 2 =
      x ^ 2 + (x * -(2 * mean values) + mean values * mean values) := fun x => by ring
  simp only [spread, expand, List.sum_map_add, List.sum_map_mul_right, List.map_id',
    List.map_const', List.sum_replicate, nsmul_eq_mul, ← mul_assoc, length_mul_mean]
  ring

theorem dot_deviations : dot (deviations values) (deviations values) = spread values := by
  rw [deviations, dot_map, spread]
  simp only [sq]

variable {values}

theorem spread_nonneg (values : List α) : 0 ≤ spread values := sum_sq_nonneg _ _

theorem eq_mean_of_spread (none : spread values = 0) : ∀ x ∈ values, x = mean values :=
  fun x hx => sub_eq_zero.mp (sum_sq_eq_zero_iff.mp none x hx)

theorem spread_pos (distinct : values.Nodup) (several : 2 ≤ values.length) : 0 < spread values := by
  refine (spread_nonneg values).lt_of_ne' ?_
  intro none
  have same := eq_mean_of_spread none
  match values, several with
  | x :: y :: rest, _ =>
    have alike := (same x (by simp)).trans (same y (by simp)).symm
    simp [alike] at distinct

theorem mean_perm {values' : List α} (h : values.Perm values') : mean values = mean values' := by
  rw [mean_eq, mean_eq, h.sum_eq, h.length_eq]

theorem spread_perm {values' : List α} (h : values.Perm values') :
    spread values = spread values' := by
  rw [spread, spread, mean_perm h]
  exact (h.map _).sum_eq

end Moments

section Line

variable (o : Observations α)

theorem sxx_eq : sxx o = spread o.xs := dot_deviations o.xs

theorem sxy_eq_sum :
    sxy o = (o.map fun p => (p.1 - mean o.xs) * (p.2 - mean o.ys)).sum := by
  rw [← dot_map]
  simp only [sxy, deviations, xs, ys, List.map_map, Function.comp_def]

theorem sxy_eq : sxy o = (o.map fun p => (p.1 - mean o.xs) * p.2).sum := by
  have balanced : (o.map fun p => p.1 - mean o.xs).sum = 0 := by
    have := sum_deviations o.xs
    rwa [xs, List.map_map] at this
  have apart : ∀ p : α × α, (p.1 - mean o.xs) * (p.2 - mean o.ys) =
      (p.1 - mean o.xs) * p.2 + (p.1 - mean o.xs) * -mean o.ys := fun p => by ring
  rw [sxy_eq_sum]
  simp only [apart, List.sum_map_add, List.sum_map_mul_right, balanced, zero_mul, add_zero]

end Line

section Leverage

variable (xs : List α)

/-- What a value observed at `b` counts in the value of the line at `x`. -/
def leverage (b x : α) : α := 1 / xs.length + (b - mean xs) * (x - mean xs) / spread xs

theorem sum_leverage (some : xs ≠ []) (x : α) : (xs.map fun b => leverage xs b x).sum = 1 := by
  have length : (xs.length : α) ≠ 0 := by simpa using some
  simp only [leverage, mul_div_assoc, List.sum_map_add, List.sum_map_mul_right, sum_deviations,
    List.map_const', List.sum_replicate, nsmul_eq_mul, zero_mul, add_zero]
  exact mul_one_div_cancel length

theorem sum_leverage_sq (some : xs ≠ []) (spreads : spread xs ≠ 0) (b : α) :
    (xs.map fun x => leverage xs b x ^ 2).sum = leverage xs b b := by
  have length : (xs.length : α) ≠ 0 := by simpa using some
  have expand : ∀ x : α, leverage xs b x ^ 2 = (1 / xs.length) ^ 2 +
      ((x - mean xs) * (2 / xs.length * ((b - mean xs) / spread xs)) +
        (x - mean xs) ^ 2 * ((b - mean xs) / spread xs) ^ 2) := by
    intro x
    rw [leverage]
    ring
  simp only [expand, List.sum_map_add, List.sum_map_mul_right, sum_deviations, List.map_const',
    List.sum_replicate, nsmul_eq_mul, zero_mul, zero_add]
  change _ + spread xs * _ = _
  rw [leverage]
  field_simp

theorem sum_mul_leverage (some : xs ≠ []) (spreads : spread xs ≠ 0) (x : α) :
    (xs.map fun b => b * leverage xs b x).sum = x := by
  have length : (xs.length : α) ≠ 0 := by simpa using some
  have expand : ∀ b : α, b * leverage xs b x = b * (1 / xs.length) +
      ((b - mean xs) ^ 2 * ((x - mean xs) / spread xs) +
        (b - mean xs) * (mean xs * ((x - mean xs) / spread xs))) := by
    intro b
    rw [leverage]
    ring
  simp only [expand, List.sum_map_add, List.sum_map_mul_right, List.map_id', sum_deviations,
    zero_mul, add_zero]
  change _ + spread xs * _ = _
  rw [mul_div_cancel₀ _ spreads, mul_one_div, ← mean_eq]
  ring

variable {xs}

/-- Within the observations none counts more than once: the squares of what one of them counts at
all of them sum to what it counts at itself. -/
theorem abs_leverage_le_one (spreads : spread xs ≠ 0) {b x : α} (hb : b ∈ xs) (hx : x ∈ xs) :
    |leverage xs b x| ≤ 1 := by
  have some := List.ne_nil_of_mem hb
  have terms : ∀ y ∈ xs.map (fun x => leverage xs b x ^ 2), 0 ≤ y :=
    List.forall_mem_map.mpr fun x _ => sq_nonneg _
  have part {x : α} (hx : x ∈ xs) : leverage xs b x ^ 2 ≤ leverage xs b b := by
    rw [← sum_leverage_sq xs some spreads b]
    exact List.single_le_sum terms _ (List.mem_map_of_mem hx)
  have own : leverage xs b b ≤ 1 := by
    by_contra more
    have more := not_le.mp more
    have := part hb
    nlinarith
  exact (sq_le_one_iff_abs_le_one _).mp ((part hx).trans own)

theorem abs_leverage_le_one_of_between (spreads : spread xs ≠ 0) {b lo hi x : α} (hb : b ∈ xs)
    (hlo : lo ∈ xs) (hhi : hi ∈ xs) (above : lo ≤ x) (below : x ≤ hi) : |leverage xs b x| ≤ 1 := by
  obtain ⟨lo_above, lo_below⟩ := abs_le.mp (abs_leverage_le_one spreads hb hlo)
  obtain ⟨hi_above, hi_below⟩ := abs_le.mp (abs_leverage_le_one spreads hb hhi)
  have slope (y z : α) : leverage xs b y - leverage xs b z =
      (b - mean xs) / spread xs * (y - z) := by
    rw [leverage, leverage]
    ring
  have after := sub_nonneg.mpr above
  have before := sub_nonneg.mpr below
  rw [abs_le]
  rcases le_total 0 ((b - mean xs) / spread xs) with rising | falling
  · have low := mul_nonneg rising after
    have high := mul_nonneg rising before
    rw [← slope] at low high
    constructor
    · linarith
    · linarith
  · have low := mul_nonpos_of_nonpos_of_nonneg falling after
    have high := mul_nonpos_of_nonpos_of_nonneg falling before
    rw [← slope] at low high
    constructor
    · linarith
    · linarith

end Leverage

section Values

variable {o : Observations α}

theorem predict?_of_slope {m : α} (hm : slope? o = some m) (x : α) :
    predict? o x = some (mean o.ys + m * (x - mean o.xs)) := by
  obtain ⟨enough, same⟩ := Option.ite_none_left_eq_some.mp hm
  have through : intercept? o = some (mean o.ys - m * mean o.xs) := by
    rw [intercept?, if_neg (not_or.mp enough).1, Option.some.inj same]
  have sum : mean o.ys - m * mean o.xs + m * x = mean o.ys + m * (x - mean o.xs) := by ring
  rw [predict?, through, hm]
  exact congrArg some sum

theorem determined_of_predict? {x v : α} (h : predict? o x = some v) :
    2 ≤ o.length ∧ spread o.xs ≠ 0 := by
  by_cases enough : o.length < 2 ∨ (sxx o == zero)
  · rw [predict?, slope?, if_pos enough] at h
    split at h
    · next absent => cases absent
    · cases h
  · obtain ⟨several, spreads⟩ := not_or.mp enough
    rw [sxx_eq, ExactScalar.zero_eq, beq_iff_eq] at spreads
    exact ⟨Nat.not_lt.mp several, spreads⟩

variable (spreads : spread o.xs ≠ 0)

include spreads

theorem slope?_eq (several : 2 ≤ o.length) : slope? o = some (sxy o / spread o.xs) := by
  have few : ¬o.length < 2 := Nat.not_lt.mpr several
  simp [slope?, sxx_eq, few, spreads]

theorem predict?_eq (several : 2 ≤ o.length) (x : α) :
    predict? o x = some (o.map fun p => p.2 * leverage o.xs p.1 x).sum := by
  have apart : ∀ p : α × α, p.2 * leverage o.xs p.1 x = p.2 * (1 / o.length) +
      (p.1 - mean o.xs) * p.2 * ((x - mean o.xs) / spread o.xs) := by
    intro p
    rw [leverage, xs, List.length_map]
    ring
  have total : (o.map fun p => p.2).sum = o.ys.sum := rfl
  rw [predict?_of_slope (slope?_eq spreads several)]
  simp only [apart, List.sum_map_add, List.sum_map_mul_right, ← sxy_eq, total]
  rw [mean_eq o.ys, ys, List.length_map]
  congr 1
  ring

theorem predict?_of_straight (several : 2 ≤ o.length) {base rate : α}
    (straight : ∀ p ∈ o, p.2 = base + rate * p.1) (x : α) :
    predict? o x = some (base + rate * x) := by
  have some : o.xs ≠ [] := by
    rw [xs, Ne, List.map_eq_nil_iff]
    exact List.ne_nil_of_length_pos (by omega)
  have values : (o.map fun p => p.2 * leverage o.xs p.1 x) = o.xs.map fun b =>
      base * leverage o.xs b x + rate * (b * leverage o.xs b x) := by
    rw [xs, List.map_map]
    refine List.map_congr_left ?_
    intro p hp
    rw [straight p hp, Function.comp_apply]
    ring
  rw [predict?_eq spreads several, values, List.sum_map_add, List.sum_map_mul_left,
    List.sum_map_mul_left, sum_leverage o.xs some, sum_mul_leverage o.xs some spreads, mul_one]

theorem predict?_of_level (several : 2 ≤ o.length) {level : α} (flat : ∀ p ∈ o, p.2 = level)
    (x : α) :
    predict? o x = some level := by
  have straight : ∀ p ∈ o, p.2 = level + 0 * p.1 := by
    intro p hp
    rw [flat p hp, zero_mul, add_zero]
  rw [predict?_of_straight spreads several straight x, zero_mul, add_zero]

theorem predict?_of_bump (several : 2 ≤ o.length) (distinct : o.xs.Nodup) {level deviation b : α}
    (hb : b ∈ o.xs) (bump : ∀ p ∈ o, p.2 = if p.1 = b then level + deviation else level) (x : α) :
    predict? o x = some (level + deviation * leverage o.xs b x) := by
  have values : (o.map fun p => p.2 * leverage o.xs p.1 x) = o.xs.map fun e =>
      if e = b then (level + deviation) * leverage o.xs e x else level * leverage o.xs e x := by
    rw [xs, List.map_map]
    refine List.map_congr_left ?_
    intro p hp
    rw [bump p hp, ite_mul]
    rfl
  rw [predict?_eq spreads several, values, sum_map_ite_of_mem distinct hb, List.sum_map_mul_left,
    sum_leverage o.xs (List.ne_nil_of_mem hb)]
  congr 1
  ring

end Values

section Steps

theorem leverage_perm {xs ys : List α} (h : xs.Perm ys) : leverage xs = leverage ys := by
  funext b x
  rw [leverage, leverage, mean_perm h, spread_perm h, h.length_eq]

/-- So many abscissas, the first one a step from zero. -/
def steps (step : α) (n : Nat) : List α := (List.range n).map fun j : Nat => step * (j + 1)

variable (step : α) (n : Nat)

theorem steps_succ : steps step (n + 1) = steps step n ++ [step * (n + 1)] := by
  rw [steps, List.range_succ, List.map_append]
  rfl

theorem length_steps : (steps step n).length = n := by
  rw [steps, List.length_map, List.length_range]

theorem sum_steps : (steps step n).sum = step * (n * (n + 1) / 2) := by
  induction n with
  | zero => simp [steps]
  | succ n ih =>
    rw [steps_succ, List.sum_append, List.sum_singleton, ih]
    push_cast
    ring

theorem sum_sq_steps :
    ((steps step n).map (· ^ 2)).sum = step ^ 2 * (n * (n + 1) * (2 * n + 1) / 6) := by
  induction n with
  | zero => simp [steps]
  | succ n ih =>
    rw [steps_succ, List.map_append, List.sum_append, List.map_singleton, List.sum_singleton, ih]
    push_cast
    ring

theorem mean_steps (some : n ≠ 0) : mean (steps step n) = step * (n + 1) / 2 := by
  have some : (n : α) ≠ 0 := Nat.cast_ne_zero.mpr some
  rw [mean_eq, sum_steps, length_steps]
  field_simp

theorem spread_steps (some : n ≠ 0) :
    spread (steps step n) = step ^ 2 * (n * (n - 1) * (n + 1) / 12) := by
  rw [spread_eq, sum_sq_steps, sum_steps, mean_steps step n some]
  ring

variable {step n}

theorem leverage_steps (moves : step ≠ 0) (several : 2 ≤ n) (j : Nat) :
    leverage (steps step n) (step * (j + 1)) 0 = (4 * (n - 1) - 6 * j) / (n * (n - 1)) := by
  have some : (n : α) ≠ 0 := Nat.cast_ne_zero.mpr (by omega)
  have more : (n : α) + 1 ≠ 0 := Nat.cast_add_one_ne_zero n
  have less : (n : α) - 1 ≠ 0 := by
    have : (n : α) ≠ 1 := Nat.cast_ne_one.mpr (by omega)
    exact sub_ne_zero.mpr this
  rw [leverage, length_steps, mean_steps step n (by omega), spread_steps step n (by omega)]
  field_simp
  ring

theorem abs_leverage_steps_le_one (moves : step ≠ 0) (four : 4 ≤ n) {j : Nat} (hj : j < n) :
    |leverage (steps step n) (step * (j + 1)) 0| ≤ 1 := by
  have size : (4 : α) ≤ n := by exact_mod_cast four
  have last : (j : α) + 1 ≤ n := by exact_mod_cast hj
  have first : (0 : α) ≤ j := Nat.cast_nonneg j
  have positive : (0 : α) < n * (n - 1) := by
    apply mul_pos
    · linarith
    · linarith
  have product := mul_le_mul_of_nonneg_right size (show (0 : α) ≤ n - 1 by linarith)
  rw [leverage_steps moves (by omega), abs_div, abs_of_pos positive, div_le_one positive, abs_le]
  constructor
  · linarith
  · linarith

end Steps

end AirTraffic.Observations
