import AirTraffic.Proofs.Fit.Quality

/-!
# The line of least squares

What observations leave over from a line comes down to three sums about their means and to how far
the line passes from the middle of them. Completing the square finds the one line that leaves least
of all, and how much of the variance it explains: a share, from nothing to all of it.
-/
namespace AirTraffic.Observations

open Scalar

variable {α : Type} [ExactScalar α]

/-- Not all the same. -/
def Varies (values : List α) : Prop := ∃ a ∈ values, ∃ b ∈ values, a ≠ b

instance (values : List α) : Decidable (Varies values) :=
  inferInstanceAs (Decidable (∃ a ∈ values, ∃ b ∈ values, a ≠ b))

theorem varies_iff {values : List α} : Varies values ↔ spread values ≠ 0 := by
  constructor
  · rintro ⟨a, ha, b, hb, different⟩ none
    exact different ((eq_mean_of_spread none a ha).trans (eq_mean_of_spread none b hb).symm)
  · intro spreads
    by_contra same
    refine spreads ?_
    match values with
    | [] => rfl
    | level :: rest =>
      have flat : ∀ y ∈ level :: rest, y = level := by
        intro y hy
        by_contra different
        exact same ⟨y, hy, level, List.mem_cons_self, different⟩
      exact spread_of_level flat

variable {o : Observations α}

omit [ExactScalar α] in
theorem several_of_varies (vary : Varies o.xs) : 2 ≤ o.length := by
  obtain ⟨a, ha, b, hb, different⟩ := vary
  match o with
  | [] => cases ha
  | [p] => exact absurd ((List.mem_singleton.mp ha).trans (List.mem_singleton.mp hb).symm) different
  | _ :: _ :: _ => exact Nat.le_add_left 2 _

/-- Sum of the squared residuals of a line. -/
def residual (o : Observations α) (base rate : α) : α :=
  (o.map fun p => (p.2 - (base + rate * p.1)) ^ 2).sum

theorem residual_nonneg (base rate : α) : 0 ≤ residual o base rate := sum_sq_nonneg _ _

theorem residual_eq_zero_iff {base rate : α} :
    residual o base rate = 0 ↔ ∀ p ∈ o, p.2 = base + rate * p.1 := by
  rw [residual, sum_sq_eq_zero_iff]
  exact forall₂_congr fun _ _ => sub_eq_zero

theorem residual_eq (base rate : α) : residual o base rate =
    syy o - 2 * rate * sxy o + rate ^ 2 * sxx o +
      o.length * (mean o.ys - (base + rate * mean o.xs)) ^ 2 := by
  obtain ⟨miss, hmiss⟩ : ∃ miss, miss = mean o.ys - (base + rate * mean o.xs) := ⟨_, rfl⟩
  have apart (p : α × α) : (p.2 - (base + rate * p.1)) ^ 2 = (p.2 - mean o.ys) ^ 2 +
      ((p.1 - mean o.xs) * (p.2 - mean o.ys) * (-2 * rate) + ((p.1 - mean o.xs) ^ 2 * rate ^ 2 +
        ((p.2 - mean o.ys) * (2 * miss) +
          ((p.1 - mean o.xs) * (-2 * rate * miss) + miss ^ 2)))) := by
    rw [hmiss]
    ring
  have xs_balanced : (o.map fun p => p.1 - mean o.xs).sum = 0 := by
    have := sum_deviations o.xs
    rwa [xs, List.map_map] at this
  have ys_balanced : (o.map fun p => p.2 - mean o.ys).sum = 0 := by
    have := sum_deviations o.ys
    rwa [ys, List.map_map] at this
  have xs_spread : (o.map fun p => (p.1 - mean o.xs) ^ 2).sum = sxx o := by
    rw [sxx_eq, spread, xs, List.map_map]
    rfl
  have ys_spread : (o.map fun p => (p.2 - mean o.ys) ^ 2).sum = syy o := by
    rw [syy_eq, spread, ys, List.map_map]
    rfl
  simp only [residual, apart, List.sum_map_add, List.sum_map_mul_right, xs_balanced, ys_balanced,
    xs_spread, ys_spread, ← sxy_eq_sum, List.map_const', List.sum_replicate, nsmul_eq_mul, ← hmiss]
  ring

/-- What is left over at least. -/
def leastResidual (o : Observations α) : α := syy o - sxy o * sxy o / sxx o

section Least

variable (spreads : sxx o ≠ 0)

include spreads

theorem residual_eq_least_add (base rate : α) : residual o base rate = leastResidual o +
    (sxx o * (rate - sxy o / sxx o) ^ 2 +
      o.length * (mean o.ys - (base + rate * mean o.xs)) ^ 2) := by
  rw [residual_eq, leastResidual]
  field_simp
  ring

theorem leastResidual_le (base rate : α) : leastResidual o ≤ residual o base rate := by
  have wide : 0 ≤ sxx o := by
    rw [sxx_eq]
    exact spread_nonneg o.xs
  rw [residual_eq_least_add spreads]
  exact le_add_of_nonneg_right (add_nonneg (mul_nonneg wide (sq_nonneg _))
    (mul_nonneg (Nat.cast_nonneg _) (sq_nonneg _)))

/-- The least is left over by the line through the middle that is as steep as the regression. -/
theorem residual_of_regression :
    residual o (mean o.ys - sxy o / sxx o * mean o.xs) (sxy o / sxx o) = leastResidual o := by
  rw [residual_eq_least_add spreads]
  ring

theorem leastResidual_nonneg : 0 ≤ leastResidual o := by
  rw [← residual_of_regression spreads]
  exact residual_nonneg _ _

theorem leastResidual_eq_zero_iff :
    leastResidual o = 0 ↔ ∃ base rate, ∀ p ∈ o, p.2 = base + rate * p.1 := by
  constructor
  · intro none
    exact ⟨_, _, residual_eq_zero_iff.mp ((residual_of_regression spreads).trans none)⟩
  · rintro ⟨base, rate, through⟩
    refine le_antisymm ?_ (leastResidual_nonneg spreads)
    exact (leastResidual_le spreads base rate).trans_eq (residual_eq_zero_iff.mpr through)

end Least

theorem explained?_eq (several : 2 ≤ o.length) (spreads : sxx o ≠ 0) (varies : syy o ≠ 0) :
    explained? o = some (1 - leastResidual o / syy o) := by
  have few : ¬o.length < 2 := Nat.not_lt.mpr several
  have share : sxy o * sxy o / sxx o / syy o = 1 - leastResidual o / syy o := by
    rw [leastResidual]
    field_simp
    ring
  simp [explained?, few, spreads, varies, share]

theorem share_mem (spreads : sxx o ≠ 0) (varies : syy o ≠ 0) :
    0 ≤ 1 - leastResidual o / syy o ∧ 1 - leastResidual o / syy o ≤ 1 := by
  have positive : 0 < syy o := by
    rw [syy_eq] at varies ⊢
    exact (spread_nonneg o.ys).lt_of_ne' varies
  have level : residual o (mean o.ys) 0 = syy o := by
    rw [residual_eq]
    ring
  have part := leastResidual_le spreads (mean o.ys) 0
  constructor
  · rwa [sub_nonneg, div_le_one positive, ← level]
  · exact sub_le_self 1 (div_nonneg (leastResidual_nonneg spreads) positive.le)

theorem fitQuality_mem (o : Observations α) : 0 ≤ fitQuality o ∧ fitQuality o ≤ 1 := by
  by_cases unclear : o.length < 2 ∨ (sxx o == zero) ∨ (syy o == zero)
  · have none : explained? o = none := if_pos unclear
    simp [fitQuality, none]
  · obtain ⟨several, spreads, varies⟩ := by simpa only [not_or] using unclear
    rw [ExactScalar.zero_eq, beq_iff_eq] at spreads varies
    have share := explained?_eq (Nat.not_lt.mp several) spreads varies
    simpa [fitQuality, share] using share_mem spreads varies

/-- Nothing that is asked of two sets of observations tells them apart. -/
structure SameFit (o o' : Observations α) : Prop where
  slope : slope? o = slope? o'
  intercept : intercept? o = intercept? o'
  predicted : ∀ x, predict? o x = predict? o' x
  explained : explained? o = explained? o'
  residualVariance : residualVariance? o = residualVariance? o'
  fitQuality : fitQuality o = fitQuality o'
  residual : ∀ base rate, residual o base rate = residual o' base rate

theorem sameFit_of_perm {o o' : Observations α} (h : o.Perm o') : SameFit o o' := by
  have xs_perm : o.xs.Perm o'.xs := h.map _
  have ys_perm : o.ys.Perm o'.ys := h.map _
  have length := h.length_eq
  have xs_mean := mean_perm xs_perm
  have ys_mean := mean_perm ys_perm
  have xx : sxx o = sxx o' := by rw [sxx_eq, sxx_eq, spread_perm xs_perm]
  have yy : syy o = syy o' := by rw [syy_eq, syy_eq, spread_perm ys_perm]
  have xy : sxy o = sxy o' := by
    rw [sxy_eq, sxy_eq, xs_mean]
    exact (h.map _).sum_eq
  have slope : slope? o = slope? o' := by rw [slope?, slope?, length, xx, xy]
  have intercept : intercept? o = intercept? o' := by
    rw [intercept?, intercept?, length, xx, xy, xs_mean, ys_mean]
  have explained : explained? o = explained? o' := by
    rw [explained?, explained?, length, xx, yy, xy]
  constructor
  · exact slope
  · exact intercept
  · intro x
    rw [predict?, predict?, slope, intercept]
  · exact explained
  · rw [residualVariance?, residualVariance?, length, xx, yy, xy]
  · rw [fitQuality, fitQuality, explained]
  · exact fun base rate => (h.map _).sum_eq

/-- The line of these observations, and what is said of it. -/
structure LeastSquares (o : Observations α) (base rate : α) : Prop where
  slope : slope? o = some rate
  intercept : intercept? o = some base
  predicted : ∀ x, predict? o x = some (base + rate * x)
  optimal : ∀ a b, residual o base rate ≤ residual o a b
  explained : Varies o.ys → ∃ share, explained? o = some share ∧
    share = 1 - residual o base rate / spread o.ys ∧ 0 ≤ share ∧ share ≤ 1
  variance : 3 ≤ o.length → ∃ v, residualVariance? o = some v ∧
    v * (o.length - 2) = residual o base rate

theorem freedom_ne_zero (enough : 3 ≤ o.length) : (o.length : α) - 2 ≠ 0 := by
  have : (o.length : α) ≠ 2 := by exact_mod_cast (by omega : o.length ≠ 2)
  exact sub_ne_zero.mpr this

theorem residualVariance?_eq (spreads : sxx o ≠ 0) (enough : 3 ≤ o.length) :
    residualVariance? o = some (leastResidual o / (o.length - 2)) := by
  have most : greatest (syy o - sxy o * sxy o / sxx o) zero = leastResidual o := by
    rw [ExactScalar.greatest_eq, ExactScalar.zero_eq]
    exact max_eq_left (leastResidual_nonneg spreads)
  rw [residualVariance?, if_neg (by omega), most, ExactScalar.ofInt_eq, ExactScalar.ofInt_eq,
    Int.cast_natCast, Int.cast_ofNat]

theorem leastSquares_of_varies (vary : Varies o.xs) :
    LeastSquares o (mean o.ys - sxy o / sxx o * mean o.xs) (sxy o / sxx o) := by
  have several := several_of_varies vary
  have spreads : sxx o ≠ 0 := by
    rw [sxx_eq]
    exact varies_iff.mp vary
  have slope : slope? o = some (sxy o / sxx o) := by
    rw [sxx_eq]
    exact slope?_eq (varies_iff.mp vary) several
  have least := residual_of_regression spreads
  constructor
  · exact slope
  · exact if_neg (by omega)
  · intro x
    rw [predict?_of_slope slope]
    congr 1
    ring
  · intro a b
    rw [least]
    exact leastResidual_le spreads a b
  · intro ys_vary
    have varies : syy o ≠ 0 := by
      rw [syy_eq]
      exact varies_iff.mp ys_vary
    refine ⟨_, explained?_eq several spreads varies, ?_, share_mem spreads varies⟩
    rw [least, syy_eq]
  · intro enough
    refine ⟨_, residualVariance?_eq spreads enough, ?_⟩
    rw [least, div_mul_cancel₀ _ (freedom_ne_zero enough)]

/-- Of all lines the regression leaves the least over, wherever there is one. How well it fits is a
share at all times, and nothing depends on the order of the observations. -/
theorem regression_leaves_least (o : Observations α) :
    (0 ≤ fitQuality o ∧ fitQuality o ≤ 1) ∧ (∀ o', o.Perm o' → SameFit o o') ∧
      (Varies o.xs → ∃ base rate, LeastSquares o base rate) := by
  refine ⟨fitQuality_mem o, ?_, ?_⟩
  · intro o' perm
    exact sameFit_of_perm perm
  · intro vary
    exact ⟨_, _, leastSquares_of_varies vary⟩

def fiveRising : Observations ℚ := [(0, 1), (1, 3), (2, 2), (3, 5), (4, 4)]

theorem fiveRising_fitted : Varies fiveRising.xs ∧ SameFit fiveRising fiveRising.reverse ∧
    LeastSquares fiveRising (7 / 5) (4 / 5) ∧ residual fiveRising (7 / 5) (4 / 5) = 18 / 5 := by
  obtain ⟨-, ordered, fitted⟩ := regression_leaves_least fiveRising
  have vary : Varies fiveRising.xs := by decide +kernel
  obtain ⟨base, rate, line⟩ := fitted vary
  have through : intercept? fiveRising = some (7 / 5) := by decide +kernel
  have steep : slope? fiveRising = some (4 / 5) := by decide +kernel
  obtain rfl := Option.some.inj (through.symm.trans line.intercept)
  obtain rfl := Option.some.inj (steep.symm.trans line.slope)
  exact ⟨vary, ordered _ (List.reverse_perm _).symm, line, by decide +kernel⟩

end AirTraffic.Observations
