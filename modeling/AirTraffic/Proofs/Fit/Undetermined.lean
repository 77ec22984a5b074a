import AirTraffic.Proofs.Fit.Residuals
import AirTraffic.Proofs.Scalar.Extended
import AirTraffic.Scalar.Floating

/-!
# Observations that determine no line

Where zero divided by zero is no number, observations at one abscissa determine no line: slope,
intercept, value and share are undefined. The variance of the residuals is not, since the greater of
zero and what is no number is zero. So no variance is left over from a perfect fit, and from none.
-/
namespace AirTraffic.Observations

open Scalar

variable {α : Type} [ExactScalar α]

/-- The same observations, where what is no number can be told from a number. -/
def extended (o : Observations α) : Observations (Extended α) :=
  o.map fun p => (.number p.1, .number p.2)

section Sums

variable {o : Observations α}

omit [ExactScalar α] in
theorem length_extended : o.extended.length = o.length := List.length_map _

omit [ExactScalar α] in
theorem xs_extended : o.extended.xs = o.xs.map .number := by
  rw [xs, xs, extended, List.map_map, List.map_map]
  rfl

omit [ExactScalar α] in
theorem ys_extended : o.extended.ys = o.ys.map .number := by
  rw [ys, ys, extended, List.map_map, List.map_map]
  rfl

theorem deviations_number {values : List α} (some : values ≠ []) :
    deviations (values.map Extended.number) = (deviations values).map .number := by
  rw [deviations, deviations, Extended.mean_number some, List.map_map, List.map_map]
  exact List.map_congr_left fun x _ => Extended.number_sub x _

variable (some : o ≠ [])

include some

theorem means_extended :
    mean o.extended.xs = .number (mean o.xs) ∧ mean o.extended.ys = .number (mean o.ys) := by
  rw [xs_extended, ys_extended]
  exact ⟨Extended.mean_number (mt List.map_eq_nil_iff.mp some),
    Extended.mean_number (mt List.map_eq_nil_iff.mp some)⟩

theorem sums_extended : sxx o.extended = .number (sxx o) ∧ syy o.extended = .number (syy o) ∧
    sxy o.extended = .number (sxy o) := by
  have hxs : deviations o.extended.xs = (deviations o.xs).map .number := by
    rw [xs_extended]
    exact deviations_number (mt List.map_eq_nil_iff.mp some)
  have hys : deviations o.extended.ys = (deviations o.ys).map .number := by
    rw [ys_extended]
    exact deviations_number (mt List.map_eq_nil_iff.mp some)
  simp only [sxx, syy, sxy, hxs, hys, Extended.dot_number, and_self]

end Sums

variable {o : Observations α}

theorem freedom_eq (n : Nat) :
    (ofInt n - ofInt 2 : Extended α) = .number ((n : α) - 2) := by
  rw [Extended.ofInt_eq, Extended.ofInt_eq, Extended.number_sub, Int.cast_natCast, Int.cast_ofNat]

/-- Nothing is asked of these observations that zero divided by zero is an answer to. -/
structure Determined (o : Observations α) : Prop where
  slope : slope? o.extended = (slope? o).map .number
  intercept : intercept? o.extended = (intercept? o).map .number
  predicted : ∀ x, predict? o.extended (.number x) = (predict? o x).map .number
  explained : explained? o.extended = (explained? o).map .number
  residualVariance : residualVariance? o.extended = (residualVariance? o).map .number

theorem determined_of_spread (several : 2 ≤ o.length) (spreads : sxx o ≠ 0) : o.Determined := by
  have some : o ≠ [] := List.ne_nil_of_length_pos (by omega)
  have few : ¬o.length < 2 := Nat.not_lt.mpr several
  obtain ⟨xs_mean, ys_mean⟩ := means_extended some
  obtain ⟨xx, yy, xy⟩ := sums_extended some
  have rate : (Extended.number (sxy o) / Extended.number (sxx o)) = .number (sxy o / sxx o) :=
    Extended.number_div _ spreads
  have slope : slope? o.extended = (slope? o).map .number := by
    simp [slope?, length_extended, few, xx, xy, Extended.number_beq_iff, spreads, rate]
  have intercept : intercept? o.extended = (intercept? o).map .number := by
    simp [intercept?, length_extended, few, xx, xy, xs_mean, ys_mean, rate]
  have part : (Extended.number (sxy o * sxy o) / Extended.number (sxx o)) =
      .number (sxy o * sxy o / sxx o) := Extended.number_div _ spreads
  constructor
  · exact slope
  · exact intercept
  · intro x
    rw [predict?, predict?, slope, intercept]
    cases intercept? o with
    | none => rfl
    | some b => cases slope? o <;> rfl
  · by_cases varies : syy o = 0
    · simp [explained?, length_extended, xx, yy, Extended.number_beq_iff, varies]
    · simp [explained?, length_extended, few, xx, yy, xy, Extended.number_beq_iff, spreads, varies,
        part, Extended.number_div]
  · by_cases enough : o.length < 3
    · simp [residualVariance?, length_extended, enough]
    · have freedom := freedom_ne_zero (Nat.not_lt.mp enough)
      simp [residualVariance?, length_extended, enough, xx, yy, xy, part, freedom_eq,
        Extended.greatest_number, Extended.number_div _ freedom]

/-- Of a line through these observations nothing is a number. -/
structure Undetermined (o : Observations (Extended α)) : Prop where
  slope : slope? o = none
  intercept : intercept? o = some .notANumber
  predicted : ∀ x, predict? o x = none
  explained : explained? o = none

section Upright

variable (upright : sxx o = 0)

include upright

theorem sxy_of_upright : sxy o = 0 := by
  rw [sxx_eq] at upright
  rw [sxy_eq]
  refine List.sum_eq_zero (List.forall_mem_map.mpr fun p hp => ?_)
  rw [eq_mean_of_spread upright p.1 (List.mem_map_of_mem hp), sub_self, zero_mul]

theorem undetermined_of_upright (several : 2 ≤ o.length) : o.extended.Undetermined := by
  have some : o ≠ [] := List.ne_nil_of_length_pos (by omega)
  have few : ¬o.length < 2 := Nat.not_lt.mpr several
  obtain ⟨xs_mean, ys_mean⟩ := means_extended some
  obtain ⟨xx, yy, xy⟩ := sums_extended some
  rw [upright] at xx
  rw [sxy_of_upright upright] at xy
  have slope : slope? o.extended = none := by
    simp [slope?, xx, Extended.number_beq_iff]
  constructor
  · exact slope
  · simp [intercept?, length_extended, few, xx, xy, xs_mean, ys_mean]
  · intro x
    rw [predict?, slope]
    cases intercept? o.extended <;> rfl
  · simp [explained?, xx, Extended.number_beq_iff]

theorem residualVariance?_of_upright (enough : 3 ≤ o.length) :
    residualVariance? o.extended = some (.number 0) := by
  have few : ¬o.length < 3 := Nat.not_lt.mpr enough
  obtain ⟨xx, yy, xy⟩ := sums_extended (List.ne_nil_of_length_pos (by omega) : o ≠ [])
  rw [upright] at xx
  rw [sxy_of_upright upright] at xy
  simp [residualVariance?, length_extended, few, xx, yy, xy, freedom_eq,
    Extended.greatest_notANumber, Extended.number_div _ (freedom_ne_zero enough)]

end Upright

/-- Of observations at different abscissas no variance is left over just if they lie on a line. Of
observations at one abscissa none is left over ever, though nothing else is known of their line. -/
theorem variance_left_over (enough : 3 ≤ o.length) :
    (Varies o.xs → o.Determined ∧ (residualVariance? o.extended = some (.number 0) ↔
      ∃ base rate, ∀ p ∈ o, p.2 = base + rate * p.1)) ∧
    (¬Varies o.xs → o.extended.Undetermined ∧ residualVariance? o.extended = some (.number 0)) := by
  have several : 2 ≤ o.length := by omega
  have spreads : Varies o.xs ↔ sxx o ≠ 0 := by rw [sxx_eq, varies_iff]
  constructor
  · intro vary
    have determined := determined_of_spread several (spreads.mp vary)
    refine ⟨determined, ?_⟩
    rw [determined.residualVariance, residualVariance?_eq (spreads.mp vary) enough, Option.map_some,
      Option.some_inj, Extended.number.injEq, div_eq_zero_iff, or_iff_left (freedom_ne_zero enough)]
    exact leastResidual_eq_zero_iff (spreads.mp vary)
  · intro same
    have upright := not_not.mp (mt spreads.mpr same)
    exact ⟨undetermined_of_upright upright several, residualVariance?_of_upright upright enough⟩

def threeStacked : Observations ℚ := [(1, 1), (1, 2), (1, 3)]

theorem fiveRising_and_threeStacked_left_over :
    (3 ≤ fiveRising.length ∧ fiveRising.Determined ∧
      residualVariance? fiveRising.extended = some (.number (6 / 5))) ∧
    3 ≤ threeStacked.length ∧ threeStacked.extended.Undetermined ∧
      residualVariance? threeStacked.extended = some (.number 0) := by
  have rising : 3 ≤ fiveRising.length := by decide
  have stacked : 3 ≤ threeStacked.length := by decide
  obtain ⟨determined, -⟩ := (variance_left_over rising).1 (by decide +kernel)
  exact ⟨⟨rising, determined, by decide +kernel⟩, stacked,
    (variance_left_over stacked).2 (by decide +kernel)⟩

/-- On no line, and yet without residuals, in exact and in floating-point numbers. -/
theorem threeStacked_leave_nothing :
    3 ≤ threeStacked.length ∧ ¬Varies threeStacked.xs ∧ Varies threeStacked.ys ∧
      (¬∃ base rate, ∀ p ∈ threeStacked, p.2 = base + rate * p.1) ∧
      residualVariance? threeStacked.extended = some (.number 0) ∧
      (residualVariance? ([(1, 1), (1, 2), (1, 3)] : Observations Float)).any (· == 0) := by
  have off : ¬∃ base rate, ∀ p ∈ threeStacked, p.2 = base + rate * p.1 := by
    rintro ⟨base, rate, through⟩
    have first : (1 : ℚ) = base + rate * 1 := through (1, 1) (by decide)
    have second : (2 : ℚ) = base + rate * 1 := through (1, 2) (by decide)
    linarith
  exact ⟨by decide, by decide +kernel, by decide +kernel, off, by decide +kernel, by decide +kernel⟩

end AirTraffic.Observations
