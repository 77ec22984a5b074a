import AirTraffic.Proofs.Encounter.Minimum
import AirTraffic.Proofs.Scalar.Rounding

/-!
# When a separation would reach zero

A separation that is nowhere negative and shrinks would reach zero only later. The time found is
rounded to milliseconds, so at the same rate no more is left after it than closes in half a
millisecond, unless the time is longer than 64 bits can hold.
-/
namespace AirTraffic

open Scalar

variable {α : Type} [ExactScalar α]

namespace SeparationProfile

/-- No sample is negative, as none is that is taken of two tracks. -/
def Nonnegative (p : SeparationProfile α) : Prop :=
  ∀ s ∈ p.samples, 0 ≤ s.horizontalNm ∧ 0 ≤ s.verticalFt

/-- How a separation of one value and one rate of descent would come to zero: after which time, with
what left then, and at which other separation. -/
structure Closing (value rate : α) (ms? : Option Int)
    (after : Int → Except (SeparationError α) α) (other? : Option α) : Prop where
  closes : ms?.isSome ↔ 0 < rate
  ahead : ∀ ms ∈ ms?, 0 ≤ ms
  predicted : ∀ ms ∈ ms?, ∃ left, after ms = .ok left ∧
    (value / rate < 2 ^ 63 - 1 / 2 → left ≤ rate / 2)
  held : ∀ ms ∈ ms?, 2 ^ 63 - 1 / 2 ≤ value / rate → ms = 2 ^ 63 - 1
  other : other?.isSome ↔ ms?.isSome

variable {p : SeparationProfile α} {t : Int} {value rate : α}

theorem Nonnegative.on (h : p.Nonnegative) {s : Separation α} (hs : s ∈ p.samples) (axis : Axis) :
    0 ≤ s.on axis := by
  cases axis with
  | horizontal => exact (h s hs).1
  | vertical => exact (h s hs).2

theorem Nonnegative.exists_valueAt (h : p.Nonnegative) (inside : p.span.contains t) (axis : Axis) :
    ∃ value, p.valueAt (p.line axis) t = .ok value ∧ 0 ≤ value := by
  obtain ⟨earlier, s, q, later, cut, after, before, -⟩ := exists_segment inside
  have start := h.on (start_mem cut) axis
  have stop := h.on (stop_mem cut) axis
  exact ⟨_, valueAt_between cut after before axis,
    Polyline.le_between (neighbours_lt cut) after before start stop⟩

variable [ExactRounding α]

theorem left_le (hvalue : 0 ≤ value) (falling : 0 < rate) (fits : value / rate < 2 ^ 63 - 1 / 2) :
    |value - rate * ofInt (truncate (round (value / rate)))| ≤ rate / 2 := by
  have close := ExactRounding.abs_sub_truncate_round_le (div_nonneg hvalue falling.le) fits
  have product : value - rate * ((truncate (round (value / rate)) : ℤ) : α) =
      rate * (value / rate - ((truncate (round (value / rate)) : ℤ) : α)) := by
    rw [mul_sub, mul_div_cancel₀ value falling.ne']
  rw [ExactScalar.ofInt_eq, product, abs_mul, abs_of_pos falling]
  calc rate * |value / rate - ((truncate (round (value / rate)) : ℤ) : α)|
      ≤ rate * (1 / 2) := mul_le_mul_of_nonneg_left close falling.le
    _ = rate / 2 := by rw [mul_one_div]

theorem exists_closing (h : p.Nonnegative) (inside : p.span.contains t) (axis : Axis) :
    ∃ value rate ms? other?, p.valueAt (p.line axis) t = .ok value ∧
      p.closureAt (p.line axis) t = .ok rate ∧ p.untilZero (p.line axis) t = .ok ms? ∧
      p.otherAtZero t axis = .ok other? ∧
      Closing value rate ms? (p.extrapolate (p.line axis) t) other? := by
  obtain ⟨value, hvalue, nonneg⟩ := h.exists_valueAt inside axis
  obtain ⟨rate, hrate⟩ := exists_closureAt_of_contains inside axis
  have huntil := untilZero_of_read hvalue hrate
  rw [ExactScalar.zero_eq] at huntil
  by_cases falling : 0 < rate
  · rw [if_pos falling] at huntil
    have ahead := ExactRounding.truncate_round_nonneg (div_nonneg nonneg falling.le)
    obtain ⟨other, hother⟩ := exists_otherAtZero inside huntil ahead
    refine ⟨value, rate, _, _, hvalue, hrate, huntil, hother, ?_⟩
    have predicted := extrapolate_of_read ahead hvalue hrate
    rw [ExactScalar.abs_eq] at predicted
    constructor
    case closes => simp [falling]
    case ahead =>
      rintro ms ⟨⟩
      exact ahead
    case predicted =>
      rintro ms ⟨⟩
      exact ⟨_, predicted, left_le nonneg falling⟩
    case held =>
      rintro ms ⟨⟩
      exact ExactRounding.truncate_round_of_le
    case other => simp
  · rw [if_neg falling] at huntil
    refine ⟨value, rate, none, none, hvalue, hrate, huntil, otherAtZero_of_none huntil, ?_⟩
    constructor
    case closes => simp [falling]
    case ahead => exact fun _ found => absurd found (Option.not_mem_none _)
    case predicted => exact fun _ found => absurd found (Option.not_mem_none _)
    case held => exact fun _ found => absurd found (Option.not_mem_none _)
    case other => exact Iff.rfl

/-- A separation that shrinks has a time at which it would be gone, and the other separation can be
told for that time. -/
theorem closing_times_are_predictions (h : p.Nonnegative) (inside : p.span.contains t) :
    (∃ value rate ms? other?, p.horizontalAt t = .ok value ∧
      p.closureAt p.horizontal t = .ok rate ∧ p.untilHorizontalZero t = .ok ms? ∧
      p.verticalAtHorizontalZero t = .ok other? ∧
      Closing value rate ms? (p.horizontalAfter t) other?) ∧
    ∃ value rate ms? other?, p.verticalAt t = .ok value ∧
      p.closureAt p.vertical t = .ok rate ∧ p.untilVerticalZero t = .ok ms? ∧
      p.horizontalAtVerticalZero t = .ok other? ∧
      Closing value rate ms? (p.verticalAfter t) other? :=
  ⟨exists_closing h inside .horizontal, exists_closing h inside .vertical⟩

/-- Both separations of the four samples shrink between the first and the second. -/
theorem fourSamples_close : ∃ value rate ms? other?, fourSamples.verticalAt 5000 = .ok value ∧
    fourSamples.closureAt fourSamples.vertical 5000 = .ok rate ∧
    fourSamples.untilVerticalZero 5000 = .ok ms? ∧
    fourSamples.horizontalAtVerticalZero 5000 = .ok other? ∧
    Closing value rate ms? (fourSamples.verticalAfter 5000) other? := by
  have nonnegative : fourSamples.Nonnegative := by
    unfold Nonnegative fourSamples samples
    norm_num
  exact (closing_times_are_predictions nonnegative (by decide)).2

def slowDescent : SeparationProfile ℚ where
  first := ⟨0, 5, 10000⟩
  rest := [⟨10 ^ 15, 5, 9999⟩]
  rest_ne_nil := by decide
  increasing := by decide

/-- At that rate it would take more milliseconds than 64 bits can hold. After the most that they
can, hundreds of feet are left. -/
theorem slowDescent_far_from_zero : slowDescent.Nonnegative ∧ slowDescent.span.contains 0 ∧
    ∃ rate left, slowDescent.closureAt slowDescent.vertical 0 = .ok rate ∧
      slowDescent.untilVerticalZero 0 = .ok (some (2 ^ 63 - 1)) ∧
      slowDescent.verticalAfter 0 (2 ^ 63 - 1) = .ok left ∧ ¬left ≤ rate / 2 := by
  have value : slowDescent.verticalAt 0 = .ok 10000 :=
    slowDescent.valueAt_sample (·.verticalFt) (s := slowDescent.first) List.mem_cons_self
  have rate : slowDescent.closureAt slowDescent.vertical 0 =
      .ok (Polyline.descent (0, 10000) (10 ^ 15, 9999)) :=
    have cut : slowDescent.samples = [] ++ slowDescent.first :: slowDescent.last :: [] := rfl
    closureAt_of_cut cut (by decide) (by decide) (Or.inr rfl) .vertical
  have slow : Polyline.descent (α := ℚ) (0, 10000) (10 ^ 15, 9999) = 1 / 10 ^ 15 := by
    norm_num [Polyline.descent]
  rw [slow] at rate
  have beyond : truncate (Scalar.round ((10000 : ℚ) / (1 / 10 ^ 15))) = 2 ^ 63 - 1 :=
    ExactRounding.truncate_round_of_le (by norm_num)
  have time := untilZero_of_read value rate
  rw [ExactScalar.zero_eq, if_pos (by norm_num), beyond] at time
  refine ⟨?_, by decide, _, _, rate, time, extrapolate_of_read (by decide) value rate, ?_⟩
  · unfold Nonnegative slowDescent samples
    norm_num
  · rw [ExactScalar.abs_eq, ExactScalar.ofInt_eq]
    norm_num

end SeparationProfile

end AirTraffic
