import Mathlib.Tactic.Simps.Basic
import AirTraffic.Proofs.Cleaning.Spacing

/-!
# Reports and tracks at another time

What a shift of the clock does to reports, tracks, spans of time and broken lines. Only differences
and comparisons of times are used throughout, and a shift changes neither.
-/
namespace AirTraffic

variable {α ρ : Type}

namespace Report

@[simps] def shift (ms : Int) (r : Report α ρ) : Report α ρ := { r with time := r.time + ms }

variable (ms : Int) (r q : Report α ρ)

theorem times_shift (reports : List (Report α ρ)) :
    times (reports.map (shift ms)) = (times reports).map (· + ms) := by
  simp [times]

@[simp] theorem distanceTo_shift [Geodesy α] :
    (r.shift ms).distanceTo (q.shift ms) = r.distanceTo q := rfl

variable [Scalar α]

theorem compare_shift : (r.shift ms).compare (q.shift ms) = r.compare q := by
  have htimes : Ord.compare (r.time + ms) (q.time + ms) = Ord.compare r.time q.time := by
    simp [Ord.compare, compareOfLessAndEq]
  simp only [compare, shift_time, htimes]
  rfl

theorem sort_shift (reports : List (Report α ρ)) :
    sort (reports.map (shift ms)) = (sort reports).map (shift ms) :=
  (List.map_mergeSort fun r _ q _ => by rw [compare_shift]).symm

end Report

namespace TimeSpan

@[simps] def shift (ms : Int) (w : TimeSpan) : TimeSpan where
  start := w.start + ms
  stop := w.stop + ms
  start_le_stop := Int.add_le_add_right w.start_le_stop ms

variable (ms : Int) (w v : TimeSpan)

theorem between_shift (a b : Int) : between (a + ms) (b + ms) = (between a b).shift ms := by
  simp only [between, shift, mk.injEq]
  omega

@[simp] theorem duration_shift : (w.shift ms).duration = w.duration := Int.add_sub_add_right ..

@[simp] theorem contains_shift (t : Int) : (w.shift ms).contains (t + ms) = w.contains t := by
  simp [contains]

theorem overlap?_shift :
    (w.shift ms).overlap? (v.shift ms) = (w.overlap? v).map (shift ms) := by
  simp only [overlap?, shift_start, shift_stop, Int.max_add_right, Int.min_add_right]
  by_cases h : max w.start v.start ≤ min w.stop v.stop
  · rw [dif_pos h, dif_pos (Int.add_le_add_right h ms)]
    rfl
  · rw [dif_neg h, dif_neg (mt (Int.add_le_add_iff_right ms).mp h)]
    rfl

theorem steps_shift (step : Int) : (w.shift ms).steps step = (w.steps step).map (· + ms) := by
  unfold steps
  split
  · simp [Int.add_right_comm]
  · simp only [shift_start, shift_stop, Int.add_left_inj]
    split <;> rfl

end TimeSpan

namespace Polyline

variable [Scalar α] (ms : Int)

theorem between_shift (p q : Int × α) (t : Int) :
    between (p.map (· + ms) id) (q.map (· + ms) id) (t + ms) = between p q t := by
  simp only [between, Prod.map_fst, Prod.map_snd, id, Int.add_sub_add_right]

theorem value?_shift (line : Polyline α) (t : Int) :
    value? (line.map (Prod.map (· + ms) id)) (t + ms) = value? line t := by
  induction line with
  | nil => rfl
  | cons p rest ih =>
    cases rest with
    | nil => simp [value?]
    | cons q rest =>
      simp only [List.map_cons, value?, Prod.map_fst, Prod.map_snd, id, between_shift,
        Int.add_lt_add_iff_right, Int.add_left_inj] at ih ⊢
      rw [ih]

theorem descent?_shift (line : Polyline α) (t : Int) :
    descent? (line.map (Prod.map (· + ms) id)) (t + ms) = descent? line t := by
  induction line with
  | nil => rfl
  | cons p rest ih =>
    cases rest with
    | nil => rfl
    | cons q rest =>
      simp only [List.map_cons, descent?, descent, Prod.map_fst, Prod.map_snd, id,
        Int.add_lt_add_iff_right, Int.add_left_inj, List.isEmpty_map,
        Int.add_sub_add_right] at ih ⊢
      rw [ih]

end Polyline

namespace Track

@[simps] def shift (ms : Int) (t : Track α ρ) : Track α ρ where
  reports := t.reports.map (Report.shift ms)
  reports_ne_nil := mt List.map_eq_nil_iff.mp t.reports_ne_nil

variable (ms : Int) (t : Track α ρ)

theorem first_shift : (t.shift ms).first = t.first.shift ms := List.head_map ..

theorem last_shift : (t.shift ms).last = t.last.shift ms := List.getLast_map ..

@[simp] theorem size_shift : (t.shift ms).size = t.size := List.length_map ..

@[simp] theorem id?_shift : (t.shift ms).id? = t.id? := by
  rw [id?, first_shift]
  rfl

theorem span_shift : (t.shift ms).span = t.span.shift ms := by
  rw [span, first_shift, last_shift]
  exact TimeSpan.between_shift ..

variable [Scalar α]

theorem ofReports?_shift (reports : List (Report α ρ)) :
    ofReports? (reports.map (Report.shift ms)) = (ofReports? reports).map (shift ms) := by
  unfold ofReports?
  simp only [Report.sort_shift, ne_eq, List.map_eq_nil_iff]
  split <;> rfl

end Track
end AirTraffic
