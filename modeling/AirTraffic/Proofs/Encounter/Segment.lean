import AirTraffic.Proofs.Encounter.Complete
import AirTraffic.Proofs.Polyline.Exact

/-!
# Segments of a profile

Every instant of the span of a profile lies between two neighbouring samples. What is read there is
the straight line through the two, and how fast that line falls.
-/
namespace AirTraffic

open Scalar

variable {α β : Type}

theorem exists_neighbours (time : β → Int) {first : β} {rest : List β} (hrest : rest ≠ []) {t : Int}
    (after : time first ≤ t) (before : t ≤ time (rest.getLast hrest)) :
    ∃ earlier s q later, first :: rest = earlier ++ s :: q :: later ∧ time s ≤ t ∧ t ≤ time q ∧
      (t < time q ∨ later = []) := by
  induction rest generalizing first with
  | nil => exact absurd rfl hrest
  | cons q rest ih =>
    by_cases here : t < time q
    · exact ⟨[], first, q, rest, rfl, after, Int.le_of_lt here, Or.inl here⟩
    · cases rest with
      | nil =>
        rw [List.getLast_singleton] at before
        exact ⟨[], first, q, [], rfl, after, before, Or.inr rfl⟩
      | cons r rest =>
        rw [List.getLast_cons_cons] at before
        obtain ⟨earlier, s, q', later, same, hs, hq⟩ :=
          ih (List.cons_ne_nil r rest) (Int.not_lt.mp here) before
        exact ⟨first :: earlier, s, q', later, congrArg (first :: ·) same, hs, hq⟩

inductive Axis where
  | horizontal
  | vertical
  deriving DecidableEq, Repr

def Separation.on (s : Separation α) : Axis → α
  | .horizontal => s.horizontalNm
  | .vertical => s.verticalFt

namespace SeparationProfile

def line (p : SeparationProfile α) (axis : Axis) : Polyline α :=
  p.samples.map fun s => (s.time, s.on axis)

variable {p : SeparationProfile α} {axis : Axis} {earlier later : List (Separation α)}
  {s q : Separation α} {t : Int}

theorem first_lt_last (p : SeparationProfile α) : p.first.time < p.last.time :=
  (List.pairwise_cons.mp p.increasing).1 _ (List.getLast_mem p.rest_ne_nil)

theorem span_start (p : SeparationProfile α) : p.span.start = p.first.time :=
  Int.min_eq_left (Int.le_of_lt p.first_lt_last)

theorem span_stop (p : SeparationProfile α) : p.span.stop = p.last.time :=
  Int.max_eq_right (Int.le_of_lt p.first_lt_last)

theorem contains_iff : p.span.contains t ↔ p.first.time ≤ t ∧ t ≤ p.last.time := by
  rw [TimeSpan.contains, span_start, span_stop, Bool.and_eq_true, decide_eq_true_eq,
    decide_eq_true_eq]

theorem getLast?_samples (p : SeparationProfile α) : p.samples.getLast? = some p.last := by
  rw [samples, List.getLast?_cons_of_ne_nil p.rest_ne_nil, last,
    List.getLast?_eq_some_getLast p.rest_ne_nil]

theorem contains_of_mem (hs : s ∈ p.samples) : p.span.contains s.time := by
  have ordered := List.pairwise_cons.mp p.increasing
  rw [contains_iff]
  rcases List.mem_cons.mp hs with rfl | hs
  · exact ⟨Int.le_refl _, Int.le_of_lt p.first_lt_last⟩
  · refine ⟨Int.le_of_lt (ordered.1 s hs), ?_⟩
    have ends := List.dropLast_append_getLast p.rest_ne_nil
    have increase := ordered.2
    rw [← ends] at hs increase
    rcases List.mem_append.mp hs with hs | hs
    · exact Int.le_of_lt ((List.pairwise_append.mp increase).2.2 s hs _ (List.mem_singleton_self _))
    · exact Int.le_of_eq (congrArg Separation.time (List.mem_singleton.mp hs))

theorem exists_segment (inside : p.span.contains t) :
    ∃ earlier s q later, p.samples = earlier ++ s :: q :: later ∧ s.time ≤ t ∧ t ≤ q.time ∧
      (t < q.time ∨ later = []) := by
  obtain ⟨after, before⟩ := contains_iff.mp inside
  exact exists_neighbours Separation.time p.rest_ne_nil after before

section Cut

variable (cut : p.samples = earlier ++ s :: q :: later)

include cut

theorem line_of_cut (axis : Axis) : p.line axis = earlier.map (fun r => (r.time, r.on axis)) ++
    (s.time, s.on axis) :: (q.time, q.on axis) :: later.map fun r => (r.time, r.on axis) := by
  rw [line, cut, List.map_append, List.map_cons, List.map_cons]

theorem earlier_lt : ∀ r ∈ earlier, r.time < s.time := by
  have increase : timesIncrease p.samples := p.increasing
  rw [cut] at increase
  exact fun r hr => (List.pairwise_append.mp increase).2.2 r hr s List.mem_cons_self

theorem earlier_line_lt (axis : Axis) :
    ∀ r ∈ earlier.map fun r => (r.time, r.on axis), r.1 < s.time :=
  List.forall_mem_map.mpr (earlier_lt cut)

theorem neighbours_lt : s.time < q.time := by
  have increase : timesIncrease p.samples := p.increasing
  rw [cut] at increase
  exact (List.pairwise_cons.mp (List.pairwise_append.mp increase).2.1).1 q List.mem_cons_self

theorem later_lt : ∀ r ∈ later, q.time < r.time := by
  have increase : timesIncrease p.samples := p.increasing
  rw [cut] at increase
  have rest := (List.pairwise_cons.mp (List.pairwise_append.mp increase).2.1).2
  exact (List.pairwise_cons.mp rest).1

theorem start_mem : s ∈ p.samples := by
  rw [cut]
  exact List.mem_append_right _ List.mem_cons_self

theorem stop_mem : q ∈ p.samples := by
  rw [cut]
  exact List.mem_append_right _ (List.mem_cons_of_mem _ List.mem_cons_self)

end Cut

variable [Scalar α]

theorem valueAt_of_cut (cut : p.samples = earlier ++ s :: q :: later) (after : s.time ≤ t)
    (before : t ≤ q.time) (axis : Axis) : p.valueAt (p.line axis) t =
      .ok (if s.time = t then s.on axis else if q.time = t then q.on axis
        else Polyline.between (s.time, s.on axis) (q.time, q.on axis) t) := by
  rw [valueAt, line_of_cut cut axis, Polyline.value?_segment (p := (s.time, s.on axis))
    (q := (q.time, q.on axis)) (earlier_line_lt cut axis) after before]
  split
  · rfl
  · split
    · rfl
    · rfl

theorem closureAt_of_cut (cut : p.samples = earlier ++ s :: q :: later) (after : s.time ≤ t)
    (before : t ≤ q.time) (ending : t < q.time ∨ later = []) (axis : Axis) :
    p.closureAt (p.line axis) t =
      .ok (Polyline.descent (s.time, s.on axis) (q.time, q.on axis)) := by
  have last : t < q.time ∨ later.map (fun r => (r.time, r.on axis)) = [] :=
    ending.imp_right List.map_eq_nil_iff.mpr
  rw [closureAt, line_of_cut cut axis, Polyline.descent?_segment (p := (s.time, s.on axis))
    (q := (q.time, q.on axis)) (earlier_line_lt cut axis) after before last]
  rfl

theorem exists_valueAt (inside : p.span.contains t) (axis : Axis) :
    ∃ value, p.valueAt (p.line axis) t = .ok value := by
  obtain ⟨earlier, s, q, later, cut, after, before, -⟩ := exists_segment inside
  exact ⟨_, valueAt_of_cut cut after before axis⟩

theorem exists_closureAt_of_contains (inside : p.span.contains t) (axis : Axis) :
    ∃ rate, p.closureAt (p.line axis) t = .ok rate := by
  obtain ⟨earlier, s, q, later, cut, after, before, ending⟩ := exists_segment inside
  exact ⟨_, closureAt_of_cut cut after before ending axis⟩

section Outside

variable (outside : ¬p.span.contains t)

include outside

omit [Scalar α] in
theorem beside_line (axis : Axis) : t < p.first.time ∨ ∀ r ∈ p.line axis, r.1 < t := by
  by_cases early : t < p.first.time
  · exact Or.inl early
  · refine Or.inr (List.forall_mem_map.mpr fun s hs => ?_)
    have within := contains_iff.mp (contains_of_mem hs)
    have past : ¬(p.first.time ≤ t ∧ t ≤ p.last.time) := fun h => outside (contains_iff.mpr h)
    omega

theorem valueAt_of_outside (axis : Axis) :
    p.valueAt (p.line axis) t = .error (.outsideSpan t p.span.start p.span.stop) := by
  have absent : (p.line axis).value? t = none := by
    rcases beside_line outside axis with early | late
    · exact Polyline.value?_of_lt early
    · exact Polyline.value?_of_all_before late
  rw [valueAt, absent]
  rfl

theorem closureAt_of_outside (axis : Axis) :
    p.closureAt (p.line axis) t = .error (.outsideSpan t p.span.start p.span.stop) := by
  have absent : (p.line axis).descent? t = none := by
    rcases beside_line outside axis with early | late
    · exact Polyline.descent?_of_lt early
    · exact Polyline.descent?_of_all_before late
  rw [closureAt, absent]
  rfl

end Outside

end SeparationProfile

namespace SeparationProfile

variable [ExactScalar α] {p : SeparationProfile α} {earlier later : List (Separation α)}
  {s q : Separation α} {t : Int}

theorem valueAt_between (cut : p.samples = earlier ++ s :: q :: later) (after : s.time ≤ t)
    (before : t ≤ q.time) (axis : Axis) : p.valueAt (p.line axis) t =
      .ok (Polyline.between (s.time, s.on axis) (q.time, q.on axis) t) := by
  rw [valueAt_of_cut cut after before axis]
  by_cases start : s.time = t
  · subst start
    rw [if_pos rfl, Polyline.between_start (s.time, s.on axis)]
  · by_cases stop : q.time = t
    · subst stop
      rw [if_neg start, if_pos rfl]
      exact congrArg Except.ok
        (Polyline.between_stop (q := (q.time, q.on axis)) (neighbours_lt cut)).symm
    · rw [if_neg start, if_neg stop]

end SeparationProfile

end AirTraffic
