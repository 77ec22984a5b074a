import Mathlib.Data.List.Infix
import Mathlib.Data.List.Nodup
import Mathlib.Data.List.TakeWhile
import AirTraffic.Proofs.Basic
import AirTraffic.Proofs.Cleaning.Spacing

/-!
# Tracks in order of time

Putting reports in order leaves their times in order, whatever the rest of the comparison does. What
an ordered track says of an instant is read off the last report before it and the first one at or
after it.
-/
namespace AirTraffic

variable {α ρ : Type}

namespace Report

/-- Simultaneous reports may stand in any order. -/
def InOrder (reports : List (Report α ρ)) : Prop := (times reports).Pairwise (· ≤ ·)

theorem inOrder_iff {reports : List (Report α ρ)} :
    InOrder reports ↔ reports.Pairwise fun r q => r.time ≤ q.time := List.pairwise_map

theorem inOrder_of_increase {reports : List (Report α ρ)}
    (increase : (times reports).Pairwise (· < ·)) : InOrder reports :=
  increase.imp Int.le_of_lt

theorem getElem?_times {reports : List (Report α ρ)} {j : Nat} {r : Report α ρ}
    (hr : reports[j]? = some r) : (times reports)[j]? = some r.time := by
  rw [times, List.getElem?_map, hr, Option.map_some]

theorem eq_of_time_eq {reports : List (Report α ρ)} (increase : (times reports).Pairwise (· < ·))
    {r q : Report α ρ} (hr : r ∈ reports) (hq : q ∈ reports) (same : r.time = q.time) : r = q :=
  List.inj_on_of_nodup_map (increase.imp fun h => Int.ne_of_lt h) hr hq same

theorem time_lt_of_increase {reports : List (Report α ρ)}
    (increase : (times reports).Pairwise (· < ·)) {i : Nat} {p r : Report α ρ}
    (hp : reports[i]? = some p) (hr : reports[i + 1]? = some r) : p.time < r.time := by
  obtain ⟨before, rfl⟩ := List.getElem?_eq_some_iff.mp hp
  obtain ⟨inside, rfl⟩ := List.getElem?_eq_some_iff.mp hr
  exact List.pairwise_iff_getElem.mp (List.pairwise_map.mp increase) i (i + 1) before inside
    (Nat.lt_succ_self i)

/-- A report every `step`, the first one at `start`. -/
def EvenlySpaced (start step : Int) (reports : List (Report α ρ)) : Prop :=
  ∀ (j : Nat) (r : Report α ρ), reports[j]? = some r → r.time = start + step * j

section EvenlySpaced

variable {start step : Int} {reports : List (Report α ρ)} (even : EvenlySpaced start step reports)

include even

theorem EvenlySpaced.time_add {i k : Nat} {r q : Report α ρ} (hr : reports[i]? = some r)
    (hq : reports[i + k]? = some q) : q.time = r.time + step * k := by
  rw [even i r hr, even (i + k) q hq, Int.natCast_add, Int.mul_add, Int.add_assoc]

theorem EvenlySpaced.increase (forward : 0 < step) : (times reports).Pairwise (· < ·) := by
  rw [times, List.pairwise_map, List.pairwise_iff_getElem]
  intro i j hi hj before
  rw [even i _ (List.getElem?_eq_getElem hi), even j _ (List.getElem?_eq_getElem hj)]
  have steps := Int.mul_lt_mul_of_pos_left (Int.ofNat_lt.mpr before) forward
  omega

theorem EvenlySpaced.of_times {others : List (Report α ρ)} (same : times others = times reports) :
    EvenlySpaced start step others := by
  intro j r hr
  have found := getElem?_times hr
  rw [same, times, List.getElem?_map] at found
  obtain ⟨q, hq, time⟩ := Option.map_eq_some_iff.mp found
  rw [← time, even j q hq]

end EvenlySpaced

theorem InOrder.head_le {reports : List (Report α ρ)} (h : InOrder reports) {first : Report α ρ}
    (hfirst : reports.head? = some first) : ∀ r ∈ reports, first.time ≤ r.time := by
  cases reports with
  | nil => cases hfirst
  | cons q rest =>
    obtain rfl : q = first := Option.some.inj hfirst
    exact List.forall_mem_cons.mpr
      ⟨Int.le_refl _, (List.pairwise_cons.mp (inOrder_iff.mp h)).1⟩

section Merge

variable {le : Report α ρ → Report α ρ → Bool} (holds : ∀ r q, le r q → r.time ≤ q.time)
  (fails : ∀ r q, ¬le r q → q.time ≤ r.time)

include holds fails

theorem merge_inOrder {xs ys : List (Report α ρ)} (hx : InOrder xs) (hy : InOrder ys) :
    InOrder (xs.merge ys le) := by
  rw [inOrder_iff] at *
  fun_induction List.merge xs ys le with
  | case1 => exact hy
  | case2 => exact hx
  | case3 r xs q ys first ih =>
    obtain ⟨hr, hxs⟩ := List.pairwise_cons.mp hx
    refine List.pairwise_cons.mpr ⟨fun s hs => ?_, ih hxs hy⟩
    have hrq := holds r q first
    rcases List.mem_merge.mp hs with hs | hs
    · exact hr s hs
    · rcases List.mem_cons.mp hs with rfl | hs
      · exact hrq
      · exact Int.le_trans hrq ((List.pairwise_cons.mp hy).1 s hs)
  | case4 r xs q ys second ih =>
    obtain ⟨hq, hys⟩ := List.pairwise_cons.mp hy
    refine List.pairwise_cons.mpr ⟨fun s hs => ?_, ih hx hys⟩
    have hqr := fails r q second
    rcases List.mem_merge.mp hs with hs | hs
    · rcases List.mem_cons.mp hs with rfl | hs
      · exact hqr
      · exact Int.le_trans hqr ((List.pairwise_cons.mp hx).1 s hs)
    · exact hq s hs

theorem mergeSort_inOrder (reports : List (Report α ρ)) : InOrder (reports.mergeSort le) := by
  fun_induction List.mergeSort reports le with
  | case1 => exact .nil
  | case2 r => exact List.pairwise_singleton _ _
  | case3 r q rest _ _ _ _ first second =>
    exact merge_inOrder holds fails (first holds fails) (second holds fails)

end Merge

section Sorted

variable [Scalar α]

theorem compare_of_time_gt {r q : Report α ρ} (h : q.time < r.time) : r.compare q = .gt := by
  unfold compare
  rw [Std.compare_eq_gt.mpr h]
  rfl

theorem sort_inOrder (reports : List (Report α ρ)) : InOrder (sort reports) := by
  refine mergeSort_inOrder ?_ ?_ reports
  · intro r q before
    by_contra later
    rw [compare_of_time_gt (Int.not_le.mp later)] at before
    cases before
  · intro r q after
    by_contra earlier
    rw [compare_of_time_lt (Int.not_le.mp earlier)] at after
    exact after rfl

end Sorted

theorem InOrder.filter_isPrefix {reports : List (Report α ρ)} (h : InOrder reports) (time : Int) :
    reports.filter (·.time ≤ time) <+: reports := by
  rw [inOrder_iff] at h
  induction reports with
  | nil => exact List.prefix_rfl
  | cons r rest ih =>
    obtain ⟨hr, hrest⟩ := List.pairwise_cons.mp h
    by_cases early : r.time ≤ time
    · rw [List.filter_cons_of_pos (by simpa using early)]
      exact (List.prefix_cons_inj r).mpr (ih hrest)
    · have none : (r :: rest).filter (·.time ≤ time) = [] := by
        refine List.filter_eq_nil_iff.mpr fun q hq => ?_
        have : r.time ≤ q.time :=
          (List.mem_cons.mp hq).elim (by rintro rfl; exact Int.le_refl _) (hr q)
        simpa using (by omega : time < q.time)
      rw [none]
      exact List.nil_prefix

end Report

namespace Track

variable {s t : Track α ρ} {time : Int}

def Ordered (t : Track α ρ) : Prop := Report.InOrder t.reports

instance (t : Track α ρ) : Decidable t.Ordered :=
  inferInstanceAs (Decidable ((Report.times t.reports).Pairwise (· ≤ ·)))

theorem ofReports?_ordered [Scalar α] {reports : List (Report α ρ)}
    (h : ofReports? reports = some t) : t.Ordered := by
  unfold Ordered
  rw [ofReports?_eq_some_iff.mp h]
  exact Report.sort_inOrder reports

namespace Ordered

theorem first_le (h : t.Ordered) {r : Report α ρ} (hr : r ∈ t.reports) : t.first.time ≤ r.time :=
  Report.InOrder.head_le h (List.head?_eq_some_head t.reports_ne_nil) r hr

theorem le_last (h : t.Ordered) {r : Report α ρ} (hr : r ∈ t.reports) : r.time ≤ t.last.time := by
  have last := Report.inOrder_iff.mp h
  rw [← List.dropLast_append_getLast t.reports_ne_nil] at last hr
  rcases List.mem_append.mp hr with hr | hr
  · exact (List.pairwise_append.mp last).2.2 r hr _ (List.mem_singleton_self _)
  · rw [List.mem_singleton.mp hr]
    exact Int.le_refl _

theorem span_start (h : t.Ordered) : t.span.start = t.first.time :=
  Int.min_eq_left (h.first_le (List.getLast_mem _))

theorem span_stop (h : t.Ordered) : t.span.stop = t.last.time :=
  Int.max_eq_right (h.first_le (List.getLast_mem _))

theorem contains_iff (h : t.Ordered) :
    t.span.contains time ↔ t.first.time ≤ time ∧ time ≤ t.last.time := by
  simp [TimeSpan.contains, h.span_start, h.span_stop]

end Ordered

theorem first_of_isPrefix (h : t.reports <+: s.reports) : s.first = t.first := by
  obtain ⟨later, hlater⟩ := h
  unfold Track.first
  simp only [← hlater]
  exact List.head_append_left t.reports_ne_nil

theorem exists_split {r : Report α ρ} (hr : r ∈ t.reports) (hle : time ≤ r.time) :
    ∃ before q rest, t.reports = before ++ q :: rest ∧ (∀ p ∈ before, p.time < time) ∧
      time ≤ q.time := by
  have whole := List.takeWhile_append_dropWhile (p := fun r : Report α ρ => decide (r.time < time))
    (l := t.reports)
  cases hafter : t.reports.dropWhile (·.time < time) with
  | nil =>
    have := of_decide_eq_true (List.dropWhile_eq_nil_iff.mp hafter r hr)
    exact absurd hle (Int.not_le.mpr this)
  | cons q rest =>
    have hq := List.head?_dropWhile_not (fun r : Report α ρ => decide (r.time < time)) t.reports
    rw [hafter] at whole hq
    refine ⟨_, q, rest, whole.symm, fun p hp => ?_, ?_⟩
    · simpa using List.mem_takeWhile_imp hp
    · simpa using hq

section At

variable [Scalar α] [Geodesy α] {before rest : List (Report α ρ)} {q : Report α ρ}

theorem at?_of_outside (outside : ¬t.span.contains time) : t.at? time = none := by
  rw [Bool.not_eq_true] at outside
  rw [at?, outside]
  rfl

theorem at?_of_split (inside : t.span.contains time) (hsplit : t.reports = before ++ q :: rest)
    (hbefore : ∀ p ∈ before, p.time < time) (hq : time ≤ q.time) :
    t.at? time = before.getLast?.elim (some q) fun p =>
      if q.time = time then some q else (p.blend q time).toOption := by
  have early : ∀ p ∈ before, decide (p.time < time) = true :=
    fun p hp => decide_eq_true (hbefore p hp)
  have late : decide (q.time < time) = false := decide_eq_false (Int.not_lt.mpr hq)
  unfold at?
  rw [if_neg (by rw [inside]; decide), hsplit, List.takeWhile_append_of_pos early,
    List.dropWhile_append_of_pos early, List.takeWhile_cons_of_neg (by simp [late]),
    List.dropWhile_cons_of_neg (by simp [late]), List.append_nil]
  cases before.getLast? <;> rfl

theorem at?_of_isPrefix (hs : s.Ordered) (ht : t.Ordered) (hbegin : t.reports <+: s.reports)
    {r : Report α ρ} (hr : r ∈ t.reports) (hle : time ≤ r.time) : s.at? time = t.at? time := by
  have first := first_of_isPrefix hbegin
  obtain ⟨later, hlater⟩ := hbegin
  have span : s.span.contains time = t.span.contains time := by
    have inT := ht.le_last hr
    have inS := hs.le_last (hlater ▸ List.mem_append_left later hr)
    rw [Bool.eq_iff_iff, hs.contains_iff, ht.contains_iff, first]
    omega
  by_cases inside : t.span.contains time
  · obtain ⟨before, q, rest, hsplit, hbefore, hq⟩ := exists_split hr hle
    have longer : s.reports = before ++ q :: (rest ++ later) := by
      rw [← hlater, hsplit, List.append_assoc, List.cons_append]
    rw [at?_of_split inside hsplit hbefore hq, at?_of_split (span.trans inside) longer hbefore hq]
  · simp only [at?, span, inside, Bool.not_false, if_true]

/-- An instant of its span an ordered track knows from the first report of that time, or from the
two reports around it. -/
theorem at?_split_cases (ht : t.Ordered) (inside : t.span.contains time) :
    (∃ r, t.reports.find? (·.time = time) = some r ∧ t.at? time = some r) ∨
      ∃ init p q rest, t.reports = init ++ p :: q :: rest ∧ (∀ r ∈ init, r.time < time) ∧
        p.time < time ∧ time < q.time ∧ t.at? time = (p.blend q time).toOption := by
  obtain ⟨hfirst, hlast⟩ := ht.contains_iff.mp inside
  obtain ⟨before, q, rest, hsplit, hbefore, hq⟩ := exists_split (List.getLast_mem _) hlast
  have value := at?_of_split inside hsplit hbefore hq
  have found (same : q.time = time) : t.reports.find? (·.time = time) = some q := by
    have none : before.find? (·.time = time) = none :=
      List.find?_eq_none.mpr fun r hr => by simpa using Int.ne_of_lt (hbefore r hr)
    rw [hsplit, List.find?_append, none, Option.none_or,
      List.find?_cons_of_pos (by simpa using same)]
  rcases before.eq_nil_or_concat' with rfl | ⟨init, p, rfl⟩
  · have first : t.first = q := by
      unfold Track.first
      simp only [hsplit]
      rfl
    rw [first] at hfirst
    exact Or.inl ⟨q, found (by omega), value⟩
  · rw [List.getLast?_concat, Option.elim_some] at value
    by_cases same : q.time = time
    · rw [if_pos same] at value
      exact Or.inl ⟨q, found same, value⟩
    · rw [if_neg same] at value
      have hp := hbefore p (List.mem_append_right init (List.mem_singleton_self p))
      have hinit (r) (hr : r ∈ init) := hbefore r (List.mem_append_left [p] hr)
      rw [List.append_assoc] at hsplit
      exact Or.inr ⟨init, p, q, rest, hsplit, hinit, hp, by omega, value⟩

theorem at?_cases (ht : t.Ordered) (inside : t.span.contains time) :
    (∃ r ∈ t.reports, r.time = time ∧ t.at? time = some r) ∨
      ∃ p q, [p, q] <:+: t.reports ∧ p.time < time ∧ time < q.time ∧
        t.at? time = (p.blend q time).toOption := by
  rcases at?_split_cases ht inside with
    ⟨r, hr, value⟩ | ⟨init, p, q, rest, hsplit, -, hp, hq, value⟩
  · have same : r.time = time := by simpa using List.find?_some hr
    exact Or.inl ⟨r, List.mem_of_find?_eq_some hr, same, value⟩
  · exact Or.inr ⟨p, q, ⟨init, rest, by simp [hsplit]⟩, hp, hq, value⟩

end At

end Track
end AirTraffic
