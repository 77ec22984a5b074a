import AirTraffic.Proofs.InPlace.Outage
import AirTraffic.Proofs.Track.Reading

/-!
# Errant reports near outages

A report goes if an impossible acceleration lies between it and the rest of the track on the one
side and an outage, or an end of the track, on the other, all within the window that is inspected.
Away from all of these it stays.
-/
namespace AirTraffic.OutageTest

open Report

variable {α ρ : Type}

def LastBefore (gapMs : Int) (times : List Int) (e : Nat) (t : Int) : Prop :=
  times[e]? = some t ∧ ∀ u ∈ times[e + 1]?, t + gapMs < u

def FirstAfter (gapMs : Int) (times : List Int) (s : Nat) (t : Int) : Prop :=
  times[s]? = some t ∧ ∀ u ∈ (times.take s).getLast?, u + gapMs < t

/-- Between an impossible acceleration and the outage, or the end, that it comes shortly before. -/
def CutOffBefore (gapMs windowMs : Int) (times : List Int) (bad : Nat → Prop) (j : Nat) : Prop :=
  ∃ e t i u, LastBefore gapMs times e t ∧ j ≤ e ∧ bad i ∧ i + 2 ≤ j ∧ times[i]? = some u ∧
    t - windowMs < u

/-- Between an outage, or the start, and an impossible acceleration shortly after it. -/
def CutOffAfter (gapMs windowMs : Int) (times : List Int) (bad : Nat → Prop) (j : Nat) : Prop :=
  ∃ s t i u, FirstAfter gapMs times s t ∧ s ≤ j ∧ bad i ∧ j ≤ i ∧ times[i + 2]? = some u ∧
    u < t + windowMs

section Edges

variable (test : OutageTest α) {times : List Int}

theorem mem_outages_iff {o : Outage} : o ∈ test.outages times ↔
    (∃ t, times[0]? = some t ∧ o = ⟨⟨0, 0⟩, test.inspectedAfter times 0 t⟩) ∨
    (∃ e t, times[e]? = some t ∧ times[e + 1]? = none ∧
      o = ⟨test.inspectedBefore times e t, ⟨0, 0⟩⟩) ∨
    ∃ i t u, times[i]? = some t ∧ times[i + 1]? = some u ∧ t + test.gapMs < u ∧
      o = ⟨test.inspectedBefore times i t, test.inspectedAfter times (i + 1) u⟩ := by
  rcases times with _ | ⟨start, rest⟩
  · simp [outages]
  have entry {i : Nat} (hi : i ≤ rest.length) :
      (start :: rest)[i]? = some ((start :: rest).getD i 0) := by
    rw [List.getD_eq_getElem _ 0 (Nat.lt_succ_of_le hi)]
    exact List.getElem?_eq_getElem _
  rw [outages_eq_filterMap, List.mem_cons, List.mem_cons, List.mem_filterMap]
  refine or_congr ?_ (or_congr ?_ ?_)
  · simp
  · constructor
    · rintro rfl
      exact ⟨rest.length, _, entry (Nat.le_refl _), by simp, rfl⟩
    · rintro ⟨e, t, he, hend, rfl⟩
      obtain ⟨inside, -⟩ := List.getElem?_eq_some_iff.mp he
      have beyond := List.getElem?_eq_none_iff.mp hend
      rw [List.length_cons] at inside beyond
      obtain rfl : e = rest.length := by omega
      rw [Option.some.inj (he.symm.trans (entry (Nat.le_refl _)))]
  · constructor
    · rintro ⟨i, hi, hgap⟩
      have inside : i < rest.length := List.mem_range.mp hi
      obtain ⟨gap, same⟩ := Option.ite_none_right_eq_some.mp hgap
      exact ⟨i, _, _, entry (Nat.le_of_lt inside), entry inside, gap, (Option.some.inj same).symm⟩
    · rintro ⟨i, t, u, ht, hu, gap, rfl⟩
      obtain ⟨inside, -⟩ := List.getElem?_eq_some_iff.mp hu
      have within : i < rest.length := Nat.lt_of_succ_lt_succ inside
      have first := Option.some.inj (ht.symm.trans (entry (Nat.le_of_lt within)))
      have second := Option.some.inj (hu.symm.trans (entry within))
      refine ⟨i, List.mem_range.mpr within, ?_⟩
      rw [← first, ← second]
      exact if_pos gap

variable {P : Stretch → Prop} (empty : ¬P ⟨0, 0⟩)

include empty

theorem exists_before_iff : (∃ o ∈ test.outages times, P o.before) ↔
    ∃ e t, LastBefore test.gapMs times e t ∧ P (test.inspectedBefore times e t) := by
  constructor
  · rintro ⟨o, ho, holds⟩
    rcases (mem_outages_iff test).mp ho with
      ⟨t, -, rfl⟩ | ⟨e, t, he, hend, rfl⟩ | ⟨i, t, u, ht, hu, gap, rfl⟩
    · exact absurd holds empty
    · exact ⟨e, t, ⟨he, by simp [hend]⟩, holds⟩
    · exact ⟨i, t, ⟨ht, by simpa [hu] using gap⟩, holds⟩
  · rintro ⟨e, t, ⟨he, hnext⟩, holds⟩
    cases hu : times[e + 1]? with
    | none => exact ⟨_, (mem_outages_iff test).mpr (Or.inr (Or.inl ⟨e, t, he, hu, rfl⟩)), holds⟩
    | some u =>
      have gap := hnext u hu
      exact ⟨_, (mem_outages_iff test).mpr (Or.inr (Or.inr ⟨e, t, u, he, hu, gap, rfl⟩)), holds⟩

theorem exists_after_iff : (∃ o ∈ test.outages times, P o.after) ↔
    ∃ s t, FirstAfter test.gapMs times s t ∧ P (test.inspectedAfter times s t) := by
  constructor
  · rintro ⟨o, ho, holds⟩
    rcases (mem_outages_iff test).mp ho with
      ⟨t, ht, rfl⟩ | ⟨e, t, -, -, rfl⟩ | ⟨i, t, u, ht, hu, gap, rfl⟩
    · exact ⟨0, t, ⟨ht, by simp⟩, holds⟩
    · exact absurd holds empty
    · obtain ⟨inside, -⟩ := List.getElem?_eq_some_iff.mp ht
      refine ⟨i + 1, u, ⟨hu, ?_⟩, holds⟩
      rw [getLast?_take_succ inside]
      simpa [ht] using gap
  · rintro ⟨s, u, ⟨hs, hprevious⟩, holds⟩
    rcases s with _ | i
    · exact ⟨_, (mem_outages_iff test).mpr (Or.inl ⟨u, hs, rfl⟩), holds⟩
    · obtain ⟨inside, -⟩ := List.getElem?_eq_some_iff.mp hs
      have before := List.getElem?_eq_getElem (Nat.lt_of_succ_lt inside)
      rw [getLast?_take_succ (Nat.lt_of_succ_lt inside)] at hprevious
      have gap := hprevious _ before
      exact ⟨_, (mem_outages_iff test).mpr (Or.inr (Or.inr ⟨i, _, u, before, hs, gap, rfl⟩)), holds⟩

end Edges

section Window

variable (test : OutageTest α) {times : List Int}

theorem inspectedBefore_stop (e : Nat) (t : Int) :
    (test.inspectedBefore times e t).stop = e + 1 := by
  rw [inspectedBefore, Stretch.stop, Stretch.upTo]
  exact Nat.add_sub_cancel' (Nat.min_le_right _ _)

variable (order : times.Pairwise (· ≤ ·))

include order

theorem mem_triples_before {e : Nat} (he : e < times.length) (t : Int) {i : Nat} :
    i ∈ triples (test.inspectedBefore times e t) ↔
      i + 2 ≤ e ∧ ∃ u, times[i]? = some u ∧ t - test.windowMs < u := by
  rw [triples, List.mem_range'_1, inspectedBefore, Stretch.upTo]
  by_cases inside : i + 2 ≤ e
  · have hi : i < times.length := by omega
    have early := lt_length_takeWhile_iff
      (pairwise_le_of_order order (t - test.windowMs)) hi
    rw [decide_eq_true_eq] at early
    simp only [List.getElem?_eq_getElem hi, Option.some.injEq, exists_eq_left']
    omega
  · dsimp only
    omega

theorem mem_triples_after (s : Nat) (t : Int) {i : Nat} :
    i ∈ triples (test.inspectedAfter times s t) ↔
      s ≤ i ∧ ∃ u, times[i + 2]? = some u ∧ u < t + test.windowMs := by
  have few := (List.takeWhile_prefix (l := times) fun u => decide (u < t + test.windowMs)).length_le
  rw [triples, List.mem_range'_1, inspectedAfter, Stretch.upTo]
  by_cases inside : i + 2 < times.length
  · have early := lt_length_takeWhile_iff
      (pairwise_lt_of_order order (t + test.windowMs)) inside
    rw [decide_eq_true_eq] at early
    simp only [List.getElem?_eq_getElem inside, Option.some.injEq, exists_eq_left']
    omega
  · simp only [List.getElem?_eq_none (Nat.not_lt.mp inside), reduceCtorEq, false_and, exists_false,
      and_false, iff_false]
    omega

end Window

section Dropped

variable {bad : Nat → Bool} {s : Stretch} {j : Nat}

theorem droppedBefore_contains_iff : (droppedBefore bad s).contains j ↔
    ∃ i ∈ triples s, bad i ∧ i + 2 ≤ j ∧ j < s.stop := by
  rw [droppedBefore_contains]
  cases hfirst : (triples s).find? bad with
  | none =>
    rw [List.find?_eq_none] at hfirst
    simp only [Option.any_none, Bool.false_eq_true, false_iff, not_exists, not_and]
    intro i hi hbad
    exact absurd hbad (hfirst i hi)
  | some k =>
    obtain ⟨hbad, earlier, later, hsplit, hearlier⟩ := List.find?_eq_some_iff_append.mp hfirst
    have first_le : ∀ i ∈ triples s, bad i → k ≤ i := by
      intro i hi hibad
      have increase := triples_increase s
      rw [hsplit] at hi increase
      rcases List.mem_append.mp hi with hi | hi
      · exact absurd hibad (by simpa using hearlier i hi)
      · rcases List.mem_cons.mp hi with rfl | hi
        · exact Nat.le_refl i
        · exact Nat.le_of_lt ((List.pairwise_cons.mp (List.pairwise_append.mp increase).2.1).1 i hi)
    rw [Option.any_some, contains_upTo, decide_eq_true_eq]
    constructor
    · intro hj
      exact ⟨k, hsplit ▸ by simp, hbad, hj⟩
    · rintro ⟨i, hi, hibad, hij, hj⟩
      have := first_le i hi hibad
      omega

theorem droppedAfter_contains_iff : (droppedAfter bad s).contains j ↔
    ∃ i ∈ triples s, bad i ∧ s.start ≤ j ∧ j ≤ i := by
  rw [droppedAfter_contains, ← any_of_last (triples_increase s), List.any_eq_true]
  simp only [Bool.and_eq_true, contains_upTo, decide_eq_true_eq, Nat.lt_succ_iff]

end Dropped

section Flags

variable (test : OutageTest α) {times : List Int}

theorem dropFlags_iff_exists {bad : Nat → Bool} {j : Nat} :
    (test.dropFlags times bad)[j]? = some true ↔
      j < times.length ∧ ((∃ o ∈ test.outages times, (droppedBefore bad o.before).contains j) ∨
        ∃ o ∈ test.outages times, (droppedAfter bad o.after).contains j) := by
  rw [dropFlags, List.getElem?_map]
  by_cases inside : j < times.length
  · rw [List.getElem?_range inside, Option.map_some, Option.some_inj, List.any_flatMap,
      List.any_eq_true]
    simp only [List.any_cons, List.any_nil, Bool.or_false, Bool.or_eq_true]
    grind
  · simp [inside]

variable (order : times.Pairwise (· ≤ ·)) (bad : Nat → Bool)

include order

theorem exists_droppedBefore_iff {j : Nat} :
    (∃ o ∈ test.outages times, (droppedBefore bad o.before).contains j) ↔
      CutOffBefore test.gapMs test.windowMs times (bad ·) j := by
  have nothing : ¬(droppedBefore bad ⟨0, 0⟩).contains j := by
    simp [droppedBefore_contains_iff, triples]
  rw [exists_before_iff test (P := fun s => (droppedBefore bad s).contains j) nothing]
  constructor
  · rintro ⟨e, t, hlast, dropped⟩
    obtain ⟨i, hi, hbad, hij, hj⟩ := droppedBefore_contains_iff.mp dropped
    obtain ⟨inside, -⟩ := List.getElem?_eq_some_iff.mp hlast.1
    obtain ⟨-, u, hu, near⟩ := (mem_triples_before test order inside t).mp hi
    rw [inspectedBefore_stop] at hj
    exact ⟨e, t, i, u, hlast, Nat.le_of_lt_succ hj, hbad, hij, hu, near⟩
  · rintro ⟨e, t, i, u, hlast, hj, hbad, hij, hu, near⟩
    obtain ⟨inside, -⟩ := List.getElem?_eq_some_iff.mp hlast.1
    have hi := (mem_triples_before test order inside t).mpr ⟨hij.trans hj, u, hu, near⟩
    refine ⟨e, t, hlast, droppedBefore_contains_iff.mpr ⟨i, hi, hbad, hij, ?_⟩⟩
    rw [inspectedBefore_stop]
    exact Nat.lt_succ_of_le hj

theorem exists_droppedAfter_iff {j : Nat} :
    (∃ o ∈ test.outages times, (droppedAfter bad o.after).contains j) ↔
      CutOffAfter test.gapMs test.windowMs times (bad ·) j := by
  have nothing : ¬(droppedAfter bad ⟨0, 0⟩).contains j := by
    simp [droppedAfter_contains_iff, triples]
  rw [exists_after_iff test (P := fun s => (droppedAfter bad s).contains j) nothing]
  constructor
  · rintro ⟨s, t, hfirst, dropped⟩
    obtain ⟨i, hi, hbad, hs, hj⟩ := droppedAfter_contains_iff.mp dropped
    obtain ⟨-, u, hu, near⟩ := (mem_triples_after test order s t).mp hi
    exact ⟨s, t, i, u, hfirst, hs, hbad, hj, hu, near⟩
  · rintro ⟨s, t, i, u, hfirst, hs, hbad, hj, hu, near⟩
    have hi := (mem_triples_after test order s t).mpr ⟨hs.trans hj, u, hu, near⟩
    exact ⟨s, t, hfirst, droppedAfter_contains_iff.mpr ⟨i, hi, hbad, hs, hj⟩⟩

theorem dropFlags_iff {j : Nat} : (test.dropFlags times bad)[j]? = some true ↔
    CutOffBefore test.gapMs test.windowMs times (bad ·) j ∨
      CutOffAfter test.gapMs test.windowMs times (bad ·) j := by
  rw [dropFlags_iff_exists, exists_droppedBefore_iff test order, exists_droppedAfter_iff test order]
  constructor
  · rintro ⟨-, cut⟩
    exact cut
  · intro cut
    refine ⟨?_, cut⟩
    rcases cut with ⟨e, t, i, u, hlast, hj, -⟩ | ⟨s, t, i, u, -, -, -, hj, hu, -⟩
    · obtain ⟨inside, -⟩ := List.getElem?_eq_some_iff.mp hlast.1
      exact hj.trans_lt inside
    · obtain ⟨inside, -⟩ := List.getElem?_eq_some_iff.mp hu
      omega

end Flags

variable [Scalar α] (test : OutageTest α) {reports : List (Report α ρ)}

/-- Over the report at an index and the next two. -/
def Impossible (reports : List (Report α ρ)) (i : Nat) : Prop :=
  ∃ first p q r, reports.head? = some first ∧ reports[i]? = some p ∧ reports[i + 1]? = some q ∧
    reports[i + 2]? = some r ∧
      test.maximumAcceleration < acceleration (.around first.position) p q r

theorem length_badTriples (plane : LocalPlane α) (reports : List (Report α ρ)) :
    (test.badTriples plane reports).length = reports.length - 2 := by
  induction reports with
  | nil => rfl
  | cons p rest ih =>
    rcases rest with _ | ⟨q, _ | ⟨r, rest⟩⟩
    · rfl
    · rfl
    · exact congrArg Nat.succ ih

theorem badTriples_getD_iff {plane : LocalPlane α} {i : Nat} :
    (test.badTriples plane reports).toArray.getD i false = true ↔ ∃ p q r, reports[i]? = some p ∧
      reports[i + 1]? = some q ∧ reports[i + 2]? = some r ∧
        test.maximumAcceleration < acceleration plane p q r := by
  have entry : (test.badTriples plane reports).toArray.getD i false =
      (test.badTriples plane reports)[i]?.getD false := by simp
  rw [entry]
  by_cases inside : i + 2 < reports.length
  · have second := Nat.lt_of_succ_lt inside
    simp [badTriples_getElem? test inside, List.getElem?_eq_getElem inside,
      List.getElem?_eq_getElem second, List.getElem?_eq_getElem (Nat.lt_of_succ_lt second)]
  · have beyond := Nat.not_lt.mp inside
    have short : (test.badTriples plane reports).length ≤ i := by
      rw [length_badTriples]
      omega
    simp [List.getElem?_eq_none short, List.getElem?_eq_none beyond]

theorem flags_iff (order : InOrder reports) {j : Nat} : (test.flags reports)[j]? = some true ↔
    CutOffBefore test.gapMs test.windowMs (times reports) (test.Impossible reports) j ∨
      CutOffAfter test.gapMs test.windowMs (times reports) (test.Impossible reports) j := by
  rcases reports with _ | ⟨first, rest⟩
  · simp [flags, CutOffBefore, CutOffAfter, LastBefore, FirstAfter, times]
  · have bad : (fun i => (test.badTriples (.around first.position) (first :: rest)).toArray.getD i
        false = true) = test.Impossible (first :: rest) := by
      funext i
      rw [badTriples_getD_iff, Impossible]
      simp
    rw [flags, dropFlags_iff test order, bad]

theorem length_flags (reports : List (Report α ρ)) :
    (test.flags reports).length = reports.length := by
  rcases reports with _ | ⟨first, rest⟩
  · rfl
  · simp [flags, dropFlags, times]

section Away

variable {test} {gapMs windowMs : Int} {times : List Int} (order : times.Pairwise (· ≤ ·))
  {bad : Nat → Prop} {j : Nat} {v : Int} (hj : times[j]? = some v)

include order hj

theorem not_cutOffBefore_of_far
    (far : ∀ e t, LastBefore gapMs times e t → j ≤ e → v + windowMs ≤ t) :
    ¬CutOffBefore gapMs windowMs times bad j := by
  rintro ⟨e, t, i, u, hlast, hje, -, hij, hu, near⟩
  have inspected := le_of_order order (Nat.le_of_add_right_le hij) hu hj
  have away := far e t hlast hje
  omega

theorem not_cutOffAfter_of_far
    (far : ∀ s t, FirstAfter gapMs times s t → s ≤ j → t + windowMs ≤ v) :
    ¬CutOffAfter gapMs windowMs times bad j := by
  rintro ⟨s, t, i, u, hfirst, hsj, -, hji, hu, near⟩
  have inspected := le_of_order order (Nat.le_add_right_of_le hji) hj hu
  have away := far s t hfirst hsj
  omega

end Away

/-- What an impossible acceleration cuts off from the rest of the track, next to an outage or an end
of it, is dropped, and nothing else is. Fifteen seconds from all of these a report has nothing to
fear. -/
theorem standard_flags_spec (order : InOrder reports) :
    (standard.flags reports).length = reports.length ∧
    (∀ j, (standard.flags reports)[j]? = some true ↔
      CutOffBefore 10000 15000 (times reports) (standard.Impossible reports) j ∨
        CutOffAfter 10000 15000 (times reports) (standard.Impossible reports) j) ∧
    ∀ j r, reports[j]? = some r →
      (∀ e t, LastBefore 10000 (times reports) e t → j ≤ e → r.time + 15000 ≤ t) →
      (∀ s t, FirstAfter 10000 (times reports) s t → s ≤ j → t + 15000 ≤ r.time) →
        (standard.flags reports)[j]? = some false ∧
          ∃ out, standard.clean reports = some out ∧ r ∈ out := by
  have flagged (j : Nat) : (standard.flags reports)[j]? = some true ↔
      CutOffBefore 10000 15000 (times reports) (standard.Impossible reports) j ∨
        CutOffAfter 10000 15000 (times reports) (standard.Impossible reports) j :=
    flags_iff standard order
  refine ⟨length_flags standard reports, flagged, ?_⟩
  intro j r hr before after
  have time := getElem?_times hr
  have unflagged : (standard.flags reports)[j]? = some false := by
    obtain ⟨inside, -⟩ := List.getElem?_eq_some_iff.mp hr
    have flag := List.getElem?_eq_getElem ((length_flags standard reports).symm ▸ inside)
    rw [flag, Option.some_inj, ← Bool.not_eq_true]
    intro drops
    rcases (flagged j).mp (by rw [flag, drops]) with cut | cut
    · exact not_cutOffBefore_of_far order time before cut
    · exact not_cutOffAfter_of_far order time after cut
  have kept := mem_dropFlagged unflagged hr
  refine ⟨unflagged, _, ?_, kept⟩
  rw [clean, if_neg (by simpa using List.ne_nil_of_mem kept)]

def errantBeforeGap : List (Report ℚ Unit) :=
  ([0, 4000, 8000, 12000, 16000, 20000, 24000, 28000, 32000].map fun time =>
    Track.equatorAt (time, time / 100000, none)) ++
  [Track.equatorAt (36000, 1, none)] ++
  [60000, 64000, 68000].map fun time => Track.equatorAt (time, time / 100000, none)

theorem errantBeforeGap_cut : InOrder errantBeforeGap ∧
    (standard.flags errantBeforeGap)[9]? = some true ∧
    (standard.flags errantBeforeGap)[4]? = some false ∧
    ∃ out, standard.clean errantBeforeGap = some out ∧ 16000 ∈ times out := by
  have order : (times errantBeforeGap).Pairwise (· ≤ ·) := by decide
  obtain ⟨-, cut, stays⟩ := standard_flags_spec order
  have errant : standard.Impossible errantBeforeGap 7 :=
    ⟨_, _, _, _, rfl, rfl, rfl, rfl, by decide +kernel⟩
  have lasts : ∀ e < 13, ∀ t ∈ (times errantBeforeGap)[e]?,
      (∀ u ∈ (times errantBeforeGap)[e + 1]?, t + 10000 < u) → 31000 ≤ t := by decide
  have firsts : ∀ s < 13, ∀ t ∈ (times errantBeforeGap)[s]?,
      (∀ u ∈ ((times errantBeforeGap).take s).getLast?, u + 10000 < t) →
        s ≤ 4 → t ≤ 1000 := by decide
  have before : ∀ e t, LastBefore 10000 (times errantBeforeGap) e t → 4 ≤ e → 31000 ≤ t := by
    rintro e t ⟨he, hnext⟩ -
    exact lasts e (List.getElem?_eq_some_iff.mp he).1 t he hnext
  have after : ∀ s t, FirstAfter 10000 (times errantBeforeGap) s t → s ≤ 4 → t + 15000 ≤ 16000 := by
    rintro s t ⟨hs, hprevious⟩ h
    have := firsts s (List.getElem?_eq_some_iff.mp hs).1 t hs hprevious h
    omega
  obtain ⟨unflagged, out, cleaned, kept⟩ := stays 4 _ rfl before after
  refine ⟨order, (cut 9).mpr (Or.inl ?_), unflagged, out, cleaned, List.mem_map_of_mem kept⟩
  exact ⟨9, 36000, 7, 28000, ⟨rfl, by decide⟩, Nat.le_refl 9, errant, Nat.le_refl 9, rfl, by decide⟩

end AirTraffic.OutageTest
