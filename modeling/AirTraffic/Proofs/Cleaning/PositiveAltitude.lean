import AirTraffic.Proofs.Cleaning.LoneOutlier
import AirTraffic.Proofs.Cleaning.MissingValues

/-!
# Altitudes above zero

An altitude that is not positive counts as missing, and gaps are filled between altitudes that are
positive. Corrections are another matter: the line through the neighbours of an outlier can fall
past zero before it reaches the outlier. Not so where as many neighbours stand before it as after
it.
-/
namespace AirTraffic

open Scalar Report

variable {α ρ : Type}

def CleaningPlan.altitudeWork [Scalar α] : WorkPlan α :=
  [.step .dropZeroAltitudes, .step .fillAltitudes, .step (.correctAltitudes .altitudes)]

example : (CleaningPlan.altitudeWork : WorkPlan ℚ) = (CleaningPlan.workSteps.drop 4).take 3 := rfl

variable [ExactScalar α]

namespace MissingValues

theorem dropZeroAltitude_pos (r : Report α ρ) : ∀ a ∈ (dropZeroAltitude r).altitude, 0 < a := by
  intro a ha
  rw [dropZeroAltitude] at ha
  split at ha
  · rw [withAltitude_altitude] at ha
    cases ha
  · next kept =>
    rw [ha, Option.any_some, decide_eq_true_eq, ExactScalar.zero_eq] at kept
    exact not_le.mp kept

theorem times_dropZeroAltitude (reports : List (Report α ρ)) :
    times (reports.map dropZeroAltitude) = times reports := by
  rw [times, List.map_map]
  exact List.map_congr_left fun r _ => (dropZeroAltitude_edits r).time

theorem fillAltitudes_pos {reports filled : List (Report α ρ)} (order : InOrder reports)
    (h : fillAltitudes (reports.map dropZeroAltitude) = some filled) :
    times filled = times reports ∧ ∀ r ∈ filled, ∃ a, r.altitude = some a ∧ 0 < a := by
  have known := fillAltitudes_known h
  have same := times_dropZeroAltitude reports
  obtain ⟨-, filling⟩ := Option.ite_none_right_eq_some.mp h
  obtain rfl := Option.some.inj filling
  rw [InOrder, ← same] at order
  have positive := fillAltitudesFrom_mem (s := Set.Ioi (0 : α)) Set.ordConnected_Ioi none _ order
    (by simp) (List.forall_mem_map.mpr fun r _ => dropZeroAltitude_pos r)
  refine ⟨(times_fillAltitudesFrom none _).trans same, ?_⟩
  intro r hr
  obtain ⟨a, ha⟩ := Option.isSome_iff_exists.mp (known r hr)
  exact ⟨a, ha, positive r hr a ha⟩

end MissingValues

namespace TrendTest

/-- The altitudes around a report are above zero on the whole, but the line through them is not when
it comes to the report. -/
def FallsPastZero (test : TrendTest α) (reports : List (Report α ρ)) (i : Nat) : Prop :=
  ∃ r others m, test.neighbours? reports i = some (r, others) ∧
    Observations.slope? (observe (·.altitude) r others) = some m ∧
    0 < mean (Observations.ys (observe (·.altitude) r others)) ∧
    mean (Observations.ys (observe (·.altitude) r others)) ≤ m * mean (offsets r others)

section Positive

variable {reports : List (Report α ρ)}
  (positive : ∀ r ∈ reports, ∃ a, r.altitude = some a ∧ 0 < a)

include positive

theorem observe_of_positive {r : Report α ρ} {others : List (Report α ρ)}
    (listed : others ⊆ reports) :
    Observations.xs (observe (·.altitude) r others) = offsets r others ∧
      ∀ v ∈ Observations.ys (observe (·.altitude) r others), 0 < v := by
  constructor
  · rw [Observations.xs, observe, List.map_filterMap, offsets, ← List.filterMap_eq_map]
    refine List.filterMap_congr ?_
    intro q hq
    obtain ⟨a, ha, -⟩ := positive q (listed hq)
    rw [ha]
    rfl
  · refine List.forall_mem_map.mpr ?_
    intro p hp
    obtain ⟨q, hq, found⟩ := List.mem_filterMap.mp hp
    obtain ⟨a, ha, rfl⟩ := Option.map_eq_some_iff.mp found
    obtain ⟨b, hb, above⟩ := positive q (listed hq)
    obtain rfl : a = b := Option.some.inj (ha.symm.trans hb)
    exact above

theorem fallsPastZero_of_low {test : TrendTest α} {i : Nat} {a : α}
    (flagged : (i, a) ∈ test.altitudeOutliers reports) (low : a ≤ 0) :
    test.FallsPastZero reports i := by
  obtain ⟨r, altitude, others, own, known, near, line, far⟩ := exists_of_flagged test flagged
  obtain ⟨several, spreads⟩ := Observations.determined_of_predict? line
  obtain ⟨xs, above⟩ := observe_of_positive (r := r) positive (mem_of_neighbours? test near).2
  have slope := Observations.slope?_eq spreads several
  rw [Observations.predict?_of_slope slope, xs, ExactScalar.zero_eq] at line
  have value := Option.some.inj line
  have some : Observations.ys (observe (·.altitude) r others) ≠ [] := by
    rw [Observations.ys, Ne, List.map_eq_nil_iff]
    exact List.ne_nil_of_length_pos (by omega)
  refine ⟨r, others, _, near, slope, Observations.mean_pos some above, ?_⟩
  rw [xs]
  linarith

end Positive

theorem mean_offsets_of_middle {start step : Int} (forward : 0 < step) {reports : List (Report α ρ)}
    (even : EvenlySpaced start step reports) {i : Nat} (early : 3 ≤ i)
    (late : i + 3 < reports.length)
    {r : Report α ρ} {others : List (Report α ρ)}
    (found : (altitudes : TrendTest α).neighbours? reports i = some (r, others)) :
    mean (offsets r others : List α) = 0 := by
  obtain ⟨first, begins, -, -, whole⟩ := exists_window (α := α) even forward found
  have around := nearest_of_even forward even early late
  rw [← even i r (mem_of_neighbours? altitudes found).1] at around
  have middle : i - first = 3 := by
    rw [around] at begins
    change i - 3 = first at begins
    omega
  have sum := (Observations.sums_of_window whole).1
  rw [middle, Nat.cast_ofNat, sub_self, mul_zero, neg_zero] at sum
  rw [Observations.mean_eq, sum, zero_div]

theorem altitude_of_corrected {test : TrendTest α} {reports : List (Report α ρ)} {i : Nat}
    {r : Report α ρ} {a : α} (hr : (test.correctAltitudes reports)[i]? = some r)
    (ha : r.altitude = some a) :
    (i, a) ∈ test.altitudeOutliers reports ∨ reports[i]? = some r := by
  rw [getElem?_correctAltitudes] at hr
  obtain ⟨q, hq, same⟩ := Option.map_eq_some_iff.mp hr
  cases corrected : test.correctedAltitude? reports i with
  | none =>
    rw [corrected] at same
    exact Or.inr (hq.trans (congrArg some same))
  | some b =>
    rw [corrected] at same
    obtain rfl := same
    rw [Option.elim_some, withAltitude_altitude] at ha
    exact Or.inl ((mem_altitudeOutliers test reports).mpr (corrected.trans ha))

end TrendTest

namespace CleaningPlan

open MissingValues TrendTest

variable [Geodesy α] [TableInverse α]

theorem altitudeWork_run (reports : List (Report α ρ)) :
    Chain.runAll WorkStep.apply altitudeWork reports =
      (fillAltitudes (reports.map dropZeroAltitude)).map altitudes.correctAltitudes := by
  have steps : Chain.leavesAll (altitudeWork : WorkPlan α) =
      [.dropZeroAltitudes, .fillAltitudes, .correctAltitudes .altitudes] := rfl
  rw [Chain.runAll_eq_through, steps, Chain.through_cons, Option.map_eq_bind]
  rfl

/-- The work on altitudes leaves none unknown. All are above zero until they are corrected, and one
that is not then has been flagged where the line through its neighbours falls past zero. In even
steps that happens near the ends only. -/
theorem altitudeWork_spec {reports out : List (Report α ρ)} (order : InOrder reports)
    (h : Chain.runAll WorkStep.apply altitudeWork reports = some out) :
    (∀ r ∈ out, r.altitude.isSome) ∧
    ∃ filled, fillAltitudes (reports.map dropZeroAltitude) = some filled ∧
      (∀ r ∈ filled, ∃ a, r.altitude = some a ∧ 0 < a) ∧ out = altitudes.correctAltitudes filled ∧
      (∀ i r a, out[i]? = some r → r.altitude = some a → a ≤ 0 →
        (i, a) ∈ altitudes.altitudeOutliers filled ∧ altitudes.FallsPastZero filled i) ∧
      ∀ start step, 0 < step → EvenlySpaced start step reports → ∀ i r a, 3 ≤ i →
        i + 3 < reports.length → out[i]? = some r → r.altitude = some a → 0 < a := by
  rw [altitudeWork_run] at h
  obtain ⟨filled, hfill, rfl⟩ := Option.map_eq_some_iff.mp h
  obtain ⟨same, positive⟩ := fillAltitudes_pos order hfill
  have low {i : Nat} {r : Report α ρ} {a : α}
      (hr : (altitudes.correctAltitudes filled)[i]? = some r)
      (ha : r.altitude = some a) (ha' : a ≤ 0) : (i, a) ∈ altitudes.altitudeOutliers filled := by
    rcases altitude_of_corrected hr ha with flagged | kept
    · exact flagged
    · obtain ⟨b, hb, above⟩ := positive r (List.mem_of_getElem? kept)
      obtain rfl : a = b := Option.some.inj (ha.symm.trans hb)
      exact absurd above (not_lt.mpr ha')
  refine ⟨correctAltitudes_known altitudes (fillAltitudes_known hfill), filled, hfill, positive,
    rfl, ?_, ?_⟩
  · intro i r a hr ha ha'
    exact ⟨low hr ha ha', fallsPastZero_of_low positive (low hr ha ha') ha'⟩
  · intro start step forward even i r a early late hr ha
    by_contra ha'
    have ha' := not_lt.mp ha'
    obtain ⟨q, others, m, found, -, above, past⟩ :=
      fallsPastZero_of_low positive (low hr ha ha') ha'
    have length : filled.length = reports.length := by
      have := congrArg List.length same
      rwa [times, times, List.length_map, List.length_map] at this
    rw [mean_offsets_of_middle forward (even.of_times same) early (length ▸ late) found,
      mul_zero] at past
    exact absurd above (not_lt.mpr past)

def lastTooHigh : List (Report ℚ Unit) :=
  [(0, 340), (4000, 280), (8000, 220), (12000, 160), (16000, 100), (20000, 40), (24000, 1000)].map
    Track.aboveEquator

theorem lastTooHigh_order : InOrder lastTooHigh := by
  rw [InOrder]
  decide

theorem lastTooHigh_run :
    (Chain.runAll WorkStep.apply altitudeWork lastTooHigh).map (List.map (·.altitude)) =
      some [some 340, some 280, some 220, some 160, some 100, some 40, some (-20)] := by
  decide +kernel

/-- The line through the others leads on below zero. -/
theorem lastTooHigh_corrected : InOrder lastTooHigh ∧
    ∃ out, Chain.runAll WorkStep.apply altitudeWork lastTooHigh = some out ∧
      ∃ r ∈ out, r.altitude = some (-20) := by
  obtain ⟨out, found, altitudes⟩ := Option.map_eq_some_iff.mp lastTooHigh_run
  have low : some (-20 : ℚ) ∈ out.map (·.altitude) := by
    rw [altitudes]
    simp
  exact ⟨lastTooHigh_order, out, found, List.mem_map.mp low⟩

theorem lastTooHigh_explained : InOrder lastTooHigh ∧
    ∃ out, ∃ filled : List (Report ℚ Unit),
      Chain.runAll WorkStep.apply altitudeWork lastTooHigh = some out ∧
      (∀ r ∈ out, r.altitude.isSome) ∧
      (6, -20) ∈ altitudes.altitudeOutliers filled ∧ altitudes.FallsPastZero filled 6 := by
  obtain ⟨out, found, altitudes⟩ := Option.map_eq_some_iff.mp lastTooHigh_run
  obtain ⟨known, filled, -, -, -, low, -⟩ := altitudeWork_spec lastTooHigh_order found
  have last : (out.map (·.altitude))[6]? = some (some (-20 : ℚ)) := by
    rw [altitudes]
    rfl
  rw [List.getElem?_map] at last
  obtain ⟨r, hr, ha⟩ := Option.map_eq_some_iff.mp last
  exact ⟨lastTooHigh_order, out, filled, found, known, low 6 r (-20) hr ha (by norm_num)⟩

end CleaningPlan

end AirTraffic
