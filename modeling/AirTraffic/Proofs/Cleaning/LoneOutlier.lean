import AirTraffic.Proofs.Fit.Quality
import AirTraffic.Proofs.Cleaning.Guarantees
import AirTraffic.Proofs.Cleaning.TrendOutlier

/-!
# A blip in even steps

In a level flight seen in even steps the neighbours of a blip are on a line that fits perfectly, and
with the blip it fits badly, wherever among them that stands. A line that has the blip among its
observations does not fit much worse for one more report, so that none of the others is flagged.
-/
namespace AirTraffic.TrendTest

open Scalar Report Observations

variable {α ρ : Type} [ExactScalar α]

section Even

variable {start step : Int} {reports : List (Report α ρ)} (even : EvenlySpaced start step reports)
  {i : Nat} {r : Report α ρ}

include even

theorem seconds_of_even (hr : reports[i]? = some r) {j : Nat} {q : Report α ρ}
    (hq : reports[j]? = some q) : (seconds r.time q.time : α) = step / 1000 * (j - i) := by
  rw [seconds_eq, even i r hr, even j q hq]
  push_cast
  ring

theorem offsets_at (hr : reports[i]? = some r) {places : List Nat}
    (inside : ∀ j ∈ places, j < reports.length) :
    offsets r (places.filterMap (reports[·]?)) =
      places.map fun j : Nat => (step / 1000 * (j - i) : α) := by
  rw [offsets, List.map_filterMap, ← List.filterMap_eq_map]
  refine List.filterMap_congr ?_
  intro j hj
  have found := List.getElem?_eq_getElem (inside j hj)
  rw [found, Option.map_some, seconds_of_even even hr found]
  rfl

theorem exists_window (forward : 0 < step) {others : List (Report α ρ)}
    (found : (altitudes : TrendTest α).neighbours? reports i = some (r, others)) :
    ∃ first, (nearest reports r.time 7).start = first ∧ first ≤ i ∧ i - first < 7 ∧
      (offsets r others ++ [0]).Perm (window (step / 1000 : α) (i - first : Nat)) := by
  obtain ⟨own, first, begins, after, before, stop, rfl⟩ :=
    exists_places (even.increase forward) altitudes found
  change i < first + 7 at before
  change first + 7 ≤ reports.length at stop
  refine ⟨first, begins, after, by omega, ?_⟩
  change (offsets r (((List.range' first 7).filter (· ≠ i)).filterMap (reports[·]?)) ++ [0]).Perm _
  have inside : ∀ j ∈ (List.range' first 7).filter (· ≠ i), j < reports.length := by
    intro j hj
    have := List.mem_range'_1.mp (List.mem_of_mem_filter hj)
    omega
  have here : (step / 1000 * ((i : α) - i) : α) = 0 := by rw [sub_self, mul_zero]
  have row : ((List.range' first 7).map fun j : Nat => (step / 1000 * (j - i) : α)) =
      window (step / 1000 : α) (i - first : Nat) := by
    rw [window, List.range'_eq_map_range, List.map_map]
    refine List.map_congr_left ?_
    intro j _
    rw [Function.comp_apply, Nat.cast_add, Nat.cast_sub after]
    ring
  have rearranged := filter_ne_append_perm (List.nodup_range' : (List.range' first 7).Nodup)
    (List.mem_range'_1.mpr ⟨after, before⟩)
  have mapped := rearranged.map fun j : Nat => (step / 1000 * (j - i) : α)
  rwa [List.map_append, List.map_singleton, here, row, ← offsets_at even own inside] at mapped

end Even

/-- A level flight in even steps, with a blip at one place. -/
structure Blip (start step : Int) (level deviation : α) (i : Nat) (reports : List (Report α ρ)) :
    Prop where
  even : EvenlySpaced start step reports
  inside : i < reports.length
  altitude : ∀ (j : Nat) (r : Report α ρ), reports[j]? = some r →
    r.altitude = some (if j = i then level + deviation else level)

theorem Blip.levelBut {start step : Int} {level deviation : α} {i : Nat}
    {reports : List (Report α ρ)}
    (blip : Blip start step level deviation i reports) {bump : Report α ρ}
    (hb : reports[i]? = some bump) : LevelBut level deviation bump reports := by
  constructor
  case member => exact List.mem_of_getElem? hb
  case deviates => rw [blip.altitude i bump hb, if_pos rfl]
  case others =>
    intro r hr apart
    obtain ⟨j, hj⟩ := List.getElem?_of_mem hr
    have elsewhere : j ≠ i := by
      rintro rfl
      exact apart (congrArg Report.time (Option.some.inj (hj.symm.trans hb)))
    rw [blip.altitude j r hj, if_neg elsewhere]

section Level

variable {reports : List (Report α ρ)} (increase : (times reports).Pairwise (· < ·))
  {level deviation : α} {bump : Report α ρ} (flat : LevelBut level deviation bump reports)
  {part : List (Report α ρ)} (listed : part ⊆ reports) (r : Report α ρ)

include increase flat listed

theorem fitQuality_of_present (deviates : deviation ≠ 0) (present : bump ∈ part)
    (distinct : (offsets r part).Nodup) (several : 2 ≤ part.length) :
    fitQuality (observe (·.altitude) r part) =
      bumpQuality (offsets r part) (seconds r.time bump.time : α) := by
  have spreads : spread (offsets r part) ≠ 0 := by
    refine (spread_pos distinct ?_).ne'
    rwa [offsets, List.length_map]
  have member : (seconds r.time bump.time : α) ∈ offsets r part := mem_offsets present
  rw [← length_of_level increase flat listed r] at several
  rw [← xs_of_level increase flat listed r] at spreads distinct member ⊢
  exact fitQuality_of_bump spreads several distinct member (bump_of_level increase flat listed r)
    deviates

end Level

theorem observe_own {r : Report α ρ} {altitude : α} (known : r.altitude = some altitude)
    (others : List (Report α ρ)) :
    observe (·.altitude) r others ++ [(zero, altitude)] =
      observe (·.altitude) r (others ++ [r]) := by
  simp [observe, known, seconds_self]

section Judged

variable {start step : Int} (forward : 0 < step) {level deviation : α} {i : Nat}
  {reports : List (Report α ρ)} (blip : Blip start step level deviation i reports)

include forward blip

section Fit

variable (deviates : deviation ≠ 0) {bump : Report α ρ} (hb : reports[i]? = some bump) {j : Nat}
  {r : Report α ρ} {others : List (Report α ρ)}
  (found : (altitudes : TrendTest α).neighbours? reports j = some (r, others))

include deviates hb found

theorem fitQuality_with (near : bump ∈ others ++ [r]) {altitude : α}
    (known : r.altitude = some altitude) :
    fitQuality (observe (·.altitude) r others ++ [(zero, altitude)]) =
      bumpQuality (offsets r others ++ [0]) (seconds r.time bump.time : α) := by
  have increase := blip.even.increase forward
  obtain ⟨own, before, after, rfl, around⟩ := exists_around increase altitudes found
  obtain ⟨first, -, -, -, whole⟩ := exists_window (α := α) blip.even forward found
  have listed : (before ++ after) ++ [r] ⊆ reports :=
    List.append_subset.mpr ⟨around.rest_sublist.subset, by simpa using List.mem_of_getElem? own⟩
  have offsets_own :
      offsets r ((before ++ after) ++ [r]) = offsets r (before ++ after) ++ [(0 : α)] := by
    rw [offsets, List.map_append, List.map_singleton, seconds_self]
    rfl
  have distinct := whole.nodup_iff.mpr (nodup_window (seconds_step_ne forward.ne'))
  have several := around.two_le
  rw [← offsets_own] at distinct ⊢
  rw [observe_own known]
  refine fitQuality_of_present increase (blip.levelBut hb) listed r deviates near distinct ?_
  rw [List.length_append]
  omega

theorem fitQuality_drop_le (present : bump ∈ others) {altitude : α}
    (known : r.altitude = some altitude) :
    fitQuality (observe (·.altitude) r others) -
      fitQuality (observe (·.altitude) r others ++ [(zero, altitude)]) ≤ 1 / 2 := by
  have increase := blip.even.increase forward
  rw [fitQuality_with forward blip deviates hb found (List.mem_append_left _ present) known]
  obtain ⟨own, before, after, rfl, around⟩ := exists_around increase altitudes found
  obtain ⟨first, -, -, near, whole⟩ := exists_window (α := α) blip.even forward found
  have moves : (step / 1000 : α) ≠ 0 := seconds_step_ne forward.ne'
  have member : (seconds r.time bump.time : α) ∈ window (step / 1000 : α) (j - first : Nat) :=
    whole.mem_iff.mp (List.mem_append_left _ (mem_offsets present))
  obtain ⟨p, hp, place⟩ := exists_place member
  rw [fitQuality_of_present increase (blip.levelBut hb) around.rest_sublist.subset r deviates
    present (around.offsets_distinct increase) around.two_le, place]
  exact bumpQuality_drop_le whole moves hp (abs_place_le near)

end Fit

theorem fitQuality_own_le (deviates : deviation ≠ 0) {r : Report α ρ} {others : List (Report α ρ)}
    (found : (altitudes : TrendTest α).neighbours? reports i = some (r, others)) :
    fitQuality (observe (·.altitude) r others ++ [(zero, level + deviation)]) ≤ 3 / 8 := by
  obtain ⟨first, -, -, near, whole⟩ := exists_window (α := α) blip.even forward found
  have own := (mem_of_neighbours? altitudes found).1
  have known := blip.altitude i r own
  rw [if_pos rfl] at known
  have here :
      (seconds r.time r.time : α) = step / 1000 * ((i - first : Nat) - (i - first : Nat)) := by
    rw [seconds_self, sub_self, mul_zero]
  have place : |((i - first : Nat) : α) - 3| ≤ 3 := abs_place_le near
  have few := sq_le_sq' (neg_le_of_abs_le place) (le_of_abs_le place)
  rw [fitQuality_with forward blip deviates own found (by simp) known, here,
    bumpQuality_seven whole (seconds_step_ne forward.ne')]
  linarith

section Large

variable (large : 300 < |deviation|)

include large

/-- The blip is told by the line that does not know of it. -/
theorem judged_at_blip {r : Report α ρ} {others : List (Report α ρ)}
    (found : (altitudes : TrendTest α).neighbours? reports i = some (r, others)) :
    (altitudes : TrendTest α).altitudeOnTrend? r (level + deviation) others = some level := by
  have increase := blip.even.increase forward
  have deviates : deviation ≠ 0 := abs_pos.mp (lt_trans (by norm_num) large)
  have badly := fitQuality_own_le forward blip deviates found
  obtain ⟨own, before, after, rfl, around⟩ := exists_around increase altitudes found
  have flat := blip.levelBut own
  have absent : r ∉ before ++ after := fun present => around.time_ne increase present rfl
  have without : fitQuality (observe (·.altitude) r (before ++ after)) = 1 :=
    fitQuality_of_level (level_of_absent increase flat around.rest_sublist.subset r absent)
  obtain ⟨half, least⟩ := altitudes_limits (α := α)
  rw [altitudeOnTrend?_of_predict _ _ (predict?_of_absent increase flat around absent), if_pos]
  rw [without, half, least, sub_add_cancel_left, abs_neg]
  refine ⟨?_, large⟩
  linarith

/-- The others are not flagged, however far it is off. -/
theorem judged_elsewhere {j : Nat} (apart : j ≠ i) {r : Report α ρ} {others : List (Report α ρ)}
    (found : (altitudes : TrendTest α).neighbours? reports j = some (r, others)) :
    (altitudes : TrendTest α).altitudeOnTrend? r level others = none := by
  have increase := blip.even.increase forward
  have deviates : deviation ≠ 0 := abs_pos.mp (lt_trans (by norm_num) large)
  obtain ⟨bump, hb⟩ : ∃ bump, reports[i]? = some bump := ⟨_, List.getElem?_eq_getElem blip.inside⟩
  have flat := blip.levelBut hb
  obtain ⟨half, least⟩ := altitudes_limits (α := α)
  obtain ⟨own, before, after, rfl, around⟩ := exists_around increase altitudes found
  have known := blip.altitude j r own
  rw [if_neg apart] at known
  by_cases present : bump ∈ before ++ after
  · have drop := fitQuality_drop_le forward blip deviates hb found present known
    rw [altitudeOnTrend?_of_predict _ _ (predict?_of_present increase flat around present), if_neg]
    rw [half]
    exact fun flagged => absurd flagged.1 (not_lt.mpr drop)
  · rw [altitudeOnTrend?_of_predict _ _ (predict?_of_absent increase flat around present), if_neg]
    rw [least, sub_self, abs_zero]
    intro flagged
    linarith [flagged.2]

variable (long : 7 ≤ reports.length)

include long

theorem correctedAltitude?_of_blip {j : Nat} (hj : j < reports.length) :
    (altitudes : TrendTest α).correctedAltitude? reports j =
      if j = i then some level else none := by
  have order := inOrder_of_increase (blip.even.increase forward)
  obtain ⟨others, found⟩ := exists_neighbours (altitudes : TrendTest α) order long hj
  have known := blip.altitude j _ (List.getElem?_eq_getElem hj)
  rw [correctedAltitude?_eq _ hj, known, found]
  by_cases here : j = i
  · subst here
    rw [if_pos rfl, if_pos rfl]
    exact judged_at_blip forward blip large found
  · rw [if_neg here, if_neg here]
    exact judged_elsewhere forward blip large here found

/-- Wherever a blip of more than three hundred feet stands in a level flight of seven or more
reports in even steps, it is brought back to the level, and it alone. -/
theorem outliers_of_blip :
    (altitudes : TrendTest α).altitudeOutliers reports = [(i, level)] ∧
      (altitudes : TrendTest α).correctAltitudes reports =
        reports.map fun r => r.withAltitude (some level) := by
  constructor
  · have judged : ∀ j ∈ List.range reports.length,
        ((altitudes : TrendTest α).correctedAltitude? reports j).map (j, ·) =
          (Option.guard (· = i) j).map (·, level) := by
      intro j hj
      rw [correctedAltitude?_of_blip forward blip large long (List.mem_range.mp hj), Option.guard]
      by_cases here : j = i
      · simp [here]
      · simp [here]
    rw [altitudeOutliers, List.filterMap_congr judged, ← List.map_filterMap,
      List.filterMap_eq_filter, List.filter_eq,
      List.count_eq_one_of_mem List.nodup_range (List.mem_range.mpr blip.inside)]
    rfl
  · refine List.ext_getElem? ?_
    intro j
    rw [getElem?_correctAltitudes, List.getElem?_map]
    by_cases hj : j < reports.length
    · have known := blip.altitude j _ (List.getElem?_eq_getElem hj)
      rw [correctedAltitude?_of_blip forward blip large long hj, List.getElem?_eq_getElem hj]
      by_cases here : j = i
      · rw [if_pos here]
        rfl
      · rw [if_neg here] at known ⊢
        exact congrArg some (withAltitude_self known).symm
    · rw [List.getElem?_eq_none (Nat.not_lt.mp hj)]
      rfl

end Large

end Judged

def spike : List (Report ℚ Unit) :=
  (List.range 9).map fun j : Nat =>
    Track.aboveEquator (4000 * j, if j = 0 then 5000 + 1000000 else 5000)

theorem spike_blip : Blip 0 4000 5000 1000000 0 spike := by
  have made {j : Nat} {r : Report ℚ Unit} (hr : spike[j]? = some r) :
      Track.aboveEquator (4000 * j, if j = 0 then 5000 + 1000000 else 5000) = r := by
    rw [spike, List.getElem?_map] at hr
    obtain ⟨k, hk, same⟩ := Option.map_eq_some_iff.mp hr
    obtain ⟨hj, rfl⟩ := List.getElem?_eq_some_iff.mp hk
    rw [List.getElem_range] at same
    exact same
  constructor
  case even =>
    intro j r hr
    rw [← made hr]
    exact (Int.zero_add _).symm
  case inside => decide
  case altitude =>
    intro j r hr
    rw [← made hr]
    rfl

theorem spike_corrected : (0 : Int) < 4000 ∧ Blip 0 4000 5000 1000000 0 spike ∧
    300 < |(1000000 : ℚ)| ∧ 7 ≤ spike.length ∧
    altitudes.altitudeOutliers spike = [(0, 5000)] ∧
      altitudes.correctAltitudes spike = spike.map fun r => r.withAltitude (some 5000) := by
  have large : 300 < |(1000000 : ℚ)| := by norm_num
  have long : 7 ≤ spike.length := by decide
  exact ⟨by decide, spike_blip, large, long, outliers_of_blip (by decide) spike_blip large long⟩

end AirTraffic.TrendTest
