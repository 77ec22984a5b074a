import AirTraffic.Proofs.Basic
import AirTraffic.Proofs.Fit.Line
import AirTraffic.Proofs.InPlace.TrendOutlier
import AirTraffic.Proofs.Track.Nearest

/-!
# One deviation in a level flight

A report with neighbours on both sides lies between two observations of the line that judges it, so
that a deviation among these moves the line there by no more than itself. Reports at an end of their
neighbourhood are beyond the line, which can lead from a deviation to an error greater than that.
-/
namespace AirTraffic

open Scalar Report

variable {α ρ : Type}

/-- What stands around a report in its neighbourhood. -/
structure TrendTest.Around (test : TrendTest α) (reports : List (Report α ρ)) (r : Report α ρ)
    (before after : List (Report α ρ)) : Prop where
  together : before ++ r :: after <:+: reports
  full : before.length + after.length + 1 = test.sampleSize

theorem TrendTest.Around.rest_sublist {test : TrendTest α} {reports : List (Report α ρ)}
    {r : Report α ρ} {before after : List (Report α ρ)}
    (around : test.Around reports r before after) : (before ++ after).Sublist reports :=
  ((List.sublist_cons_self r after).append_left before).trans around.together.sublist

theorem TrendTest.exists_neighbours (test : TrendTest α) {reports : List (Report α ρ)}
    (order : InOrder reports) (long : test.sampleSize ≤ reports.length) {i : Nat}
    (hi : i < reports.length) :
    ∃ others, test.neighbours? reports i = some (reports[i], others) := by
  have full := (nearest_length order reports[i].time test.sampleSize).ge
  rw [neighbours?_eq test hi, if_pos ((Nat.le_min.mpr ⟨le_rfl, long⟩).trans full)]
  exact ⟨_, rfl⟩

theorem TrendTest.mem_of_neighbours? (test : TrendTest α) {reports : List (Report α ρ)} {i : Nat}
    {r : Report α ρ} {others : List (Report α ρ)}
    (found : test.neighbours? reports i = some (r, others)) :
    reports[i]? = some r ∧ ∀ q ∈ others, q ∈ reports := by
  by_cases hi : i < reports.length
  · rw [neighbours?_eq test hi] at found
    obtain ⟨-, same⟩ := Option.ite_none_right_eq_some.mp found
    obtain ⟨rfl, rfl⟩ := Prod.mk.inj (Option.some.inj same)
    refine ⟨List.getElem?_eq_getElem hi, ?_⟩
    intro q hq
    obtain ⟨j, -, hj⟩ := List.mem_filterMap.mp hq
    exact List.mem_of_getElem? hj
  · have missing : reports[i]? = none := List.getElem?_eq_none (Nat.not_lt.mp hi)
    rw [neighbours?, missing] at found
    cases found

section Around

variable {reports : List (Report α ρ)} (increase : (times reports).Pairwise (· < ·))

include increase

theorem TrendTest.exists_places (test : TrendTest α) {i : Nat} {r : Report α ρ}
    {others : List (Report α ρ)} (found : test.neighbours? reports i = some (r, others)) :
    reports[i]? = some r ∧ ∃ first, (nearest reports r.time test.sampleSize).start = first ∧
      first ≤ i ∧ i < first + test.sampleSize ∧ first + test.sampleSize ≤ reports.length ∧
      others = ((List.range' first test.sampleSize).filter (· ≠ i)).filterMap (reports[·]?) := by
  have own := (mem_of_neighbours? test found).1
  obtain ⟨hi, rfl⟩ := List.getElem?_eq_some_iff.mp own
  rw [neighbours?_eq test hi] at found
  obtain ⟨full, same⟩ := Option.ite_none_right_eq_some.mp found
  obtain ⟨-, rfl⟩ := Prod.mk.inj (Option.some.inj same)
  have some : 0 < test.sampleSize := Nat.lt_of_lt_of_le (by decide) test.sampleSize_ge
  have size := nearest_length (inOrder_of_increase increase) reports[i].time test.sampleSize
  have length : (nearest reports reports[i].time test.sampleSize).length = test.sampleSize := by
    omega
  have stop := InPlace.stretch_stop_le (times reports) reports[i].time test.sampleSize
  rw [Stretch.stop, ← nearest, length, times, List.length_map] at stop
  obtain ⟨after, before⟩ := mem_indices.mp (own_mem_nearest increase hi some)
  rw [Stretch.stop, length] at before
  refine ⟨own, _, rfl, after, before, stop, ?_⟩
  rw [Stretch.indices, length]

theorem TrendTest.exists_around (test : TrendTest α) {i : Nat} {r : Report α ρ}
    {others : List (Report α ρ)} (found : test.neighbours? reports i = some (r, others)) :
    reports[i]? = some r ∧
      ∃ before after, others = before ++ after ∧ test.Around reports r before after := by
  obtain ⟨own, first, -, after, before, stop, rfl⟩ := exists_places increase test found
  obtain ⟨early, late, split⟩ := List.append_of_mem (List.mem_range'_1.mpr ⟨after, before⟩)
  have distinct : (early ++ i :: late).Nodup := by
    rw [← split]
    exact List.nodup_range'
  have whole : early.filterMap (reports[·]?) ++ r :: late.filterMap (reports[·]?) =
      (Stretch.mk first test.sampleSize).slice reports := by
    rw [← Stretch.filterMap_indices, Stretch.indices, split, List.filterMap_append,
      List.filterMap_cons_some own]
  have length := congrArg List.length whole
  rw [Stretch.slice, List.length_append, List.length_cons, List.length_take, List.length_drop]
    at length
  dsimp only at length
  refine ⟨own, early.filterMap (reports[·]?), late.filterMap (reports[·]?), ?_, ?_, ?_⟩
  · rw [split, filter_ne_middle distinct, List.filterMap_append]
  · rw [whole]
    exact Stretch.slice_infix _ reports
  · omega

theorem TrendTest.Around.sides {test : TrendTest α} {r : Report α ρ}
    {before after : List (Report α ρ)} (around : test.Around reports r before after) :
    (∀ q ∈ before, q.time < r.time) ∧ ∀ q ∈ after, r.time < q.time := by
  have part : (before ++ r :: after).Pairwise fun p q => p.time < q.time :=
    (List.pairwise_map.mp increase).sublist around.together.sublist
  obtain ⟨-, tail, across⟩ := List.pairwise_append.mp part
  exact ⟨fun q hq => across q hq r List.mem_cons_self, (List.pairwise_cons.mp tail).1⟩

theorem TrendTest.Around.time_ne {test : TrendTest α} {r q : Report α ρ}
    {before after : List (Report α ρ)} (around : test.Around reports r before after)
    (hq : q ∈ before ++ after) : q.time ≠ r.time := by
  obtain ⟨earlier, later⟩ := around.sides increase
  rcases List.mem_append.mp hq with early | late
  · exact (earlier q early).ne
  · exact (later q late).ne'

end Around

namespace TrendTest

variable [ExactScalar α]

theorem seconds_eq (origin t : Int) : (seconds origin t : α) = ((t - origin : Int) : α) / 1000 :=
  ExactScalar.ofInt_div_msPerSecond (t - origin)

theorem seconds_strictMono (origin : Int) : StrictMono (seconds origin : Int → α) := by
  intro t u before
  rw [seconds_eq, seconds_eq]
  have : ((t - origin : Int) : α) < ((u - origin : Int) : α) := Int.cast_lt.mpr (by omega)
  exact div_lt_div_of_pos_right this (by norm_num)

/-- The reports on the axis of another one. -/
def offsets (r : Report α ρ) (others : List (Report α ρ)) : List α :=
  others.map fun q => seconds r.time q.time

theorem mem_offsets {r q : Report α ρ} {others : List (Report α ρ)} (hq : q ∈ others) :
    (seconds r.time q.time : α) ∈ offsets r others := List.mem_map.mpr ⟨q, hq, rfl⟩

theorem seconds_self (origin : Int) : (seconds origin origin : α) = 0 := by
  rw [seconds_eq, sub_self, Int.cast_zero, zero_div]

theorem seconds_step_ne {step : Int} (moves : step ≠ 0) : (step / 1000 : α) ≠ 0 :=
  div_ne_zero (Int.cast_ne_zero.mpr moves) (by norm_num)

theorem seconds_of_chain {step t : Int} {ts : List Int}
    (even : (t :: ts).IsChain fun t u => u = t + step) :
    ts.map (seconds t) = Observations.steps (step / 1000 : α) ts.length := by
  have instants : ts = (List.range ts.length).map fun j : Nat => t + step * (j + 1) := by
    induction ts generalizing t with
    | nil => rfl
    | cons u ts ih =>
      obtain ⟨rfl, even⟩ := List.isChain_cons_cons.mp even
      rw [List.length_cons, List.range_succ_eq_map, List.map_cons, List.map_map]
      refine congrArg₂ List.cons (by simp) ((ih even).trans (List.map_congr_left ?_))
      intro j _
      rw [Function.comp_apply]
      push_cast
      ring
  rw [Observations.steps]
  conv_lhs => rw [instants]
  rw [List.map_map]
  refine List.map_congr_left ?_
  intro j _
  rw [Function.comp_apply, seconds_eq]
  push_cast
  ring

section Offsets

variable {test : TrendTest α} {reports : List (Report α ρ)} {r : Report α ρ}
  {before after : List (Report α ρ)} (around : test.Around reports r before after)

include around

omit [ExactScalar α] in
theorem Around.two_le : 2 ≤ (before ++ after).length := by
  have full := around.full
  have least := test.sampleSize_ge
  rw [List.length_append]
  omega

variable (increase : (times reports).Pairwise (· < ·))

include increase

theorem Around.offsets_distinct : (offsets r (before ++ after)).Nodup := by
  have rest := (List.pairwise_map.mp increase).sublist around.rest_sublist
  rw [offsets, List.Nodup, List.pairwise_map]
  exact rest.imp fun earlier => (seconds_strictMono r.time earlier).ne

theorem Around.offsets_spread : Observations.spread (offsets r (before ++ after)) ≠ 0 := by
  refine (Observations.spread_pos (around.offsets_distinct increase) ?_).ne'
  rw [offsets, List.length_map]
  exact around.two_le

theorem Around.end_of_leverage {b : α} (hb : b ∈ offsets r (before ++ after))
    (counts : 1 < |Observations.leverage (offsets r (before ++ after)) b 0|) :
    before = [] ∨ after = [] := by
  obtain ⟨earlier, later⟩ := around.sides increase
  by_contra both
  obtain ⟨some, more⟩ := not_or.mp both
  obtain ⟨p, hp⟩ := List.exists_mem_of_ne_nil before some
  obtain ⟨q, hq⟩ := List.exists_mem_of_ne_nil after more
  have lo := seconds_strictMono (α := α) r.time (earlier p hp)
  have hi := seconds_strictMono (α := α) r.time (later q hq)
  rw [seconds_self] at lo hi
  have once := Observations.abs_leverage_le_one_of_between (around.offsets_spread increase) hb
    (mem_offsets (List.mem_append_left after hp)) (mem_offsets (List.mem_append_right before hq))
    lo.le hi.le
  exact absurd counts (not_lt.mpr once)

omit increase in
theorem Around.offsets_of_even {step : Int} (moves : step ≠ 0)
    (even : (times reports).IsChain fun t u => u = t + step) (ends : before = [] ∨ after = []) :
    ∃ unit : α, unit ≠ 0 ∧ (offsets r (before ++ after)).Perm
      (Observations.steps unit (before ++ after).length) := by
  have part := even.infix (around.together.map time)
  rcases ends with rfl | rfl
  · refine ⟨step / 1000, seconds_step_ne moves, ?_⟩
    have ahead := seconds_of_chain (α := α) part
    rw [List.map_map, List.length_map] at ahead
    exact .of_eq ahead
  · refine ⟨(-step : Int) / 1000, seconds_step_ne (neg_ne_zero.mpr moves), ?_⟩
    have reversed : (times (before ++ [r])).reverse.IsChain fun t u => u = t + -step := by
      refine List.isChain_reverse.mpr (part.imp ?_)
      intro t u next
      omega
    rw [times, List.map_append, List.reverse_append, List.map_singleton, List.reverse_singleton,
      List.singleton_append] at reversed
    have back := seconds_of_chain (α := α) reversed
    rw [List.append_nil, offsets, ← List.length_map, ← List.length_reverse, ← back,
      List.map_reverse, List.map_map]
    exact (List.reverse_perm _).symm

end Offsets

end TrendTest

/-- All altitudes are the same but for that of one report. -/
structure LevelBut [ExactScalar α] (level deviation : α) (bump : Report α ρ)
    (reports : List (Report α ρ)) : Prop where
  member : bump ∈ reports
  deviates : bump.altitude = some (level + deviation)
  others : ∀ r ∈ reports, r.time ≠ bump.time → r.altitude = some level

namespace TrendTest

section Level

variable [ExactScalar α] {test : TrendTest α} {reports : List (Report α ρ)}
  (increase : (times reports).Pairwise (· < ·)) {level deviation : α} {bump : Report α ρ}
  (flat : LevelBut level deviation bump reports)

include increase flat

theorem altitude_of_level {r : Report α ρ} (hr : r ∈ reports) :
    r.altitude = some (if r.time = bump.time then level + deviation else level) := by
  by_cases same : r.time = bump.time
  · rw [eq_of_time_eq increase hr flat.member same, if_pos rfl]
    exact flat.deviates
  · rw [if_neg same]
    exact flat.others r hr same

section Part

variable {part : List (Report α ρ)} (listed : part ⊆ reports) (r : Report α ρ)

include listed

theorem observe_of_level : observe (·.altitude) r part = part.map fun q =>
    (seconds r.time q.time, if q.time = bump.time then level + deviation else level) := by
  rw [observe, ← List.filterMap_eq_map]
  refine List.filterMap_congr ?_
  intro q hq
  rw [altitude_of_level increase flat (listed hq)]
  rfl

theorem xs_of_level : Observations.xs (observe (·.altitude) r part) = offsets r part := by
  rw [observe_of_level increase flat listed, Observations.xs, List.map_map]
  rfl

theorem level_of_absent (absent : bump ∉ part) :
    ∀ p ∈ observe (·.altitude) r part, p.2 = level := by
  rw [observe_of_level increase flat listed]
  refine List.forall_mem_map.mpr ?_
  intro q hq
  have apart : q.time ≠ bump.time := by
    intro same
    rw [eq_of_time_eq increase (listed hq) flat.member same] at hq
    exact absent hq
  exact if_neg apart

theorem bump_of_level : ∀ p ∈ observe (·.altitude) r part,
    p.2 = if p.1 = seconds r.time bump.time then level + deviation else level := by
  rw [observe_of_level increase flat listed]
  refine List.forall_mem_map.mpr ?_
  intro q _
  simp only [(seconds_strictMono r.time).injective.eq_iff]

theorem length_of_level : (observe (·.altitude) r part).length = part.length := by
  rw [observe_of_level increase flat listed, List.length_map]

end Part

variable {r : Report α ρ} {before after : List (Report α ρ)}
  (around : test.Around reports r before after)

include around

theorem predict?_of_absent (absent : bump ∉ before ++ after) :
    Observations.predict? (observe (·.altitude) r (before ++ after)) zero = some level := by
  have listed := around.rest_sublist.subset
  have spreads := around.offsets_spread increase
  have several := around.two_le
  rw [← xs_of_level increase flat listed] at spreads
  rw [← length_of_level increase flat listed r] at several
  exact Observations.predict?_of_level spreads several
    (level_of_absent increase flat listed r absent) _

theorem predict?_of_present (present : bump ∈ before ++ after) :
    Observations.predict? (observe (·.altitude) r (before ++ after)) zero =
      some (level + deviation *
        Observations.leverage (offsets r (before ++ after)) (seconds r.time bump.time) 0) := by
  have listed := around.rest_sublist.subset
  have spreads := around.offsets_spread increase
  have several := around.two_le
  have distinct := around.offsets_distinct increase
  have member : (seconds r.time bump.time : α) ∈ offsets r (before ++ after) := mem_offsets present
  rw [← xs_of_level increase flat listed] at spreads distinct member
  rw [← length_of_level increase flat listed r] at several
  rw [← xs_of_level increase flat listed, ← ExactScalar.zero_eq]
  exact Observations.predict?_of_bump spreads several distinct member
    (bump_of_level increase flat listed r) _

end Level

section Outliers

variable [Scalar α] (test : TrendTest α) (reports : List (Report α ρ))

variable {reports} in
theorem lt_of_corrected {i : Nat} {a : α} (corrected : test.correctedAltitude? reports i = some a) :
    i < reports.length := by
  by_contra beyond
  have missing : reports[i]? = none := List.getElem?_eq_none (Nat.not_lt.mp beyond)
  rw [correctedAltitude?, missing] at corrected
  cases corrected

theorem mem_altitudeOutliers {i : Nat} {a : α} :
    (i, a) ∈ test.altitudeOutliers reports ↔ test.correctedAltitude? reports i = some a := by
  rw [altitudeOutliers, List.mem_filterMap]
  constructor
  · rintro ⟨j, -, found⟩
    obtain ⟨b, corrected, same⟩ := Option.map_eq_some_iff.mp found
    obtain ⟨rfl, rfl⟩ := Prod.mk.inj same
    exact corrected
  · intro corrected
    have inside := lt_of_corrected test corrected
    exact ⟨i, List.mem_range.mpr inside, congrArg (Option.map (i, ·)) corrected⟩

theorem getElem?_correctAltitudes (i : Nat) :
    (test.correctAltitudes reports)[i]? = reports[i]?.map fun r =>
      (test.correctedAltitude? reports i).elim r fun a => r.withAltitude (some a) := by
  rw [correctAltitudes, List.getElem?_map, List.getElem?_zipIdx, Nat.zero_add]
  cases reports[i]? with
  | none => rfl
  | some r =>
    simp only [Option.map_some]
    cases test.correctedAltitude? reports i with
    | none => rfl
    | some a => rfl

end Outliers

section Flagged

variable [ExactScalar α] (test : TrendTest α) {reports : List (Report α ρ)}
  (increase : (times reports).Pairwise (· < ·))

include increase

omit increase in
theorem altitudeOnTrend?_of_predict {candidate : Report α ρ} (altitude : α) {predicted : α}
    {others : List (Report α ρ)}
    (line : Observations.predict? (observe (·.altitude) candidate others) zero = some predicted) :
    test.altitudeOnTrend? candidate altitude others =
      if test.fitDrop < Observations.fitQuality (observe (·.altitude) candidate others) -
          Observations.fitQuality (observe (·.altitude) candidate others ++ [(zero, altitude)]) ∧
        test.minimumError < |predicted - altitude| then some predicted else none := by
  rw [altitudeOnTrend?, line]
  simp only [Option.filter_some, ExactScalar.isFinite_eq, if_true, ExactScalar.abs_eq,
    Option.bind_eq_bind, Option.bind_some, guard]
  split
  · rfl
  · rfl

omit increase in
theorem altitudeOnTrend?_cases {candidate : Report α ρ} {altitude a : α}
    {others : List (Report α ρ)}
    (corrected : test.altitudeOnTrend? candidate altitude others = some a) :
    Observations.predict? (observe (·.altitude) candidate others) zero = some a ∧
      test.minimumError < |a - altitude| := by
  obtain ⟨predicted, hp, -⟩ := Option.bind_eq_some_iff.mp corrected
  obtain ⟨line, -⟩ := Option.filter_eq_some_iff.mp hp
  rw [altitudeOnTrend?_of_predict test altitude line] at corrected
  obtain ⟨judged, same⟩ := Option.ite_none_right_eq_some.mp corrected
  obtain rfl := Option.some.inj same
  exact ⟨line, judged.2⟩

omit increase in
theorem exists_of_flagged {i : Nat} {a : α} (flagged : (i, a) ∈ test.altitudeOutliers reports) :
    ∃ r altitude others, reports[i]? = some r ∧ r.altitude = some altitude ∧
      test.neighbours? reports i = some (r, others) ∧
      Observations.predict? (observe (·.altitude) r others) zero = some a ∧
      test.minimumError < |a - altitude| := by
  have corrected := (mem_altitudeOutliers test reports).mp flagged
  have inside := lt_of_corrected test corrected
  rw [correctedAltitude?_eq test inside] at corrected
  obtain ⟨altitude, known, corrected⟩ := Option.bind_eq_some_iff.mp corrected
  obtain ⟨⟨r, others⟩, near, corrected⟩ := Option.bind_eq_some_iff.mp corrected
  have own := (mem_of_neighbours? test near).1
  rw [List.getElem?_eq_getElem inside] at own
  obtain rfl := Option.some.inj own
  obtain ⟨predicts, far⟩ := altitudeOnTrend?_cases test corrected
  exact ⟨_, altitude, others, List.getElem?_eq_getElem inside, known, near, predicts, far⟩

variable {level deviation : α} {bump : Report α ρ} (flat : LevelBut level deviation bump reports)
  (small : |deviation| ≤ test.minimumError)

include flat small

/-- Where a small deviation has an effect, it counts more than once, and so at an end. -/
theorem leverage_of_flagged {i : Nat} {a : α} (flagged : (i, a) ∈ test.altitudeOutliers reports) :
    ∃ r before after, test.neighbours? reports i = some (r, before ++ after) ∧
      test.Around reports r before after ∧ r ≠ bump ∧ bump ∈ before ++ after ∧
      test.minimumError < |a - level| ∧ (before = [] ∨ after = []) ∧
      1 < |Observations.leverage (offsets r (before ++ after))
        (seconds r.time bump.time : α) 0| := by
  obtain ⟨r, altitude, others, hr, known, near, predicts, far⟩ := exists_of_flagged test flagged
  obtain ⟨-, before, after, rfl, around⟩ := exists_around increase test near
  have own : altitude = if r.time = bump.time then level + deviation else level := by
    rw [altitude_of_level increase flat (List.mem_of_getElem? hr)] at known
    exact (Option.some.inj known).symm
  by_cases present : bump ∈ before ++ after
  · have apart : r.time ≠ bump.time := (around.time_ne increase present).symm
    rw [predict?_of_present increase flat around present] at predicts
    obtain rfl := Option.some.inj predicts
    rw [if_neg apart] at own
    rw [own] at far
    have counts :
        1 < |Observations.leverage (offsets r (before ++ after))
          (seconds r.time bump.time : α) 0| := by
      by_contra once
      rw [add_sub_cancel_left, abs_mul] at far
      have less := mul_le_of_le_one_right (abs_nonneg deviation) (not_lt.mp once)
      exact absurd far (not_lt.mpr (less.trans small))
    exact ⟨r, before, after, near, around, fun same => apart (congrArg time same), present, far,
      around.end_of_leverage increase (mem_offsets present) counts, counts⟩
  · rw [predict?_of_absent increase flat around present] at predicts
    obtain rfl := Option.some.inj predicts
    have close : |level - altitude| ≤ |deviation| := by
      rw [own]
      split
      · rw [sub_add_cancel_left, abs_neg]
      · rw [sub_self, abs_zero]
        exact abs_nonneg deviation
    exact absurd far (not_lt.mpr (close.trans small))

/-- In a level flight no outlier is the report that deviates, if not by more than the least error.
All are at an end of a neighbourhood with the deviation in it, and are corrected to what is farther
off. If reports are evenly spaced and neighbourhoods not too small there are none. -/
theorem outliers_of_small_deviation :
    (∀ p ∈ test.altitudeOutliers reports, ∃ r others,
      test.neighbours? reports p.1 = some (r, others) ∧ r ≠ bump ∧ bump ∈ others ∧
      ((∀ q ∈ others, r.time < q.time) ∨ ∀ q ∈ others, q.time < r.time) ∧
      test.minimumError < |p.2 - level|) ∧
    ∀ step, 0 < step → ((times reports).IsChain fun t u => u = t + step) → 5 ≤ test.sampleSize →
      test.altitudeOutliers reports = [] := by
  constructor
  · rintro ⟨i, a⟩ flagged
    obtain ⟨r, before, after, near, around, other, present, far, ends, -⟩ :=
      leverage_of_flagged test increase flat small flagged
    obtain ⟨earlier, later⟩ := around.sides increase
    refine ⟨r, before ++ after, near, other, present, ?_, far⟩
    rcases ends with rfl | rfl
    · exact Or.inl later
    · rw [List.append_nil]
      exact Or.inr earlier
  · intro step forward even size
    refine List.eq_nil_iff_forall_not_mem.mpr ?_
    rintro ⟨i, a⟩ flagged
    obtain ⟨r, before, after, -, around, -, present, -, ends, counts⟩ :=
      leverage_of_flagged test increase flat small flagged
    obtain ⟨unit, moves, perm⟩ := around.offsets_of_even (α := α) forward.ne' even ends
    obtain ⟨j, hj, same⟩ := List.mem_map.mp (perm.mem_iff.mp (mem_offsets present))
    have four : 4 ≤ (before ++ after).length := by
      have full := around.full
      rw [List.length_append]
      omega
    have once := Observations.abs_leverage_steps_le_one moves four (List.mem_range.mp hj)
    rw [Observations.leverage_perm perm, ← same] at counts
    exact absurd counts (not_lt.mpr once)

end Flagged

theorem altitudes_limits [ExactScalar α] :
    (altitudes : TrendTest α).fitDrop = 1 / 2 ∧ (altitudes : TrendTest α).minimumError = 300 := by
  rw [altitudes, ExactScalar.ofDecimal_eq, ExactScalar.ofInt_eq]
  constructor
  · norm_num
  · norm_num

theorem ofLimits_standard [ExactScalar α] :
    ofLimits 7 (ofDecimal 5 1) (ofInt 300) = .ok (altitudes : TrendTest α) := by
  have half : (0 : α) ≤ 5 / 10 ∧ (5 / 10 : α) ≤ 1 := by
    constructor
    · norm_num
    · norm_num
  simp [ofLimits, altitudes, half]

def tooHigh : Report ℚ Unit := Track.aboveEquator (4000, 5300)

def flightWithGap (gap : Int) : List (Report ℚ Unit) :=
  Track.aboveEquator (0, 5000) :: tooHigh ::
    ([0, 4000, 8000, 12000, 16000].map fun t => Track.aboveEquator (4000 + gap + t, 5000))

theorem flightWithGap_level (gap : Int) : LevelBut 5000 300 tooHigh (flightWithGap gap) := by
  constructor
  case member => exact List.mem_cons_of_mem _ List.mem_cons_self
  case deviates =>
    have sum : (5300 : ℚ) = 5000 + 300 := by norm_num
    exact congrArg some sum
  case others =>
    refine List.forall_mem_cons.mpr ⟨fun _ => rfl, List.forall_mem_cons.mpr ⟨?_, ?_⟩⟩
    · intro apart
      exact absurd rfl apart
    · exact List.forall_mem_map.mpr fun t _ _ => rfl

theorem standard_small : |(300 : ℚ)| ≤ altitudes.minimumError := by
  decide +kernel

theorem flightWithGap_outliers :
    altitudes.altitudeOutliers (flightWithGap 40000) = [(0, 5000 + 300 * (79 / 78))] := by
  decide +kernel

/-- The line through the reports after a gap of forty seconds and the one before it that is too high
leads on upward, past the first report. -/
theorem level_report_flagged :
    ofLimits 7 (ofDecimal 5 1) (ofInt 300) = .ok (altitudes : TrendTest ℚ) ∧
      (times (flightWithGap 40000)).Pairwise (· < ·) ∧
      LevelBut 5000 300 tooHigh (flightWithGap 40000) ∧ |(300 : ℚ)| ≤ altitudes.minimumError ∧
      altitudes.altitudeOutliers (flightWithGap 40000) = [(0, 5000 + 300 * (79 / 78))] :=
  ⟨ofLimits_standard, by decide, flightWithGap_level 40000, standard_small, flightWithGap_outliers⟩

/-- After the gap of forty seconds the first report is flagged, after one of four seconds none. -/
theorem flightWithGap_judged :
    |(300 : ℚ)| ≤ altitudes.minimumError ∧
    ((times (flightWithGap 40000)).Pairwise (· < ·) ∧
      LevelBut 5000 300 tooHigh (flightWithGap 40000) ∧
      ∃ p ∈ altitudes.altitudeOutliers (flightWithGap 40000), ∃ r others,
        altitudes.neighbours? (flightWithGap 40000) p.1 = some (r, others) ∧ r ≠ tooHigh ∧
        tooHigh ∈ others ∧ ((∀ q ∈ others, r.time < q.time) ∨ ∀ q ∈ others, q.time < r.time) ∧
        altitudes.minimumError < |p.2 - 5000|) ∧
    (times (flightWithGap 4000)).Pairwise (· < ·) ∧ LevelBut 5000 300 tooHigh (flightWithGap 4000) ∧
      ((times (flightWithGap 4000)).IsChain fun t u => u = t + 4000) ∧
      altitudes.altitudeOutliers (flightWithGap 4000) = [] := by
  have increase : (times (flightWithGap 40000)).Pairwise (· < ·) := by decide
  have increase' : (times (flightWithGap 4000)).Pairwise (· < ·) := by decide
  have even : (times (flightWithGap 4000)).IsChain fun t u => u = t + 4000 := by decide
  have level := flightWithGap_level 40000
  have level' := flightWithGap_level 4000
  obtain ⟨flagged, -⟩ := outliers_of_small_deviation altitudes increase level standard_small
  obtain ⟨-, none⟩ := outliers_of_small_deviation altitudes increase' level' standard_small
  refine ⟨standard_small, ⟨increase, level, ?_⟩, increase', level', even,
    none 4000 (by decide) even (by decide)⟩
  have first : (0, (5000 + 300 * (79 / 78) : ℚ)) ∈
      altitudes.altitudeOutliers (flightWithGap 40000) := by
    rw [flightWithGap_outliers]
    exact List.mem_cons_self
  exact ⟨_, first, flagged _ first⟩

end TrendTest

end AirTraffic
