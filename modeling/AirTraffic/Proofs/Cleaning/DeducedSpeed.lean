import AirTraffic.Proofs.Cleaning.Guarantees
import AirTraffic.Proofs.Track.Reading
import AirTraffic.Proofs.InPlace.MissingValues

/-!
# Deduced speeds

The way past a report is no longer than the two legs that lead to it and on from it, so the speed
past it is no more than a mean of theirs, and what is deduced for the report is not above that of
its faster leg.
-/
namespace AirTraffic.MissingValues

open Report

variable {α ρ : Type}

section Sighting

variable [Scalar α]

/-- Of a report no more than when and where it was made. -/
def sighting (r : Report α ρ) : Report α Unit where
  time := r.time
  position := r.position
  altitude := none
  speed := none
  course := none
  curvature := none
  alongTrackDistance := none
  trackId := none
  payload := ()

variable [Geodesy α]

theorem deducedSpeed?_sighting (before : Option (Report α ρ)) (r : Report α ρ)
    (after : Option (Report α ρ)) :
    deducedSpeed? (before.map sighting) (sighting r) (after.map sighting) =
      deducedSpeed? before r after := by
  cases before <;> cases after <;> rfl

theorem getElem?_fillSpeedsFrom (reports : List (Report α ρ)) (i : Nat) :
    (fillSpeedsFrom none reports)[i]? = reports[i]?.map fun r =>
      if r.speed.isNone then
        r.withSpeed (deducedSpeed? (if 0 < i then reports[i - 1]? else none) r reports[i + 1]?)
      else r := by
  rw [fillSpeedsFrom_eq, List.getElem?_mapIdx]

theorem speed_fillSpeedsFrom_congr {reports others : List (Report α ρ)}
    (same : others.map sighting = reports.map sighting) {i : Nat} {r q : Report α ρ}
    (hr : reports[i]? = some r) (hq : others[i]? = some q) (unknown : r.speed = none)
    (unknown' : q.speed = none) :
    (fillSpeedsFrom none others)[i]?.bind (·.speed) =
      (fillSpeedsFrom none reports)[i]?.bind (·.speed) := by
  have sightings (j : Nat) : others[j]?.map sighting = reports[j]?.map sighting := by
    rw [← List.getElem?_map, same, List.getElem?_map]
  have own : sighting q = sighting r := by
    have here := sightings i
    rw [hr, hq] at here
    exact Option.some.inj here
  have before : (if 0 < i then others[i - 1]? else none).map sighting =
      (if 0 < i then reports[i - 1]? else none).map sighting := by
    by_cases later : 0 < i
    · rw [if_pos later, if_pos later, sightings]
    · rw [if_neg later, if_neg later]
  have speed : deducedSpeed? (if 0 < i then others[i - 1]? else none) q others[i + 1]? =
      deducedSpeed? (if 0 < i then reports[i - 1]? else none) r reports[i + 1]? := by
    rw [← deducedSpeed?_sighting, before, own, sightings, deducedSpeed?_sighting]
  rw [getElem?_fillSpeedsFrom, getElem?_fillSpeedsFrom, hr, hq, Option.map_some, Option.map_some,
    unknown, unknown', speed]
  rfl

theorem fillSpeedsFrom_of_known (before : Option (Report α ρ)) {reports : List (Report α ρ)}
    (known : ∀ r ∈ reports, r.speed.isSome) : fillSpeedsFrom before reports = reports := by
  induction reports generalizing before with
  | nil => rfl
  | cons r rest ih =>
    obtain ⟨hr, hrest⟩ := List.forall_mem_cons.mp known
    have given : ¬r.speed.isNone := by simpa using Option.ne_none_iff_isSome.mpr hr
    rw [fillSpeedsFrom, if_neg given, ih (some r) hrest]

theorem fillSpeedsFrom_keeps (before : Option (Report α ρ)) (reports : List (Report α ρ)) :
    List.Forall₂ (fun new old => new = { old with speed := new.speed } ∧
      ∀ v ∈ old.speed, new.speed = some v) (fillSpeedsFrom before reports) reports := by
  fun_induction fillSpeedsFrom before reports with
  | case1 => exact .nil
  | case2 before r rest ih =>
    refine .cons ?_ ih
    by_cases unknown : r.speed.isNone
    · rw [if_pos unknown]
      refine ⟨rfl, fun v hv => ?_⟩
      rw [Option.isNone_iff_eq_none.mp unknown] at hv
      cases hv
    · rw [if_neg unknown]
      exact ⟨rfl, fun v hv => hv⟩

theorem fillSpeeds_eq_none_iff {reports : List (Report α ρ)} :
    fillSpeeds reports = none ↔ reports.length < 2 := by
  rw [fillSpeeds]
  by_cases few : reports.length < 2 <;> simp [few]

end Sighting

variable [ExactScalar α] [Geodesy α]

def hours (p q : Report α ρ) : α := ((q.time - p.time : Int) : α) / Units.msPerHour

/-- Knots on the way from one report to a later one. -/
def legSpeed (p q : Report α ρ) : α := p.distanceTo q / hours p q

section Legs

variable {p r q : Report α ρ}

omit [Geodesy α] in
theorem hours_pos (forward : p.time < r.time) : 0 < hours p r := by
  have passed : (0 : α) < ((r.time - p.time : Int) : α) := Int.cast_pos.mpr (by omega)
  have unit : (0 : α) < Units.msPerHour := by
    rw [Units.msPerHour, ExactScalar.ofInt_eq]
    exact Int.cast_pos.mpr (by decide)
  exact div_pos passed unit

omit [Geodesy α] in
theorem hours_add (p r q : Report α ρ) : hours p r + hours r q = hours p q := by
  rw [hours, hours, hours]
  push_cast
  ring

theorem impliedSpeed_eq (forward : p.time < r.time) : impliedSpeed p r = legSpeed p r := by
  have passed : ((r.time - p.time).natAbs : Int) = r.time - p.time :=
    Int.natAbs_of_nonneg (by omega)
  rw [impliedSpeed, passed, ExactScalar.ofInt_eq, legSpeed, hours]

theorem legSpeed_mul_hours (forward : p.time < r.time) :
    legSpeed p r * hours p r = p.distanceTo r :=
  div_mul_cancel₀ _ (hours_pos forward).ne'

variable (hg : Geodesy.IsPseudoMetric α)

include hg

theorem legSpeed_nonneg (forward : p.time < r.time) : 0 ≤ legSpeed p r := by
  have thereAndBack := hg.triangle p.position r.position p.position
  rw [hg.self, hg.symm r.position] at thereAndBack
  have distance : 0 ≤ p.distanceTo r := by
    rw [distanceTo]
    linarith
  exact div_nonneg distance (hours_pos forward).le

theorem legSpeed_past_le (arrives : p.time < r.time) (leaves : r.time < q.time) :
    legSpeed p q ≤ max (legSpeed p r) (legSpeed r q) := by
  have first := mul_le_mul_of_nonneg_right (le_max_left (legSpeed p r) (legSpeed r q))
    (hours_pos arrives).le
  have second := mul_le_mul_of_nonneg_right (le_max_right (legSpeed p r) (legSpeed r q))
    (hours_pos leaves).le
  rw [legSpeed, div_le_iff₀ (hours_pos (arrives.trans leaves))]
  calc p.distanceTo q
    _ ≤ p.distanceTo r + r.distanceTo q := hg.triangle _ _ _
    _ = legSpeed p r * hours p r + legSpeed r q * hours r q := by
        rw [legSpeed_mul_hours arrives, legSpeed_mul_hours leaves]
    _ ≤ max (legSpeed p r) (legSpeed r q) * hours p r +
          max (legSpeed p r) (legSpeed r q) * hours r q := add_le_add first second
    _ = max (legSpeed p r) (legSpeed r q) * hours p q := by rw [← mul_add, hours_add]

theorem deducedSpeed?_between (arrives : p.time < r.time) (leaves : r.time < q.time) :
    ∃ v, deducedSpeed? (some p) r (some q) = some v ∧ 0 ≤ v ∧
      v ≤ max (legSpeed p r) (legSpeed r q) := by
  have past := arrives.trans leaves
  refine ⟨(legSpeed p r + legSpeed r q + legSpeed p q) / 3, ?_, ?_, ?_⟩
  · rw [deducedSpeed?, impliedSpeed_eq arrives, impliedSpeed_eq leaves, impliedSpeed_eq past,
      ExactScalar.ofInt_eq, Int.cast_ofNat]
  · have first := legSpeed_nonneg hg arrives
    have second := legSpeed_nonneg hg leaves
    have third := legSpeed_nonneg hg past
    positivity
  · have first := le_max_left (legSpeed p r) (legSpeed r q)
    have second := le_max_right (legSpeed p r) (legSpeed r q)
    have third := legSpeed_past_le hg arrives leaves
    linarith

end Legs

theorem fillSpeedsFrom_known (before : Option (Report α ρ)) (reports : List (Report α ρ))
    (several : before.isSome ∨ 2 ≤ reports.length) :
    ∀ r ∈ fillSpeedsFrom before reports, r.speed.isSome := by
  fun_induction fillSpeedsFrom before reports with
  | case1 => exact List.forall_mem_nil _
  | case2 before r rest ih =>
    refine List.forall_mem_cons.mpr ⟨?_, ih (Or.inl rfl)⟩
    by_cases unknown : r.speed.isNone
    · rw [if_pos unknown, withSpeed_speed]
      rcases before with _ | p <;> rcases rest with _ | ⟨q, rest⟩
      · simp at several
      · rfl
      · rfl
      · rfl
    · rw [if_neg unknown]
      simpa [Option.isSome_iff_ne_none] using unknown

/-- What is put in for the speeds that are missing. -/
structure SpeedsFilled (reports out : List (Report α ρ)) : Prop where
  complete : ∀ r ∈ out, r.speed.isSome
  keeps : List.Forall₂ (fun new old => new = { old with speed := new.speed } ∧
    ∀ v ∈ old.speed, new.speed = some v) out reports
  first : ∀ r q, reports[0]? = some r → reports[1]? = some q → r.speed = none →
    out[0]? = some { r with speed := some (legSpeed r q) } ∧ 0 ≤ legSpeed r q
  between : ∀ i p r q, reports[i]? = some p → reports[i + 1]? = some r → reports[i + 2]? = some q →
    r.speed = none → ∃ v, out[i + 1]? = some { r with speed := some v } ∧ 0 ≤ v ∧
      v ≤ max (legSpeed p r) (legSpeed r q)
  last : ∀ i p r, reports[i]? = some p → reports[i + 1]? = some r → reports[i + 2]? = none →
    r.speed = none →
      out[i + 1]? = some { r with speed := some (legSpeed p r) } ∧ 0 ≤ legSpeed p r

section Whole

variable {reports : List (Report α ρ)}

theorem getElem?_of_deduced {i : Nat} {r : Report α ρ} {v : α} (hr : reports[i]? = some r)
    (unknown : r.speed = none)
    (deduced : deducedSpeed? (if 0 < i then reports[i - 1]? else none) r reports[i + 1]? = some v) :
    (fillSpeedsFrom none reports)[i]? = some { r with speed := some v } := by
  rw [getElem?_fillSpeedsFrom, hr, Option.map_some, unknown, deduced]
  simp [withSpeed]

variable (hg : Geodesy.IsPseudoMetric α) (increase : (times reports).Pairwise (· < ·))

include hg increase

theorem speedsFilled_of_several (several : 2 ≤ reports.length) :
    SpeedsFilled reports (fillSpeedsFrom none reports) := by
  constructor
  case complete => exact fillSpeedsFrom_known none reports (Or.inr several)
  case keeps => exact fillSpeedsFrom_keeps none reports
  case first =>
    intro r q hr hq unknown
    have leaves := time_lt_of_increase increase hr hq
    refine ⟨getElem?_of_deduced hr unknown ?_, legSpeed_nonneg hg leaves⟩
    rw [hq, if_neg (Nat.lt_irrefl 0), deducedSpeed?, impliedSpeed_eq leaves]
  case between =>
    intro i p r q hp hr hq unknown
    have arrives := time_lt_of_increase increase hp hr
    have leaves := time_lt_of_increase increase hr hq
    obtain ⟨v, deduced, nonneg, le⟩ := deducedSpeed?_between hg arrives leaves
    refine ⟨v, getElem?_of_deduced hr unknown ?_, nonneg, le⟩
    rw [hq, if_pos (Nat.succ_pos i), Nat.add_sub_cancel, hp, deduced]
  case last =>
    intro i p r hp hr hend unknown
    have arrives := time_lt_of_increase increase hp hr
    refine ⟨getElem?_of_deduced hr unknown ?_, legSpeed_nonneg hg arrives⟩
    rw [hend, if_pos (Nat.succ_pos i), Nat.add_sub_cancel, hp, deducedSpeed?,
      impliedSpeed_eq arrives]

/-- Two reports or more all end with a speed, a deduced one within what the legs around its report
allow. It follows from times and positions alone, and there is nothing left to deduce. -/
theorem fillSpeeds_spec :
    (fillSpeeds reports = none ↔ reports.length < 2) ∧
    ∀ out, fillSpeeds reports = some out →
      SpeedsFilled reports out ∧
      (∀ others filled : List (Report α ρ), others.map sighting = reports.map sighting →
        fillSpeeds others = some filled → ∀ (i : Nat) (r q : Report α ρ), reports[i]? = some r →
          others[i]? = some q → r.speed = none → q.speed = none →
            filled[i]?.bind (·.speed) = out[i]?.bind (·.speed)) ∧
      fillSpeeds out = some out := by
  refine ⟨fillSpeeds_eq_none_iff, ?_⟩
  intro out h
  obtain ⟨several, same⟩ := Option.ite_none_left_eq_some.mp h
  obtain rfl := Option.some.inj same
  have filled := speedsFilled_of_several hg increase (Nat.not_lt.mp several)
  refine ⟨filled, ?_, ?_⟩
  · intro others filled sightings hothers i r q hr hq unknown unknown'
    obtain ⟨-, same⟩ := Option.ite_none_left_eq_some.mp hothers
    obtain rfl := Option.some.inj same
    exact speed_fillSpeedsFrom_congr sightings hr hq unknown unknown'
  · rw [fillSpeeds, if_neg (filled.keeps.length_eq ▸ several),
      fillSpeedsFrom_of_known none filled.complete]

end Whole

def northWithSpeed (known : ℚ) : List (Report ℚ Unit) :=
  [(0, 40, none), (36000, 40 + 1 / 60, some known), (72000, 40 + 1 / 20, none),
    (120000, 40 + 1 / 12, none)].map fun p : Int × ℚ × Option ℚ =>
      { Track.equatorAt (p.1, 0, none) with position := ⟨p.2.1, 0⟩, speed := p.2.2 }

/-- Whether it flew at 250 knots or at 90 does not matter to the next one. -/
theorem northWithSpeed_filled : Geodesy.IsPseudoMetric ℚ ∧
    (times (northWithSpeed 250)).Pairwise (· < ·) ∧
    (northWithSpeed 90).map sighting = (northWithSpeed 250).map sighting ∧
    ∃ out filled, fillSpeeds (northWithSpeed 250) = some out ∧
      fillSpeeds (northWithSpeed 90) = some filled ∧ SpeedsFilled (northWithSpeed 250) out ∧
      filled[2]?.bind (·.speed) = out[2]?.bind (·.speed) ∧ fillSpeeds out = some out := by
  have metric := Geodesy.rational_isPseudoMetric
  have increase : (times (northWithSpeed 250)).Pairwise (· < ·) := by decide
  obtain ⟨-, present⟩ := fillSpeeds_spec metric increase
  obtain ⟨filled, alone, left⟩ := present _ rfl
  exact ⟨metric, increase, rfl, _, _, rfl, rfl, filled,
    alone _ _ rfl rfl 2 _ _ rfl rfl rfl rfl, left⟩

end AirTraffic.MissingValues
