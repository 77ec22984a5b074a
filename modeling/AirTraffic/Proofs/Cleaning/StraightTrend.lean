import AirTraffic.Proofs.Geo.Pseudometric
import AirTraffic.Proofs.Cleaning.TrendOutlier

/-!
# Straight trends

Reports that keep to a straight line are on the line through any of them, if there is one. Whatever
a neighbourhood says of how well it fits, there is no error then.
-/
namespace AirTraffic.TrendTest

open Scalar Report

variable {α ρ : Type} [ExactScalar α] {test : TrendTest α}

theorem minimumError_pos {sampleSize : Nat} {fitDrop minimumError : α}
    (valid : ofLimits sampleSize fitDrop minimumError = .ok test) : 0 < test.minimumError := by
  unfold ofLimits at valid
  split at valid
  · split at valid
    · cases valid
    · split at valid
      · cases valid
      · next accepted =>
        cases valid
        simpa using accepted
  · cases valid

theorem predict?_of_affine {field : Report α ρ → Option α} {r : Report α ρ}
    {others : List (Report α ρ)} {base rate v : α}
    (affine : ∀ q ∈ others, ∀ a ∈ field q, a = base + rate * q.time)
    (line : Observations.predict? (observe field r others) zero = some v) :
    v = base + rate * r.time := by
  obtain ⟨several, spreads⟩ := Observations.determined_of_predict? line
  have straight : ∀ p ∈ observe field r others,
      p.2 = (base + rate * r.time) + 1000 * rate * p.1 := by
    intro p hp
    obtain ⟨q, hq, found⟩ := List.mem_filterMap.mp hp
    obtain ⟨a, known, rfl⟩ := Option.map_eq_some_iff.mp found
    rw [affine q hq a known, seconds_eq]
    push_cast
    ring
  rw [Observations.predict?_of_straight spreads several straight, ExactScalar.zero_eq, mul_zero,
    add_zero] at line
  exact (Option.some.inj line).symm

section Altitudes

variable (least : 0 < test.minimumError) {reports : List (Report α ρ)} {base rate : α}
  (straight : ∀ r ∈ reports, ∀ a ∈ r.altitude, a = base + rate * r.time)

include least straight

theorem altitudeOutliers_of_straight : test.altitudeOutliers reports = [] := by
  refine List.eq_nil_iff_forall_not_mem.mpr ?_
  rintro ⟨i, a⟩ flagged
  obtain ⟨r, altitude, others, own, known, near, line, far⟩ := exists_of_flagged test flagged
  have listed := (mem_of_neighbours? test near).2
  have predicted := predict?_of_affine (fun q hq => straight q (listed q hq)) line
  rw [predicted, straight r (List.mem_of_getElem? own) altitude known, sub_self, abs_zero] at far
  exact absurd far least.not_gt

theorem correctAltitudes_of_straight : test.correctAltitudes reports = reports := by
  refine List.ext_getElem? ?_
  intro i
  have unflagged : test.correctedAltitude? reports i = none := by
    refine Option.eq_none_iff_forall_not_mem.mpr ?_
    intro a corrected
    have flagged := (mem_altitudeOutliers test reports).mpr corrected
    rw [altitudeOutliers_of_straight least straight] at flagged
    exact List.not_mem_nil flagged
  rw [getElem?_correctAltitudes, unflagged]
  exact Option.map_id'

end Altitudes

section Positions

variable [Geodesy α]

theorem exists_of_positionOffTrend {r : Report α ρ} {others : List (Report α ρ)}
    (off : test.positionOffTrend r others = true) : ∃ latitude longitude,
      Observations.predict? (observe (some ·.position.latitude) r others) zero = some latitude ∧
      Observations.predict? (observe (some ·.position.longitude) r others) zero = some longitude ∧
      test.minimumError < Geodesy.distance ⟨latitude, longitude⟩ r.position := by
  unfold positionOffTrend at off
  dsimp only at off
  split at off
  · next latitude longitude hlat hlon =>
    rw [Bool.and_eq_true, decide_eq_true_eq, decide_eq_true_eq] at off
    exact ⟨latitude, longitude, (Option.filter_eq_some_iff.mp hlat).1,
      (Option.filter_eq_some_iff.mp hlon).1, off.2⟩
  · cases off

variable (least : 0 < test.minimumError) (here : ∀ p : Position α, Geodesy.distance p p = 0)
  {reports : List (Report α ρ)} {latitude longitude climb drift : α}
  (straight : ∀ r ∈ reports, r.position.latitude = latitude + climb * r.time ∧
    r.position.longitude = longitude + drift * r.time)

include least here straight

theorem positionFlags_of_straight : ∀ flag ∈ test.positionFlags reports, flag = false := by
  refine List.forall_mem_map.mpr ?_
  intro i hi
  have inside := List.mem_range.mp hi
  rw [isPositionOutlier_eq_any test inside]
  cases near : test.neighbours? reports i with
  | none => rfl
  | some around =>
    obtain ⟨r, others⟩ := around
    obtain ⟨own, listed⟩ := mem_of_neighbours? test near
    rw [List.getElem?_eq_getElem inside] at own
    obtain rfl := Option.some.inj own
    rw [Option.any_some, Bool.eq_false_iff]
    intro off
    obtain ⟨lat, lon, hlat, hlon, far⟩ := exists_of_positionOffTrend off
    have latitudes :
        ∀ q ∈ others, ∀ a ∈ some q.position.latitude, a = latitude + climb * q.time := by
      rintro q hq _ ⟨⟩
      exact (straight q (listed q hq)).1
    have longitudes : ∀ q ∈ others, ∀ a ∈ some q.position.longitude,
        a = longitude + drift * q.time := by
      rintro q hq _ ⟨⟩
      exact (straight q (listed q hq)).2
    obtain ⟨ownLat, ownLon⟩ := straight _ (List.getElem_mem inside)
    rw [predict?_of_affine latitudes hlat, predict?_of_affine longitudes hlon, ← ownLat, ← ownLon,
      here] at far
    exact absurd far least.not_gt

end Positions

/-- With whatever limits, reports whose altitudes change evenly keep them, and reports whose
positions do are kept. -/
theorem straight_kept [Geodesy α] {sampleSize : Nat} {fitDrop minimumError : α}
    (valid : ofLimits sampleSize fitDrop minimumError = .ok test) (track : Track α ρ) :
    (∀ base rate : α, (∀ r ∈ track.reports, ∀ a ∈ r.altitude, a = base + rate * r.time) →
      test.altitudeOutliers track.reports = [] ∧
        test.correctAltitudes track.reports = track.reports) ∧
    ((∀ p : Position α, Geodesy.distance p p = 0) → ∀ latitude longitude climb drift : α,
      (∀ r ∈ track.reports, r.position.latitude = latitude + climb * r.time ∧
        r.position.longitude = longitude + drift * r.time) →
      (∀ flag ∈ test.positionFlags track.reports, flag = false) ∧
        test.dropPositionOutliers track.reports = some track.reports) := by
  have least := minimumError_pos valid
  constructor
  · intro base rate straight
    exact ⟨altitudeOutliers_of_straight least straight, correctAltitudes_of_straight least straight⟩
  · intro here latitude longitude climb drift straight
    have unflagged := positionFlags_of_straight least here straight
    refine ⟨unflagged, ?_⟩
    have some : ¬track.reports.isEmpty := by
      rw [List.isEmpty_iff]
      exact track.reports_ne_nil
    rw [dropPositionOutliers, dropFlagged_of_unflagged unflagged]
    exact if_neg some

def climbingNorth : Track ℚ Unit :=
  ⟨[(0, some 5000), (4000, some 5100), (4000, some 5100), (11000, none), (16000, some 5400),
    (30000, some 5750), (31000, some 5775), (32000, none), (60000, some 6500),
    (61000, some 6525)].map
      fun p : Int × Option ℚ =>
        { Track.equatorAt (p.1, 0, none) with
          altitude := p.2
          position := ⟨40 + p.1 / 1000000, 0⟩ },
    by simp⟩

theorem climbingNorth_kept :
    ofLimits 7 (ofDecimal 5 1) (ofInt 300) = .ok (altitudes : TrendTest ℚ) ∧
    (∀ r ∈ climbingNorth.reports, ∀ a ∈ r.altitude, a = 5000 + 1 / 40 * r.time) ∧
    (∀ p : Position ℚ, Geodesy.distance p p = 0) ∧
    (∀ r ∈ climbingNorth.reports, r.position.latitude = 40 + 1 / 1000000 * r.time ∧
      r.position.longitude = 0 + 0 * r.time) ∧
    altitudes.altitudeOutliers climbingNorth.reports = [] ∧
    altitudes.correctAltitudes climbingNorth.reports = climbingNorth.reports ∧
    (∀ flag ∈ altitudes.positionFlags climbingNorth.reports, flag = false) ∧
    altitudes.dropPositionOutliers climbingNorth.reports = some climbingNorth.reports := by
  have climbs : ∀ r ∈ climbingNorth.reports, ∀ a ∈ r.altitude, a = 5000 + 1 / 40 * r.time := by
    decide +kernel
  have moves : ∀ r ∈ climbingNorth.reports, r.position.latitude = 40 + 1 / 1000000 * r.time ∧
      r.position.longitude = 0 + 0 * r.time := by
    decide +kernel
  have here := Geodesy.rational_isPseudoMetric.self
  obtain ⟨onAltitudes, onPositions⟩ := straight_kept ofLimits_standard climbingNorth
  obtain ⟨none, kept⟩ := onAltitudes 5000 (1 / 40) climbs
  exact ⟨ofLimits_standard, climbs, here, moves, none, kept,
    onPositions here 40 0 (1 / 1000000) 0 moves⟩

end AirTraffic.TrendTest
