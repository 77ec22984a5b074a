import AirTraffic.Proofs.Proximity.Metric
import AirTraffic.Proofs.Scalar.Magnitude
import AirTraffic.Proximity.Screen

/-!
# Which of two reports comes first

A cylinder takes two reports alike in either order. A ball around reports that are carried to the
instant halfway between them does so if there is such an instant. Reports that are an odd number of
milliseconds apart have none: theirs is cut toward the report that comes first, and in the other
order they are measured a millisecond away.
-/
namespace AirTraffic

open Scalar

theorem halfwayTime_swap (t u : Int) : halfwayTime u t = halfwayTime t u + (u - t).tmod 2 := by
  have back : (t - u).tdiv 2 = -(u - t).tdiv 2 := by rw [← Int.neg_sub u t, Int.neg_tdiv]
  have whole := Int.tmod_add_mul_tdiv (u - t) 2
  rw [halfwayTime, halfwayTime, back]
  omega

variable {α ρ : Type} [Scalar α] [Geodesy α]

namespace Report

/-- Without speed or course a report stays where it is. -/
def Still (r : Report α ρ) : Prop := r.speed = none ∨ r.course = none

theorem altitude_reckon (r : Report α ρ) (time : Int) : (r.reckon time).altitude = r.altitude := by
  unfold reckon
  split
  · rfl
  · rfl

theorem position_reckon_of_still {r : Report α ρ} (still : r.Still) (time : Int) :
    (r.reckon time).position = r.position := by
  unfold reckon
  split
  next speed course known known' =>
    rcases still with unknown | unknown
    · cases unknown.symm.trans known
    · cases unknown.symm.trans known'
  next => rfl

/-- Separation in feet, altitude included, with both reports carried to one instant. -/
def feetAt (r q : Report α ρ) (time : Int) : Except (PairingError α) α :=
  (Metric.spatial ⟨zero, one⟩ (r.reckon time) (q.reckon time)).mapError .unmeasurable

theorem reckonedFeet_eq (r q : Report α ρ) (limitMs : Int) : r.reckonedFeet q limitMs =
    if limitMs < Metric.timeApart r q then .error (.tooFarInTime (Metric.timeApart r q) limitMs)
    else r.feetAt q (halfwayTime r.time q.time) := rfl

variable {r q : Report α ρ} {time : Int}

theorem feetAt_of_altitudes {x y : α} (hr : r.altitude = some x) (hq : q.altitude = some y) :
    r.feetAt q time = .ok (Metric.weighted ⟨zero, one⟩
      (hypot (Metric.feetApart (r.reckon time) (q.reckon time)) (Scalar.abs (x - y)))
      (Metric.timeApart (r.reckon time) (q.reckon time))) := by
  unfold feetAt Metric.spatial Metric.requiredAltitude
  rw [altitude_reckon, altitude_reckon, hr, hq]
  rfl

theorem feetAt_of_missing (missing : r.altitude = none ∨ q.altitude = none) :
    r.feetAt q time = .error (.unmeasurable (.missingAltitude time)) := by
  unfold feetAt Metric.spatial Metric.requiredAltitude
  rw [altitude_reckon, altitude_reckon]
  rcases missing with unknown | unknown
  · rw [unknown]
    rfl
  · rw [unknown]
    cases r.altitude <;> rfl

omit [Scalar α] [Geodesy α] in
theorem altitudes_cases (r q : Report α ρ) : (∃ x y, r.altitude = some x ∧ q.altitude = some y) ∨
    r.altitude = none ∨ q.altitude = none := by
  cases hr : r.altitude with
  | none => exact .inr (.inl rfl)
  | some x =>
    cases hq : q.altitude with
    | none => exact .inr (.inr rfl)
    | some y => exact .inl ⟨x, y, rfl, rfl⟩

theorem feetAt_isOk (time' : Int) : (r.feetAt q time).isOk = (r.feetAt q time').isOk := by
  rcases altitudes_cases r q with ⟨x, y, hr, hq⟩ | missing
  · rw [feetAt_of_altitudes hr hq, feetAt_of_altitudes hr hq]
    rfl
  · rw [feetAt_of_missing missing, feetAt_of_missing missing]
    rfl

theorem feetAt_of_still (hr : r.Still) (hq : q.Still) (time' : Int) :
    (r.feetAt q time).toOption = (r.feetAt q time').toOption := by
  have feet (t : Int) : Metric.feetApart (r.reckon t) (q.reckon t) = Metric.feetApart r q := by
    rw [Metric.feetApart, distanceTo, position_reckon_of_still hr, position_reckon_of_still hq]
    rfl
  have together (t : Int) : Metric.timeApart (r.reckon t) (q.reckon t) = 0 := by
    rw [Metric.timeApart]
    exact Int.natAbs_eq_zero.mpr (Int.sub_self t)
  rcases altitudes_cases r q with ⟨x, y, known, known'⟩ | missing
  · rw [feetAt_of_altitudes known known', feetAt_of_altitudes known known', feet, feet, together,
      together]
  · rw [feetAt_of_missing missing, feetAt_of_missing missing]
    rfl

end Report

section Symmetric

variable (symmetric : ∀ a b : Position α, Geodesy.distance a b = Geodesy.distance b a)

include symmetric

theorem Metric.feetApart_comm (r q : Report α ρ) : feetApart r q = feetApart q r :=
  congrArg (· * Units.feetPerNm) (symmetric r.position q.position)

variable [AbsSubComm α]

namespace Report

theorem feetAt_comm (r q : Report α ρ) (time : Int) : q.feetAt r time = r.feetAt q time := by
  rcases altitudes_cases r q with ⟨x, y, hr, hq⟩ | missing
  · rw [feetAt_of_altitudes hr hq, feetAt_of_altitudes hq hr, Metric.feetApart_comm symmetric,
      AbsSubComm.abs_sub_comm, Metric.timeApart_comm]
  · rw [feetAt_of_missing missing, feetAt_of_missing missing.symm]

theorem reckonedFeet_swap (r q : Report α ρ) (limitMs : Int) : q.reckonedFeet r limitMs =
    if limitMs < Metric.timeApart r q then .error (.tooFarInTime (Metric.timeApart r q) limitMs)
    else r.feetAt q (halfwayTime r.time q.time + (q.time - r.time).tmod 2) := by
  rw [reckonedFeet_eq, Metric.timeApart_comm, feetAt_comm symmetric, halfwayTime_swap]

end Report

theorem Cylinder.accepts_comm (c : Cylinder α) (r q : Report α ρ) :
    c.accepts r q = c.accepts q r := by
  have vertical : c.containsVertically r q = c.containsVertically q r := by
    unfold containsVertically
    cases r.altitude with
    | none => cases q.altitude <;> rfl
    | some x =>
      cases q.altitude with
      | none => rfl
      | some y => simp only [AbsSubComm.abs_sub_comm x y]
  rw [accepts, accepts, vertical, Metric.feetApart_comm symmetric]

end Symmetric

theorem ReckonedBall.accepts_eq (b : ReckonedBall α) (r q : Report α ρ) :
    b.accepts r q = (r.reckonedFeet q b.limitMs).toOption.any (· ≤ b.radiusFt) := by
  unfold accepts
  cases r.reckonedFeet q b.limitMs with
  | error e => rfl
  | ok feet => rfl

/-- What does not tell two reports from the same two in the other order, and what does. -/
structure Report.ScreenedAlike (r q : Report α ρ) : Prop where
  cylinder : ∀ c : Cylinder α, c.accepts r q = c.accepts q r
  answered : ∀ limitMs, (r.reckonedFeet q limitMs).isOk = (q.reckonedFeet r limitMs).isOk
  estimate : ∀ limitMs : Int, 2 ∣ q.time - r.time ∨ limitMs < Metric.timeApart r q →
    r.reckonedFeet q limitMs = q.reckonedFeet r limitMs
  still : r.Still → q.Still → ∀ limitMs,
    (r.reckonedFeet q limitMs).toOption = (q.reckonedFeet r limitMs).toOption
  ball : ∀ b : ReckonedBall α,
    2 ∣ q.time - r.time ∨ b.limitMs < Metric.timeApart r q ∨ r.Still ∧ q.Still →
    b.accepts r q = b.accepts q r
  instants : ∀ limitMs : Int, Metric.timeApart r q ≤ limitMs →
    r.reckonedFeet q limitMs = r.feetAt q (halfwayTime r.time q.time) ∧
    q.reckonedFeet r limitMs =
      r.feetAt q (halfwayTime r.time q.time + (q.time - r.time).tmod 2)

/-- All that distances have to be is alike in both directions. Estimates are then the same in either
order, if the two reports have an instant halfway between them. -/
theorem reports_screened_alike [AbsSubComm α]
    (symmetric : ∀ a b : Position α, Geodesy.distance a b = Geodesy.distance b a)
    (r q : Report α ρ) :
    r.ScreenedAlike q := by
  have swapped := Report.reckonedFeet_swap symmetric r q
  have estimate (limitMs : Int) (h : 2 ∣ q.time - r.time ∨ limitMs < Metric.timeApart r q) :
      r.reckonedFeet q limitMs = q.reckonedFeet r limitMs := by
    rw [swapped, Report.reckonedFeet_eq]
    rcases h with even | far
    · rw [Int.tmod_eq_zero_of_dvd even, Int.add_zero]
    · rw [if_pos far, if_pos far]
  have still (hr : r.Still) (hq : q.Still) (limitMs : Int) :
      (r.reckonedFeet q limitMs).toOption = (q.reckonedFeet r limitMs).toOption := by
    rw [swapped, Report.reckonedFeet_eq]
    split
    · rfl
    · exact Report.feetAt_of_still hr hq _
  constructor
  · exact fun c => c.accepts_comm symmetric r q
  · intro limitMs
    rw [swapped, Report.reckonedFeet_eq]
    split
    · rfl
    · exact Report.feetAt_isOk _
  · exact estimate
  · exact still
  · intro b h
    rw [b.accepts_eq, b.accepts_eq]
    rcases h with even | far | ⟨hr, hq⟩
    · rw [estimate _ (.inl even)]
    · rw [estimate _ (.inr far)]
    · rw [still hr hq]
  · intro limitMs near
    rw [swapped, Report.reckonedFeet_eq, if_neg (by omega), if_neg (by omega)]
    exact ⟨rfl, rfl⟩

def approaching : Report ℚ Unit where
  time := 0
  position := ⟨0, 0⟩
  altitude := some 1000
  speed := some 600
  course := some 0
  curvature := none
  alongTrackDistance := none
  trackId := none
  payload := ()

def aheadAt (time : Int) : Report ℚ Unit :=
  { approaching with time, position := ⟨1 / 100, 0⟩, speed := none, course := none }

theorem approaching_screened_alike :
    (∀ a b : Position ℚ, Geodesy.distance a b = Geodesy.distance b a) ∧
      approaching.ScreenedAlike (aheadAt 2) ∧ 2 ∣ (aheadAt 2).time - approaching.time ∧
      (ReckonedBall.mk 3648 5 : ReckonedBall ℚ).accepts (aheadAt 2) approaching := by
  have symmetric := Geodesy.rational_isPseudoMetric.symm
  have alike := reports_screened_alike symmetric approaching (aheadAt 2)
  refine ⟨symmetric, alike, by decide, ?_⟩
  rw [← alike.ball _ (.inl (by decide))]
  decide +kernel

/-- A millisecond apart: measured a millisecond later, the one going north has come closer. -/
theorem approaching_told_from_ahead :
    (∀ a b : Position ℚ, Geodesy.distance a b = Geodesy.distance b a) ∧
      (ReckonedBall.ofLimits 3648 5 : Except (SettingError ℚ) (ReckonedBall ℚ)).isOk ∧
      (ReckonedBall.mk 3648 5 : ReckonedBall ℚ).accepts approaching (aheadAt 1) = false ∧
      (ReckonedBall.mk 3648 5 : ReckonedBall ℚ).accepts (aheadAt 1) approaching = true ∧
      approaching.reckonedFeet (aheadAt 1) 5 ≠ (aheadAt 1).reckonedFeet approaching 5 := by
  have apart : ((approaching.reckonedFeet (aheadAt 1) 5).toOption ≠
      ((aheadAt 1).reckonedFeet approaching 5).toOption) := by decide +kernel
  exact ⟨Geodesy.rational_isPseudoMetric.symm, by decide +kernel, by decide +kernel,
    by decide +kernel, mt (congrArg Except.toOption) apart⟩

end AirTraffic
