import Mathlib.Algebra.Polynomial.Taylor
import AirTraffic.Proofs.Geo.LocalPlane
import AirTraffic.Proofs.Report.Subdivision
import AirTraffic.Proofs.Cleaning.LocalMotion

/-!
# Cubic motion is found as it is

Where latitude and longitude are cubics of time, so are the ways east and north from any of the
reports, and the fit finds these. Their value at the report is zero, so that it stays where it is,
and their slope is its velocity in the plane. A second fit finds the same.
-/
namespace AirTraffic

open Scalar Report AirTraffic.Units

section Since

variable {α : Type} [ExactScalar α] (p : Polynomial α) (t unit : α)

noncomputable def since : Polynomial α := .C unit * (p.taylor t - .C (p.eval t))

theorem eval_since (x : α) : (since p t unit).eval x = unit * (p.eval (x + t) - p.eval t) := by
  simp [since, Polynomial.taylor_eval]

theorem natDegree_since_le {n : Nat} (hp : p.natDegree ≤ n) : (since p t unit).natDegree ≤ n := by
  refine (Polynomial.natDegree_C_mul_le _ _).trans ?_
  rwa [Polynomial.natDegree_sub_C, Polynomial.natDegree_taylor]

theorem coeff_zero_since : (since p t unit).coeff 0 = 0 := by
  simp [since, Polynomial.taylor_coeff_zero]

theorem coeff_one_since : (since p t unit).coeff 1 = unit * p.derivative.eval t := by
  simp [since, Polynomial.taylor_coeff_one]

end Since

namespace Angle

theorem sin_cos_of_modEq {a b : ℝ} (same : a ≡ b [PMOD 360]) :
    Real.sin (a * (Real.pi / 180)) = Real.sin (b * (Real.pi / 180)) ∧
      Real.cos (a * (Real.pi / 180)) = Real.cos (b * (Real.pi / 180)) := by
  obtain ⟨k, hk⟩ := AddCommGroup.modEq_iff_zsmul.mp same
  rw [zsmul_eq_mul] at hk
  have turns : a * (Real.pi / 180) = b * (Real.pi / 180) - k * (2 * Real.pi) := by
    linear_combination Real.pi / 180 * hk
  rw [turns]
  exact ⟨Real.sin_sub_int_mul_two_pi _ k, Real.cos_sub_int_mul_two_pi _ k⟩

theorem antimeridian_modEq : (180 : ℝ) ≡ -180 [PMOD 360] := by
  have circle := add_circle_modEq (-180 : ℝ) 360
  norm_num at circle
  exact circle

theorem compass_atan2 (east north : ℝ) :
    √(east ^ 2 + north ^ 2) *
      Real.sin (compass (atan2 east north * degreesPerRadian) * (Real.pi / 180)) = east ∧
    √(east ^ 2 + north ^ 2) *
      Real.cos (compass (atan2 east north * degreesPerRadian) * (Real.pi / 180)) = north := by
  let way : ℂ := ⟨north, east⟩
  have length : √(east ^ 2 + north ^ 2) = ‖way‖ := by
    rw [Complex.norm_eq_sqrt_sq_add_sq, add_comm]
  have angle : atan2 east north * degreesPerRadian * (Real.pi / 180) = way.arg := by
    have nonzero := Real.pi_ne_zero
    change way.arg * (((180 : ℤ) : ℝ) / Real.pi) * (Real.pi / 180) = way.arg
    field_simp
    norm_num
  obtain ⟨sin, cos⟩ := sin_cos_of_modEq (compass_modEq (atan2 east north * degreesPerRadian))
  rw [sin, cos, length, angle]
  exact ⟨Complex.norm_mul_sin_arg way, Complex.norm_mul_cos_arg way⟩

end Angle

variable {ρ : Type}

/-- Latitude and longitude are cubics of the time in seconds, away from the poles and in less than
half a circle. The antimeridian counts as 180 degrees to the east or to the west. -/
structure CubicFlight {α : Type} [ExactScalar α] (latitude longitude : Polynomial α)
    (reports : List (Report α ρ)) : Prop where
  latitudeDegree : latitude.natDegree ≤ 3
  longitudeDegree : longitude.natDegree ≤ 3
  position : ∀ r ∈ reports,
    r.position = ⟨latitude.eval (r.time / 1000 : α), longitude.eval (r.time / 1000 : α)⟩
  offPoles : ∀ r ∈ reports, -90 < r.position.latitude ∧ r.position.latitude < 90
  inRange : ∀ r ∈ reports, -180 ≤ r.position.longitude ∧ r.position.longitude ≤ 180
  near : ∀ r ∈ reports, ∀ q ∈ reports, |r.position.longitude - q.position.longitude| < 180

/-- Cubics of the time tell latitude and longitude up to whole circles. -/
structure CubicWay {α : Type} [ExactScalar α] (latitude longitude : Polynomial α)
    (reports : List (Report α ρ)) : Prop where
  latitudeDegree : latitude.natDegree ≤ 3
  longitudeDegree : longitude.natDegree ≤ 3
  onLatitude : ∀ r ∈ reports, r.position.latitude = latitude.eval (r.time / 1000 : α)
  onLongitude : ∀ r ∈ reports, r.position.longitude ≡ longitude.eval (r.time / 1000 : α) [PMOD 360]
  near : ∀ r ∈ reports, ∀ q ∈ reports,
    |longitude.eval (r.time / 1000 : α) - longitude.eval (q.time / 1000 : α)| < 180

section Way

variable {α : Type} [ExactScalar α] {latitude longitude : Polynomial α}
  {out reports : List (Report α ρ)}

theorem CubicFlight.way (flight : CubicFlight latitude longitude reports) :
    CubicWay latitude longitude reports := by
  constructor
  case latitudeDegree => exact flight.latitudeDegree
  case longitudeDegree => exact flight.longitudeDegree
  case onLatitude =>
    intro r hr
    rw [flight.position r hr]
  case onLongitude =>
    intro r hr
    rw [flight.position r hr]
  case near =>
    intro r hr q hq
    have near := flight.near r hr q hq
    rw [flight.position r hr, flight.position q hq] at near
    exact near

theorem CubicWay.part (way : CubicWay latitude longitude reports)
    (known : ∀ r ∈ out, ∃ q ∈ reports, r.time = q.time ∧
      r.position.latitude = q.position.latitude ∧
      r.position.longitude ≡ q.position.longitude [PMOD 360]) :
    CubicWay latitude longitude out := by
  constructor
  case latitudeDegree => exact way.latitudeDegree
  case longitudeDegree => exact way.longitudeDegree
  case onLatitude =>
    intro r hr
    obtain ⟨q, hq, time, same, -⟩ := known r hr
    rw [time, same]
    exact way.onLatitude q hq
  case onLongitude =>
    intro r hr
    obtain ⟨q, hq, time, -, same⟩ := known r hr
    rw [time]
    exact same.trans (way.onLongitude q hq)
  case near =>
    intro r hr r' hr'
    obtain ⟨q, hq, time, -⟩ := known r hr
    obtain ⟨q', hq', time', -⟩ := known r' hr'
    rw [time, time']
    exact way.near q hq q' hq'

end Way

namespace MotionFit

theorem clean_of_few {α : Type} [Scalar α] [TableInverse α] (s : MotionFit)
    {reports out : List (Report α ρ)} (few : reports.length < 2)
    (cleaned : s.clean reports = some out) :
    PartWithin [.speed, .course] out reports := by
  cases reports with
  | nil => cases cleaned
  | cons r rest =>
    have alone : rest = [] :=
      List.length_eq_zero_iff.mp (Nat.lt_one_iff.mp (Nat.lt_of_succ_lt_succ few))
    subst alone
    obtain rfl := Option.some.inj cleaned
    exact .cons (withSpeed_edits (by decide) r _) .nil

section Exact

variable {α : Type} [ExactScalar α] [ExactMultiples α] {reports : List (Report α ρ)}
  {latitude longitude : Polynomial α} {centre : Report α ρ}

/-- Nautical miles per second to the north. -/
noncomputable def northward (latitude : Polynomial α) (r : Report α ρ) : α :=
  nmPerDegreeLatitude * latitude.derivative.eval (r.time / 1000 : α)

/-- Nautical miles per second to the east. -/
noncomputable def eastward (longitude : Polynomial α) (r : Report α ρ) : α :=
  nmPerDegreeLatitude * cos (r.position.latitude * radiansPerDegree) *
    longitude.derivative.eval (r.time / 1000 : α)

/-- What the slopes of both cubics tell of the motion at a report. -/
noncomputable def motionOn (latitude longitude : Polynomial α) (r : Report α ρ) : Motion α where
  position := ⟨r.position.latitude, Angle.meridian r.position.longitude⟩
  speed := greatest (hypot (eastward longitude r) (northward latitude r) * secondsPerHour) zero
  course := Angle.compass (atan2 (eastward longitude r) (northward latitude r) * degreesPerRadian)

omit [ExactMultiples α] in
theorem observed_seconds (r centre : Report α ρ) :
    (ofInt (r.time - centre.time) / msPerSecond + centre.time / 1000 : α) = r.time / 1000 := by
  rw [ExactScalar.ofInt_div_msPerSecond]
  push_cast
  ring

variable [TableInverse α] (inverts : TableInverse.Inverts α 4)
  (increase : (times reports).Pairwise (· < ·))

include inverts increase

omit [ExactMultiples α] in
/-- A coordinate that is a cubic of time starts at zero with the slope of the cubic. -/
theorem exists_cubic (coordinate : Position α → α) (unit : α) {p : Polynomial α}
    (hp : p.natDegree ≤ 3) (observed : ∀ r ∈ reports, coordinate r.position =
      unit * (p.eval (r.time / 1000 : α) - p.eval (centre.time / 1000 : α))) {ms : Int}
    (five : 5 ≤ (nearby reports centre ms).length) :
    ∃ coefficients,
      Polynomial.fit? degree (observe centre coordinate (nearby reports centre ms)) =
        some coefficients ∧
      coefficients.get 0 = 0 ∧
      coefficients.get 1 = unit * p.derivative.eval (centre.time / 1000 : α) := by
  have enough : degree < (observe centre coordinate (nearby reports centre ms)).length := by
    rw [observe, List.length_map, degree]
    omega
  obtain ⟨coefficients, found, reads⟩ := Polynomial.exists_fit
    (abscissas_nodup increase centre coordinate ms) enough inverts
  have values : ∀ o ∈ observe centre coordinate (nearby reports centre ms),
      o.2 = (since p (centre.time / 1000) unit).eval o.1 := by
    refine List.forall_mem_map.mpr ?_
    intro r hr
    rw [eval_since, observed_seconds]
    exact observed r (List.mem_of_mem_filter hr)
  have coefficient := reads _ (natDegree_since_le p (centre.time / 1000) unit hp) values
  exact ⟨coefficients, found, (coefficient 0).trans (coeff_zero_since _ _ _),
    (coefficient 1).trans (coeff_one_since _ _ _)⟩

theorem motionWithin?_of_cubic (way : CubicWay latitude longitude reports)
    (hcentre : centre ∈ reports) {ms : Int} {m : Motion α}
    (found : motionWithin? reports centre ms = some m) :
    m = motionOn latitude longitude centre := by
  let plane := LocalPlane.around centre.position
  have five := (motionWithin?_isSome_iff increase inverts centre ms).mp (Option.isSome_of_mem found)
  have few : ¬(nearby reports centre ms).length < degree + 2 := Nat.not_lt.mpr five
  have easterly : ∀ r ∈ reports, (plane.offset r.position).east = plane.nmPerDegreeLongitude *
      (longitude.eval (r.time / 1000 : α) - longitude.eval (centre.time / 1000 : α)) := by
    intro r hr
    obtain ⟨above, below⟩ := abs_lt.mp (way.near r hr centre hcentre)
    have same := (way.onLongitude r hr).sub (way.onLongitude centre hcentre)
    rw [← Angle.turn_eq_of_modEq same.symm above below.le]
    exact mul_comm _ _
  have northerly : ∀ r ∈ reports, (plane.offset r.position).north = nmPerDegreeLatitude *
      (latitude.eval (r.time / 1000 : α) - latitude.eval (centre.time / 1000 : α)) := by
    intro r hr
    rw [← way.onLatitude r hr, ← way.onLatitude centre hcentre]
    exact mul_comm _ _
  obtain ⟨east, heast, east_zero, east_one⟩ := exists_cubic inverts increase
    (fun p => (plane.offset p).east) _ way.longitudeDegree easterly five
  obtain ⟨north, hnorth, north_zero, north_one⟩ := exists_cubic inverts increase
    (fun p => (plane.offset p).north) _ way.latitudeDegree northerly five
  rw [motionWithin?_eq, if_neg few, motionAmong?, heast, Option.bind_some, hnorth,
    Option.bind_some, east_zero, east_one, north_zero, north_one, motionOf?] at found
  simp only [ExactScalar.isFinite_eq, Bool.and_self, guard, if_true] at found
  rw [LocalPlane.position_origin] at found
  exact (Option.some.inj found).symm

theorem motion?_of_cubic (s : MotionFit) (way : CubicWay latitude longitude reports)
    (hcentre : centre ∈ reports) {m : Motion α} (found : s.motion? reports centre = some m) :
    m = motionOn latitude longitude centre := by
  rcases Option.or_eq_some_iff.mp found with narrow | ⟨-, wide⟩
  · exact motionWithin?_of_cubic inverts increase way hcentre narrow
  · exact motionWithin?_of_cubic inverts increase way hcentre wide

end Exact

section Real

variable {latitude longitude : Polynomial ℝ} {reports : List (Report ℝ ρ)}

/-- Nautical miles per second. -/
noncomputable def pace (latitude longitude : Polynomial ℝ) (r : Report ℝ ρ) : ℝ :=
  √(eastward longitude r ^ 2 + northward latitude r ^ 2)

/-- A report of the flight, with the speed and the course that it has there. -/
structure OnFlight (latitude longitude : Polynomial ℝ) (new old : Report ℝ ρ) : Prop where
  edits : EditsWithin [.position, .speed, .course] new old
  kept : -180 ≤ old.position.longitude → old.position.longitude < 180 →
    new.position = old.position
  antimeridian : old.position.longitude = 180 → new.position = ⟨old.position.latitude, -180⟩
  speed : new.speed = some (3600 * pace latitude longitude old)
  course : ∃ course, new.course = some course ∧ 0 ≤ course ∧ course < 360 ∧
    pace latitude longitude old * Real.sin (course * (Real.pi / 180)) = eastward longitude old ∧
    pace latitude longitude old * Real.cos (course * (Real.pi / 180)) = northward latitude old

namespace OnFlight

variable {new old : Report ℝ ρ}

theorem unmoved (on : OnFlight latitude longitude new old) (above : -180 ≤ old.position.longitude)
    (below : old.position.longitude < 180) : EditsWithin [.speed, .course] new old where
  toEdits := on.edits.toEdits
  position _ := on.kept above below
  altitude _ := on.edits.altitude (by decide)
  speed untouched := absurd (by decide) untouched
  course untouched := absurd (by decide) untouched

theorem place (on : OnFlight latitude longitude new old)
    (inRange : -180 ≤ old.position.longitude ∧ old.position.longitude ≤ 180) :
    new.position.latitude = old.position.latitude ∧
      new.position.longitude ≡ old.position.longitude [PMOD 360] ∧
      -180 ≤ new.position.longitude ∧ new.position.longitude < 180 := by
  obtain ⟨above, most⟩ := inRange
  rcases most.lt_or_eq with below | edge
  · rw [on.kept above below]
    exact ⟨rfl, AddCommGroup.modEq_refl _, above, below⟩
  · rw [on.antimeridian edge, edge]
    exact ⟨rfl, Angle.antimeridian_modEq.symm, le_refl _, by norm_num⟩

end OnFlight

variable [TableInverse ℝ] (inverts : TableInverse.Inverts ℝ 4)
  (increase : (times reports).Pairwise (· < ·))

include inverts increase

theorem move_of_cubic (s : MotionFit) (way : CubicWay latitude longitude reports)
    {r : Report ℝ ρ} (hr : r ∈ reports) {m : Motion ℝ} (found : s.motion? reports r = some m) :
    OnFlight latitude longitude (move m r) r := by
  obtain rfl := motion?_of_cubic inverts increase s way hr found
  have position : (move (motionOn latitude longitude r) r).position =
      ⟨r.position.latitude, Angle.meridian r.position.longitude⟩ := rfl
  constructor
  case edits => exact move_edits (motionOn latitude longitude r) r
  case kept =>
    intro above below
    rw [position, Angle.meridian_of_mem above below]
  case antimeridian =>
    intro edge
    rw [position, edge,
      Angle.meridian_eq_of_modEq Angle.antimeridian_modEq (le_refl _) (by norm_num)]
  case speed =>
    have fast : 0 ≤ pace latitude longitude r * 3600 := by
      have := Real.sqrt_nonneg (eastward longitude r ^ 2 + northward latitude r ^ 2)
      rw [pace]
      positivity
    have speed :
        (motionOn latitude longitude r).speed = max (pace latitude longitude r * 3600) 0 := by
      rw [motionOn, ExactScalar.greatest_eq, ExactScalar.zero_eq, secondsPerHour,
        ExactScalar.ofInt_eq, Int.cast_ofNat]
      rfl
    calc (move (motionOn latitude longitude r) r).speed
      _ = ((r.withPosition r.position).withSpeed
            (some (motionOn latitude longitude r).speed)).speed := rfl
      _ = some (motionOn latitude longitude r).speed := withSpeed_speed _ _
      _ = some (3600 * pace latitude longitude r) := by
        rw [speed, max_eq_left fast, mul_comm]
  case course =>
    have course : (move (motionOn latitude longitude r) r).course =
        some (motionOn latitude longitude r).course := by
      rw [move, withCourse_course, Option.map_some]
      exact congrArg some (Angle.compass_compass _)
    obtain ⟨above, below⟩ := ExactRemainder.compass_mem
      (atan2 (eastward longitude r) (northward latitude r) * degreesPerRadian)
    obtain ⟨sin, cos⟩ := Angle.compass_atan2 (eastward longitude r) (northward latitude r)
    exact ⟨_, course, above, below, sin, cos⟩

theorem clean_of_cubic (s : MotionFit) (several : 2 ≤ reports.length)
    (way : CubicWay latitude longitude reports) {out : List (Report ℝ ρ)}
    (cleaned : s.clean reports = some out) :
    List.SublistForall₂ (OnFlight latitude longitude) out reports := by
  obtain ⟨-, moved⟩ := clean_spec s several fun r hr m found =>
    move_of_cubic inverts increase s way hr found
  exact List.sublistForall₂_iff.mpr ⟨_, moved out cleaned, List.filter_sublist⟩

theorem clean_keeps_positions (s : MotionFit) (way : CubicWay latitude longitude reports)
    (inRange : ∀ r ∈ reports, -180 ≤ r.position.longitude ∧ r.position.longitude < 180)
    {out : List (Report ℝ ρ)} (cleaned : s.clean reports = some out) :
    PartWithin [.speed, .course] out reports := by
  by_cases several : 2 ≤ reports.length
  · obtain ⟨absent, moved⟩ := clean_spec s several fun r hr m found =>
      (move_of_cubic inverts increase s way hr found).unmoved (inRange r hr).1 (inRange r hr).2
    exact List.sublistForall₂_iff.mpr ⟨_, moved out cleaned, List.filter_sublist⟩
  · exact clean_of_few s (Nat.not_le.mp several) cleaned

/-- Every report that stays has the speed and the course of the flight. It is exactly where it was
if its longitude is in the half-open range from -180 to 180 degrees. A report at 180 degrees, the
end outside that range, comes out at -180. Fitted once more, the reports that still stay do not
move. -/
theorem cubic_motion_exact (s : MotionFit) (several : 2 ≤ reports.length)
    (flight : CubicFlight latitude longitude reports) {out : List (Report ℝ ρ)}
    (cleaned : s.clean reports = some out) :
    List.SublistForall₂ (OnFlight latitude longitude) out reports ∧
      ∀ again, s.clean out = some again → PartWithin [.speed, .course] again out := by
  have on := clean_of_cubic inverts increase s several flight.way cleaned
  have part : PartWithin [.position, .speed, .course] out reports := by
    obtain ⟨part, each, hpart⟩ := List.sublistForall₂_iff.mp on
    exact List.sublistForall₂_iff.mpr ⟨part, each.imp fun _ _ on => on.edits, hpart⟩
  have increase' : (times out).Pairwise (· < ·) := increase.sublist part.edited.times_sublist
  have way : CubicWay latitude longitude out := by
    refine flight.way.part ?_
    intro r hr
    obtain ⟨q, hq, on⟩ := exists_edited on hr
    obtain ⟨same, around, -⟩ := on.place (flight.inRange q hq)
    exact ⟨q, hq, on.edits.time, same, around⟩
  have inRange : ∀ r ∈ out, -180 ≤ r.position.longitude ∧ r.position.longitude < 180 := by
    intro r hr
    obtain ⟨q, hq, on⟩ := exists_edited on hr
    exact (on.place (flight.inRange q hq)).2.2
  exact ⟨on, fun again found => clean_keeps_positions inverts increase' s way inRange found⟩

end Real

noncomputable instance : TableInverse ℝ := TableInverse.standard

noncomputable def turningNorth : Polynomial ℝ := .C (1 / 1000000) * .X ^ 3

noncomputable def steadyEast : Polynomial ℝ := .C (1 / 1000) * .X

noncomputable def turning : List (Report ℝ Unit) :=
  [0, 10000, 20000, 30000, 40000].map fun t : Int => {
    time := t
    position := ⟨turningNorth.eval (t / 1000 : ℝ), steadyEast.eval (t / 1000 : ℝ)⟩
    altitude := none
    speed := none
    course := none
    curvature := none
    alongTrackDistance := none
    trackId := none
    payload := () }

theorem turning_flight : CubicFlight turningNorth steadyEast turning := by
  have close : ∀ r ∈ turning, (0 ≤ r.position.latitude ∧ r.position.latitude ≤ 1) ∧
      0 ≤ r.position.longitude ∧ r.position.longitude ≤ 1 := by
    refine List.forall_mem_map.mpr ?_
    intro t ht
    have early : 0 ≤ t ∧ t ≤ 40000 := by
      revert t
      decide
    have seconds : (0 : ℝ) ≤ t / 1000 ∧ (t / 1000 : ℝ) ≤ 40 := by
      have start : (0 : ℝ) ≤ t := by exact_mod_cast early.1
      have stop : (t : ℝ) ≤ 40000 := by exact_mod_cast early.2
      constructor
      · positivity
      · linarith
    have cube := pow_le_pow_left₀ seconds.1 seconds.2 3
    have cube' := pow_nonneg seconds.1 3
    simp only [turningNorth, steadyEast, Polynomial.eval_mul, Polynomial.eval_C,
      Polynomial.eval_pow, Polynomial.eval_X]
    refine ⟨⟨?_, ?_⟩, ?_, ?_⟩
    · linarith
    · linarith
    · linarith
    · linarith
  constructor
  case latitudeDegree => exact Polynomial.natDegree_C_mul_X_pow_le _ 3
  case longitudeDegree =>
    have linear : steadyEast.natDegree ≤ 1 :=
      (Polynomial.natDegree_C_mul_le _ _).trans Polynomial.natDegree_X_le
    omega
  case position => exact List.forall_mem_map.mpr fun _ _ => rfl
  case offPoles =>
    intro r hr
    obtain ⟨⟨_, _⟩, -⟩ := close r hr
    constructor
    · linarith
    · linarith
  case inRange =>
    intro r hr
    obtain ⟨-, _, _⟩ := close r hr
    constructor
    · linarith
    · linarith
  case near =>
    intro r hr q hq
    obtain ⟨-, _, _⟩ := close r hr
    obtain ⟨-, _, _⟩ := close q hq
    rw [abs_lt]
    constructor
    · linarith
    · linarith

theorem turning_exact : TableInverse.Inverts ℝ 4 ∧ (times turning).Pairwise (· < ·) ∧
    2 ≤ turning.length ∧ CubicFlight turningNorth steadyEast turning ∧
    ∃ out, MotionFit.standard.clean turning = some out ∧
      times out = [0, 10000, 20000, 30000, 40000] ∧
      List.SublistForall₂ (OnFlight turningNorth steadyEast) out turning ∧
      ∀ again, MotionFit.standard.clean out = some again →
        PartWithin [.speed, .course] again out := by
  have inverts : TableInverse.Inverts ℝ 4 := TableInverse.standard_inverts (by decide)
  have increase : (times turning).Pairwise (· < ·) := by decide
  have several : 2 ≤ turning.length := by decide
  obtain ⟨absent, moved⟩ := clean_spec (R := fun new old => new.time = old.time)
    MotionFit.standard several fun _ _ _ _ => rfl
  have left : times (MotionFit.standard.surrounded turning) = [0, 10000, 20000, 30000, 40000] := by
    decide +kernel
  rw [filter_motion?_eq increase inverts] at absent moved
  refine ⟨inverts, increase, several, turning_flight, ?_⟩
  cases cleaned : MotionFit.standard.clean turning with
  | none =>
    rw [absent.mp cleaned] at left
    cases left
  | some out =>
    have same := times_eq_of_forall₂ (fun _ _ same => same) (moved out cleaned)
    exact ⟨out, rfl, same.trans left,
      cubic_motion_exact inverts increase .standard several turning_flight cleaned⟩

end MotionFit

end AirTraffic
