import AirTraffic.Proofs.Geo.GreatCircle
import AirTraffic.Proofs.Geo.ShorterArc
import AirTraffic.Geo.LocalPlane

/-!
# There and back on a plane

A longitude goes onto the plane as the turn from the origin's, and comes back as a meridian. Both
are ways to write a direction, and between -180 and 180 degrees each direction has one number of
either kind: a position comes back as it was, also from across the antimeridian.
-/
namespace AirTraffic

open Scalar AirTraffic.Units

variable {α : Type} [ExactScalar α] [ExactMultiples α]

namespace Angle

theorem meridian_add_turn (origin : α) {x : α} (above : -180 ≤ x) (below : x < 180) :
    meridian (origin + turn x origin) = x := by
  have same := (turn_modEq x origin).add_left origin
  rw [add_sub_cancel] at same
  exact meridian_eq_of_modEq same above below

theorem turn_meridian_add (origin : α) {d : α} (near : |d| < 180) :
    turn (meridian (origin + d)) origin = d := by
  obtain ⟨above, below⟩ := abs_lt.mp near
  exact turn_eq_of_modEq_add (meridian_modEq _) above below.le

end Angle

namespace LocalPlane

omit [ExactMultiples α] in
theorem nmPerDegreeLatitude_pos : (0 : α) < nmPerDegreeLatitude := by
  unfold nmPerDegreeLatitude
  rw [ExactScalar.ofDecimal_eq]
  positivity

omit [ExactMultiples α] in
theorem position_origin (p : Position α) :
    (around p).position ⟨0, 0⟩ = ⟨p.latitude, Angle.meridian p.longitude⟩ := by
  simp only [position, around, zero_div, add_zero]

variable {plane : LocalPlane α}

theorem position_offset (wide : plane.nmPerDegreeLongitude ≠ 0) {p : Position α}
    (above : -180 ≤ p.longitude) (below : p.longitude < 180) :
    plane.position (plane.offset p) = p := by
  have latitude : plane.origin.latitude +
      (p.latitude - plane.origin.latitude) * nmPerDegreeLatitude / nmPerDegreeLatitude =
        p.latitude := by
    rw [mul_div_cancel_right₀ _ nmPerDegreeLatitude_pos.ne', add_sub_cancel]
  rw [position, offset, latitude, mul_div_cancel_right₀ _ wide,
    Angle.meridian_add_turn _ above below]

theorem offset_position (wide : plane.nmPerDegreeLongitude ≠ 0) {o : Offset α}
    (near : |o.east / plane.nmPerDegreeLongitude| < 180) :
    plane.offset (plane.position o) = o := by
  have north : (plane.origin.latitude + o.north / nmPerDegreeLatitude - plane.origin.latitude) *
      nmPerDegreeLatitude = o.north := by
    rw [add_sub_cancel_left, div_mul_cancel₀ _ nmPerDegreeLatitude_pos.ne']
  rw [offset, position, north, Angle.turn_meridian_add _ near, div_mul_cancel₀ _ wide]

/-- Off the poles every position comes back from the plane as it was, whatever the longitude of the
origin, and so does every point of the plane less than half a circle to the east or west. -/
theorem offset_and_position_cancel {origin : Position α}
    (offPoles : cos (origin.latitude * radiansPerDegree) ≠ 0) :
    let plane := around origin
    (∀ p : Position α, -180 ≤ p.longitude → p.longitude < 180 →
      plane.position (plane.offset p) = p) ∧
    ∀ o : Offset α, |o.east| < 180 * plane.nmPerDegreeLongitude →
      plane.offset (plane.position o) = o := by
  intro plane
  have wide : plane.nmPerDegreeLongitude ≠ 0 := mul_ne_zero nmPerDegreeLatitude_pos.ne' offPoles
  refine ⟨fun p above below => position_offset wide above below, fun o near => ?_⟩
  have positive : 0 < plane.nmPerDegreeLongitude := by
    have := (abs_nonneg _).trans_lt near
    linarith
  refine offset_position wide ?_
  rwa [abs_div, abs_of_pos positive, div_lt_iff₀ positive]

noncomputable def nearAntimeridian : Position ℝ := ⟨60, 179⟩

theorem there_and_back_over_antimeridian :
    let plane := around nearAntimeridian
    let p : Position ℝ := ⟨61, -179⟩
    let o : Offset ℝ := ⟨90 * plane.nmPerDegreeLongitude, -30⟩
    cos (nearAntimeridian.latitude * radiansPerDegree) ≠ 0 ∧
    -180 ≤ p.longitude ∧ p.longitude < 180 ∧ |o.east| < 180 * plane.nmPerDegreeLongitude ∧
    plane.position (plane.offset p) = p ∧ plane.offset (plane.position o) = o := by
  intro plane p o
  have cosine : cos (nearAntimeridian.latitude * radiansPerDegree) = 1 / 2 := by
    have third : nearAntimeridian.latitude * radiansPerDegree = Real.pi / 3 := by
      rw [Geodesy.radiansPerDegree_eq]
      change 60 * (Real.pi / 180) = _
      ring
    rw [third]
    exact Real.cos_pi_div_three
  have offPoles : cos (nearAntimeridian.latitude * radiansPerDegree) ≠ 0 := by
    rw [cosine]
    norm_num
  have positive : 0 < plane.nmPerDegreeLongitude := by
    change 0 < nmPerDegreeLatitude * cos (nearAntimeridian.latitude * radiansPerDegree)
    rw [cosine]
    exact mul_pos nmPerDegreeLatitude_pos one_half_pos
  have near : |o.east| < 180 * plane.nmPerDegreeLongitude := by
    change |90 * plane.nmPerDegreeLongitude| < _
    rw [abs_of_pos (by positivity)]
    linarith
  have above : -180 ≤ p.longitude := by norm_num [p]
  have below : p.longitude < 180 := by norm_num [p]
  obtain ⟨back, forth⟩ := offset_and_position_cancel offPoles
  exact ⟨offPoles, above, below, near, back p above below, forth o near⟩

end LocalPlane

end AirTraffic
