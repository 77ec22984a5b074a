import AirTraffic.Proofs.Geo.GreatCircle
import AirTraffic.Proofs.Report.Blend
import AirTraffic.Encounter.Instant

/-!
# The closest point of approach

On the sphere the offset between two aircraft is as long as they are apart, so along straight lines
they are never further apart at their closest than they are now.
-/
namespace AirTraffic

open Scalar

namespace Vector2

variable {u v : Vector2 ℝ}

theorem dot_self_nonneg (u : Vector2 ℝ) : 0 ≤ u.dot u :=
  add_nonneg (mul_self_nonneg u.north) (mul_self_nonneg u.east)

theorem norm_along {length : ℝ} (h : 0 ≤ length) (course : ℝ) :
    (Vector2.along length course).norm = length := by
  have square (c s : ℝ) (hcs : s ^ 2 + c ^ 2 = 1) :
      length * c * (length * c) + length * s * (length * s) = length ^ 2 := by
    linear_combination length ^ 2 * hcs
  refine (congrArg Real.sqrt (square _ _ (Real.sin_sq_add_cos_sq _))).trans ?_
  exact Real.sqrt_sq h

theorem dot_self_add_scale (k : ℝ) : (u.add (v.scale k)).dot (u.add (v.scale k)) =
    u.dot u + 2 * (k * u.dot v) + k ^ 2 * v.dot v := by
  unfold dot add scale
  ring

theorem norm_add_scale_le {k : ℝ} (hk : k = -(u.dot v) / v.dot v) :
    (u.add (v.scale k)).norm ≤ u.norm := by
  have foot : k ^ 2 * v.dot v = -(k * u.dot v) := by
    by_cases still : v.dot v = 0
    · rw [hk, still, div_zero]
      ring
    · have reached : k * v.dot v = -(u.dot v) := by rw [hk, div_mul_cancel₀ _ still]
      linear_combination k * reached
  have shorter : (u.add (v.scale k)).dot (u.add (v.scale k)) = u.dot u - k ^ 2 * v.dot v := by
    rw [dot_self_add_scale]
    linear_combination 2 * foot
  refine Real.sqrt_le_sqrt ?_
  rw [shorter]
  exact sub_le_self _ (mul_nonneg (sq_nonneg k) (dot_self_nonneg v))

end Vector2

theorem truncate_nonneg {x : ℝ} (hx : 0 ≤ x) : 0 ≤ truncate x := by
  change 0 ≤ ExactScalar.heldTo64Bits (ExactScalar.wholePart x)
  have whole : 0 ≤ ExactScalar.wholePart x := by
    unfold ExactScalar.wholePart
    rw [if_neg (not_lt.mpr hx)]
    exact Int.floor_nonneg.mpr hx
  unfold ExactScalar.heldTo64Bits
  omega

namespace Instant

variable {ρ : Type}

section Known

variable {α : Type}

theorem exists_altitude {r : Report α ρ} (h : r.Complete) :
    ∃ a, r.altitude = some a ∧ altitude r = .ok a := by
  obtain ⟨a, ha⟩ := Option.isSome_iff_exists.mp h.altitude
  refine ⟨a, ha, ?_⟩
  rw [altitude, ha]
  rfl

variable [Scalar α]

theorem exists_velocity {r : Report α ρ} (h : r.Complete) : ∃ v, velocity r = .ok v := by
  obtain ⟨u, hu⟩ := Option.isSome_iff_exists.mp h.speed
  obtain ⟨c, hc⟩ := Option.isSome_iff_exists.mp h.course
  refine ⟨.along u c, ?_⟩
  rw [velocity, speed, course, hu, hc]
  rfl

theorem exists_altitudeDelta {p : Instant α ρ} (hfirst : p.first.Complete)
    (hsecond : p.second.Complete) : ∃ a b, p.first.altitude = some a ∧
      p.second.altitude = some b ∧ p.altitudeDelta = .ok (Scalar.abs (a - b)) := by
  obtain ⟨a, ha, hfirst⟩ := exists_altitude hfirst
  obtain ⟨b, hb, hsecond⟩ := exists_altitude hsecond
  refine ⟨a, b, ha, hb, ?_⟩
  rw [altitudeDelta, hfirst, hsecond]
  rfl

end Known

variable {p : Instant ℝ ρ}

theorem norm_offset (p : Instant ℝ ρ) : p.offset.norm = p.lateral :=
  Vector2.norm_along (Geodesy.haversine_nonneg _ _) _

theorem closestApproach_of_velocity {u v : Vector2 ℝ} (htime : p.first.time = p.second.time)
    (hu : velocity p.first = .ok u) (hv : velocity p.second = .ok v) :
    p.closestApproach = .ok (if 0 < -(p.offset.dot (v.sub u)) / (v.sub u).dot (v.sub u) then
      ⟨truncate (-(p.offset.dot (v.sub u)) / (v.sub u).dot (v.sub u) * Units.msPerHour),
        (p.offset.add ((v.sub u).scale (-(p.offset.dot (v.sub u)) / (v.sub u).dot (v.sub u)))).norm⟩
      else ⟨0, p.lateral⟩) := by
  have later (hours : ℝ) : (isFinite hours && decide (zero < hours)) = decide (0 < hours) := by
    rw [ExactScalar.isFinite_eq, ExactScalar.zero_eq, Bool.true_and]
  rw [closestApproach, if_neg (not_not.mpr htime), hu, hv]
  simp only [bind, Except.bind, pure, Except.pure, later, decide_eq_true_eq]
  split
  · rfl
  · rfl

theorem exists_closestApproach (hfirst : p.first.Complete) (hsecond : p.second.Complete)
    (htime : p.first.time = p.second.time) : ∃ closest, p.closestApproach = .ok closest ∧
      0 ≤ closest.untilMs ∧ closest.distanceNm ≤ p.lateral := by
  obtain ⟨u, hu⟩ := exists_velocity hfirst
  obtain ⟨v, hv⟩ := exists_velocity hsecond
  refine ⟨_, closestApproach_of_velocity htime hu hv, ?_⟩
  split
  case isTrue ahead =>
    refine ⟨truncate_nonneg (mul_nonneg ahead.le ?_), ?_⟩
    · simp [Units.msPerHour]
    · rw [← norm_offset]
      exact Vector2.norm_add_scale_le rfl
  case isFalse => exact ⟨le_rfl, le_rfl⟩

end Instant

end AirTraffic
