import Mathlib.Analysis.Real.Pi.Bounds
import Mathlib.Order.Bounds.Basic
import AirTraffic.Proofs.Encounter.Closest

/-!
# Flying straight on

The square of the distance is a parabola in time, so it has its least value where the offset and the
relative velocity are at right angles, or now if that is past. This is the closest point of
approach, and aircraft have yet to come closer exactly if the distance is shrinking.
-/
namespace AirTraffic

open Scalar

namespace Vector2

/-- How far apart aircraft are that many hours on. -/
noncomputable def distanceAfter (offset relative : Vector2 ℝ) (hours : ℝ) : ℝ :=
  (offset.add (relative.scale hours)).norm

/-- The hours until the offset is at right angles to the relative velocity, none if that is past.
Without a relative velocity there is no such time, and the quotient is zero. -/
noncomputable def hoursToClosest (offset relative : Vector2 ℝ) : ℝ :=
  max 0 (-(offset.dot relative) / relative.dot relative)

variable {offset relative : Vector2 ℝ} {hours : ℝ}

theorem distanceAfter_zero (offset relative : Vector2 ℝ) :
    distanceAfter offset relative 0 = offset.norm := by
  unfold distanceAfter norm
  rw [dot_self_add_scale]
  ring_nf

theorem dot_self_from (start hours : ℝ) :
    (offset.add (relative.scale hours)).dot (offset.add (relative.scale hours)) =
      (offset.add (relative.scale start)).dot (offset.add (relative.scale start)) +
        2 * ((hours - start) * (offset.dot relative + start * relative.dot relative)) +
        (hours - start) ^ 2 * relative.dot relative := by
  rw [dot_self_add_scale, dot_self_add_scale]
  ring

theorem dot_eq_zero_of_still (h : relative.dot relative = 0) : offset.dot relative = 0 := by
  obtain ⟨north, east⟩ := mul_self_add_mul_self_eq_zero.mp h
  unfold dot
  rw [north, east]
  ring

theorem moving_of_dot_ne_zero (h : offset.dot relative ≠ 0) : 0 < relative.dot relative :=
  lt_of_le_of_ne (dot_self_nonneg relative) fun still => h (dot_eq_zero_of_still still.symm)

theorem hoursToClosest_nonneg : 0 ≤ hoursToClosest offset relative := le_max_left _ _

theorem hoursToClosest_of_apart (h : 0 ≤ offset.dot relative) :
    hoursToClosest offset relative = 0 :=
  max_eq_left (div_nonpos_of_nonpos_of_nonneg (neg_nonpos.mpr h) (dot_self_nonneg relative))

theorem hoursToClosest_pos (h : offset.dot relative < 0) : 0 < hoursToClosest offset relative :=
  lt_max_of_lt_right (div_pos (neg_pos.mpr h) (moving_of_dot_ne_zero h.ne))

theorem right_angle (h : offset.dot relative < 0) :
    offset.dot relative + hoursToClosest offset relative * relative.dot relative = 0 := by
  have moving := moving_of_dot_ne_zero h.ne
  have ahead : hoursToClosest offset relative = -(offset.dot relative) / relative.dot relative :=
    max_eq_right (div_pos (neg_pos.mpr h) moving).le
  rw [ahead, div_mul_cancel₀ _ moving.ne']
  exact add_neg_cancel _

theorem distanceAfter_closest_le (h : 0 ≤ hours) :
    distanceAfter offset relative (hoursToClosest offset relative) ≤
      distanceAfter offset relative hours := by
  refine Real.sqrt_le_sqrt ?_
  rw [dot_self_from (hoursToClosest offset relative) hours]
  have opening : 0 ≤ (hours - hoursToClosest offset relative) *
      (offset.dot relative + hoursToClosest offset relative * relative.dot relative) := by
    rcases lt_or_ge (offset.dot relative) 0 with closing | apart
    · rw [right_angle closing, mul_zero]
    · rw [hoursToClosest_of_apart apart, sub_zero, zero_mul, add_zero]
      exact mul_nonneg h apart
  have curved := mul_nonneg (sq_nonneg (hours - hoursToClosest offset relative))
    (dot_self_nonneg relative)
  linarith

theorem distanceAfter_closest_lt (h : hours < hoursToClosest offset relative) (hnow : 0 ≤ hours) :
    distanceAfter offset relative (hoursToClosest offset relative) <
      distanceAfter offset relative hours := by
  have closing : offset.dot relative < 0 := by
    by_contra apart
    rw [hoursToClosest_of_apart (not_lt.mp apart)] at h
    exact not_lt.mpr hnow h
  refine Real.sqrt_lt_sqrt (dot_self_nonneg _) ?_
  rw [dot_self_from (hoursToClosest offset relative) hours, right_angle closing]
  have curved := mul_pos (sq_pos_of_neg (sub_neg.mpr h)) (moving_of_dot_ne_zero closing.ne)
  linarith

theorem distanceAfter_closest_lt_norm_iff :
    distanceAfter offset relative (hoursToClosest offset relative) < offset.norm ↔
      offset.dot relative < 0 := by
  constructor
  · intro closer
    by_contra apart
    rw [hoursToClosest_of_apart (not_lt.mp apart), distanceAfter_zero] at closer
    exact lt_irrefl _ closer
  · intro closing
    rw [← distanceAfter_zero offset relative]
    exact distanceAfter_closest_lt (hoursToClosest_pos closing) le_rfl

theorem dot_sub_swap (w u v : Vector2 ℝ) : w.dot (u.sub v) = -(w.dot (v.sub u)) := by
  unfold dot sub
  ring

end Vector2

/-- The least distance over all the time to come, and the whole milliseconds until it is first
reached, of which no more are told than 64 bits hold. -/
structure ClosestApproach.Optimal (offset relative : Vector2 ℝ) (closest : ClosestApproach ℝ) :
    Prop where
  distance : IsLeast (offset.distanceAfter relative '' Set.Ici 0) closest.distanceNm
  time : ∃ hours, IsLeast {t | 0 ≤ t ∧ offset.distanceAfter relative t = closest.distanceNm} hours ∧
    closest.untilMs = min (2 ^ 63 - 1) ⌊hours * 3600000⌋

noncomputable def ClosestApproach.straightOn (offset relative : Vector2 ℝ) : ClosestApproach ℝ where
  untilMs := min (2 ^ 63 - 1) ⌊offset.hoursToClosest relative * 3600000⌋
  distanceNm := offset.distanceAfter relative (offset.hoursToClosest relative)

/-- No point of the parabola is below the right angle, and none before it is as low. -/
theorem ClosestApproach.straightOn_optimal (offset relative : Vector2 ℝ) :
    (straightOn offset relative).Optimal offset relative where
  distance := by
    refine ⟨⟨_, Vector2.hoursToClosest_nonneg, rfl⟩, ?_⟩
    rintro _ ⟨t, ht, rfl⟩
    exact Vector2.distanceAfter_closest_le ht
  time := by
    refine ⟨_, ⟨⟨Vector2.hoursToClosest_nonneg, rfl⟩, ?_⟩, rfl⟩
    rintro t ⟨ht, reached⟩
    by_contra sooner
    have closer := Vector2.distanceAfter_closest_lt (not_le.mp sooner) ht
    exact closer.ne reached.symm

theorem truncate_eq_floor {x : ℝ} (hx : 0 ≤ x) : truncate x = min (2 ^ 63 - 1) ⌊x⌋ := by
  have whole : ExactScalar.wholePart x = ⌊x⌋ := if_neg (not_lt.mpr hx)
  have := Int.floor_nonneg.mpr hx
  change max (-2 ^ 63) (min (2 ^ 63 - 1) (ExactScalar.wholePart x)) = _
  rw [whole]
  omega

namespace Instant

variable {ρ : Type}

theorem velocity_of_known {α : Type} [Scalar α] {r : Report α ρ} {speed course : α}
    (hspeed : r.speed = some speed) (hcourse : r.course = some course) :
    velocity r = .ok (.along speed course) := by
  rw [velocity, Instant.speed, Instant.course, hspeed, hcourse]
  rfl

variable {p : Instant ℝ ρ} {u v : Vector2 ℝ}

theorem closestApproach_eq (htime : p.first.time = p.second.time)
    (hu : velocity p.first = .ok u) (hv : velocity p.second = .ok v) :
    p.closestApproach = .ok (.straightOn p.offset (v.sub u)) := by
  rw [closestApproach_of_velocity htime hu hv]
  congr 1
  unfold ClosestApproach.straightOn
  split
  case isTrue ahead =>
    have hours : p.offset.hoursToClosest (v.sub u) =
      -(p.offset.dot (v.sub u)) / (v.sub u).dot (v.sub u) := max_eq_right ahead.le
    have perHour : (Units.msPerHour : ℝ) = 3600000 := by simp [Units.msPerHour]
    rw [hours, perHour, truncate_eq_floor (mul_nonneg ahead.le (by norm_num))]
    rfl
  case isFalse past =>
    have hours : p.offset.hoursToClosest (v.sub u) = 0 := max_eq_left (not_lt.mp past)
    rw [hours, Vector2.distanceAfter_zero, norm_offset, zero_mul, Int.floor_zero]
    rfl

theorem closure_eq (hu : velocity p.first = .ok u) (hv : velocity p.second = .ok v)
    (hapart : ofDecimal 1 3 ≤ p.lateral) :
    p.closure = .ok (-(p.offset.dot (v.sub u)) / p.lateral) := by
  rw [closure, norm_offset, if_neg (not_lt.mpr hapart), hu, hv, ← Vector2.dot_sub_swap]
  rfl

theorem lateral_pos (hapart : ofDecimal 1 3 ≤ p.lateral) : 0 < p.lateral := by
  refine lt_of_lt_of_le ?_ hapart
  rw [ExactScalar.ofDecimal_eq]
  norm_num

end Instant

namespace Geodesy

variable {x : ℝ}

theorem sin_zero_eq : sin (0 : ℝ) = 0 := Real.sin_zero

theorem haversine_north (hx : 0 ≤ x) (h : x ≤ 180) :
    haversine (⟨0, 0⟩ : Position ℝ) ⟨x, 0⟩ = Units.earthRadiusNm * (x * (Real.pi / 180)) := by
  have positive := Real.pi_pos
  have across : inner ℝ (⟨0, 0⟩ : Position ℝ).direction (⟨x, 0⟩ : Position ℝ).direction =
      Real.cos (x * (Real.pi / 180)) := by
    rw [inner_direction, radiansPerDegree_eq]
    simp
  rw [haversine_eq_angle, InnerProductGeometry.angle, across, norm_direction, norm_direction,
    mul_one, div_one, Real.arccos_cos (by positivity) (by nlinarith)]

theorem initialCourse_north (hx : 0 < x) (h : x < 180) :
    initialCourse (⟨0, 0⟩ : Position ℝ) ⟨x, 0⟩ = 0 := by
  have positive := Real.pi_pos
  have rising : 0 < Real.sin (x * (Real.pi / 180)) :=
    Real.sin_pos_of_pos_of_lt_pi (by positivity) (by nlinarith)
  have ahead : atan2 (0 : ℝ) (sin (x * (Real.pi / 180))) = 0 :=
    Complex.arg_ofReal_of_nonneg rising.le
  have level : cos (0 : ℝ) = 1 := Real.cos_zero
  unfold initialCourse
  simp only [radiansPerDegree_eq, sub_zero, zero_mul, sin_zero_eq, level, one_mul, ahead]
  exact ExactRemainder.compass_of_mem le_rfl (by norm_num)

end Geodesy

theorem Vector2.along_north (length : ℝ) : Vector2.along length 0 = ⟨length, 0⟩ := by
  have level : cos (0 : ℝ) = 1 := Real.cos_zero
  unfold Vector2.along
  simp only [zero_mul, level, Geodesy.sin_zero_eq, mul_one, mul_zero]

namespace Instant

/-- One aircraft flies north from the equator, the other rests a degree ahead of it. -/
noncomputable def degreeBehind (speed : ℝ) : Instant ℝ Unit where
  first := ⟨0, ⟨0, 0⟩, none, some speed, some 0, none, none, none, ()⟩
  second := ⟨0, ⟨1, 0⟩, none, some 0, some 0, none, none, none, ()⟩

section DegreeBehind

variable (speed : ℝ)

theorem lateral_degreeBehind : 50 < (degreeBehind speed).lateral := by
  have radius : (3440 : ℝ) < Units.earthRadiusNm := by
    unfold Units.earthRadiusNm Units.metersPerNm
    simp only [ExactScalar.ofInt_eq]
    norm_num
  have degree : (degreeBehind speed).lateral = Units.earthRadiusNm * (1 * (Real.pi / 180)) :=
    Geodesy.haversine_north zero_le_one (by norm_num)
  rw [degree]
  nlinarith [Real.pi_gt_three]

theorem offset_degreeBehind :
    (degreeBehind speed).offset = ⟨(degreeBehind speed).lateral, 0⟩ := by
  have north : (degreeBehind speed).first.courseTo (degreeBehind speed).second = 0 :=
    Geodesy.initialCourse_north zero_lt_one (by norm_num)
  rw [offset, north, Vector2.along_north]

theorem distanceAfter_degreeBehind (hours : ℝ) : (degreeBehind speed).offset.distanceAfter
    ((Vector2.along 0 0).sub (.along speed 0)) hours =
      |(degreeBehind speed).lateral - speed * hours| := by
  have square (d : ℝ) : (d + (0 - speed) * hours) * (d + (0 - speed) * hours) +
      (0 + (0 - 0) * hours) * (0 + (0 - 0) * hours) = (d - speed * hours) ^ 2 := by ring
  rw [offset_degreeBehind, Vector2.along_north, Vector2.along_north, ← Real.sqrt_sq_eq_abs,
    ← square]
  rfl

theorem least_degreeBehind {distance : ℝ} (hspeed : 0 < speed)
    (least : IsLeast ((degreeBehind speed).offset.distanceAfter
      ((Vector2.along 0 0).sub (.along speed 0)) '' Set.Ici 0) distance) : distance = 0 := by
  have there : (degreeBehind speed).offset.distanceAfter ((Vector2.along 0 0).sub (.along speed 0))
      ((degreeBehind speed).lateral / speed) = 0 := by
    rw [distanceAfter_degreeBehind, mul_div_cancel₀ _ hspeed.ne', sub_self, abs_zero]
  have ahead : 0 ≤ (degreeBehind speed).lateral / speed :=
    div_nonneg (Geodesy.haversine_nonneg _ _) hspeed.le
  refine le_antisymm (least.2 ⟨_, ahead, there⟩) ?_
  obtain ⟨hours, -, reached⟩ := least.1
  rw [← reached]
  exact Real.sqrt_nonneg _

end DegreeBehind

variable {p : Instant ℝ ρ}

/-- The closest point of approach is the least distance over all the time to come, told with the
time at which it is first reached: now for aircraft that do not approach each other. Aircraft that
are a thousandth of a mile apart come closer exactly if they close. -/
theorem closestApproach_optimal {speed course speed' course' : ℝ}
    (htime : p.first.time = p.second.time)
    (hspeed : p.first.speed = some speed) (hcourse : p.first.course = some course)
    (hspeed' : p.second.speed = some speed') (hcourse' : p.second.course = some course') :
    ∃ closest relative, p.closestApproach = .ok closest ∧
      relative = (Vector2.along speed' course').sub (.along speed course) ∧
      closest.Optimal p.offset relative ∧
      closest.distanceNm ≤ p.lateral ∧
      (0 ≤ p.offset.dot relative → closest = ⟨0, p.lateral⟩) ∧
      (ofDecimal 1 3 ≤ p.lateral →
        ∃ rate, p.closure = .ok rate ∧ (closest.distanceNm < p.lateral ↔ 0 < rate)) := by
  have hu := velocity_of_known hspeed hcourse
  have hv := velocity_of_known hspeed' hcourse'
  refine ⟨_, _, closestApproach_eq htime hu hv, rfl,
    ClosestApproach.straightOn_optimal _ _, ?noFurther, ?now, ?closing⟩
  case noFurther =>
    rw [← norm_offset, ← Vector2.distanceAfter_zero]
    exact Vector2.distanceAfter_closest_le le_rfl
  case now =>
    intro apart
    unfold ClosestApproach.straightOn
    rw [Vector2.hoursToClosest_of_apart apart, Vector2.distanceAfter_zero, norm_offset, zero_mul,
      Int.floor_zero]
    rfl
  case closing =>
    intro hapart
    refine ⟨_, closure_eq hu hv hapart, ?_⟩
    rw [div_pos_iff_of_pos_right (lateral_pos hapart), neg_pos, ← norm_offset]
    exact Vector2.distanceAfter_closest_lt_norm_iff

/-- An aircraft at 480 knots closes on the one a degree ahead, and meets it. -/
theorem degreeBehind_meets : ∃ closest relative rate,
    (degreeBehind 480).closestApproach = .ok closest ∧
      closest.Optimal (degreeBehind 480).offset relative ∧ closest.distanceNm = 0 ∧
      (degreeBehind 480).closure = .ok rate ∧ 0 < rate := by
  obtain ⟨closest, relative, answer, rfl, optimal, -, -, closing⟩ :=
    closestApproach_optimal (p := degreeBehind 480) rfl rfl rfl rfl rfl
  have met := least_degreeBehind 480 (by norm_num) optimal.distance
  have far := lateral_degreeBehind 480
  have apart : ofDecimal 1 3 ≤ (degreeBehind 480).lateral := by
    rw [ExactScalar.ofDecimal_eq]
    refine le_trans ?_ far.le
    norm_num
  obtain ⟨rate, known, closer⟩ := closing apart
  refine ⟨closest, _, rate, answer, optimal, met, known, closer.mp ?_⟩
  rw [met]
  linarith

/-- At a trillionth of a knot it takes more milliseconds than 64 bits can tell. -/
theorem degreeBehind_untold : ∃ closest hours,
    (degreeBehind (1 / 10 ^ 12)).closestApproach = .ok closest ∧
    IsLeast {t | 0 ≤ t ∧ (degreeBehind (1 / 10 ^ 12)).offset.distanceAfter
      ((Vector2.along 0 0).sub (.along (1 / 10 ^ 12) 0)) t = closest.distanceNm} hours ∧
    closest.untilMs ≠ ⌊hours * 3600000⌋ := by
  have answer := closestApproach_eq (p := degreeBehind (1 / 10 ^ 12)) rfl
    (velocity_of_known rfl rfl) (velocity_of_known rfl rfl)
  obtain ⟨distance, hours, least, told⟩ := ClosestApproach.straightOn_optimal
    (degreeBehind (1 / 10 ^ 12)).offset ((Vector2.along 0 0).sub (.along (1 / 10 ^ 12) 0))
  refine ⟨_, hours, answer, least, ?_⟩
  have far := lateral_degreeBehind (1 / 10 ^ 12)
  have flown : hours = (degreeBehind (1 / 10 ^ 12)).lateral * 10 ^ 12 := by
    have met := least.1.2
    rw [least_degreeBehind _ (by norm_num) distance, distanceAfter_degreeBehind, abs_eq_zero] at met
    linarith
  have long : (2 ^ 63 : ℤ) ≤ ⌊hours * 3600000⌋ := by
    rw [Int.le_floor, flown]
    push_cast
    linarith
  rw [told]
  omega

end Instant

end AirTraffic
