import Mathlib.Analysis.InnerProductSpace.PiL2
import Mathlib.Geometry.Euclidean.Angle.Unoriented.TriangleInequality
import AirTraffic.Proofs.Geo.Pseudometric

/-!
# Distances on the sphere

A position is a direction from the centre of the earth. What the haversine form takes the root of
belongs to the angle between two directions, so distances are angles times the radius, and they obey
the triangle inequality because angles do. Latitudes may have any value, also past a pole.
-/
namespace AirTraffic

open Scalar AirTraffic.Units InnerProductGeometry

noncomputable instance : Geodesy ℝ := Geodesy.greatCircle

namespace Position

/-- The same place, reached after one more turn around the axis. -/
def turned {α : Type} [Scalar α] (p : Position α) : Position α :=
  { p with longitude := p.longitude + ofInt 360 }

noncomputable def direction (p : Position ℝ) : EuclideanSpace ℝ (Fin 3) :=
  .toLp _ ![cos (p.latitude * radiansPerDegree) * cos (p.longitude * radiansPerDegree),
    cos (p.latitude * radiansPerDegree) * sin (p.longitude * radiansPerDegree),
    sin (p.latitude * radiansPerDegree)]

end Position

namespace Geodesy

/-- What the haversine form takes the root of. -/
def squaredHalfChord {α : Type} [Scalar α] (p q : Position α) : α :=
  square (sin ((q.latitude - p.latitude) * radiansPerDegree / ofInt 2)) +
    cos (p.latitude * radiansPerDegree) * cos (q.latitude * radiansPerDegree) *
      square (sin ((q.longitude - p.longitude) * radiansPerDegree / ofInt 2))

theorem haversine_eq_root {α : Type} [Scalar α] (p q : Position α) : haversine p q =
    ofInt 2 * earthRadiusNm * asin (least (sqrt (squaredHalfChord p q)) one) := rfl

theorem radiansPerDegree_eq : (radiansPerDegree : ℝ) = Real.pi / 180 := by
  change Real.pi / ofInt 180 = _
  rw [ExactScalar.ofInt_eq, Int.cast_ofNat]

theorem earthRadiusNm_pos : (0 : ℝ) < earthRadiusNm := by
  simp only [earthRadiusNm, metersPerNm, ExactScalar.ofInt_eq]
  norm_num

theorem square_sin_half (x : ℝ) : square (sin (x / ofInt 2)) = (1 - Real.cos x) / 2 := by
  have double : 2 * (x / 2) = x := by ring
  have halved := Real.sin_sq_eq_half_sub (x / 2)
  rw [double] at halved
  rw [ExactScalar.ofInt_eq, Int.cast_ofNat]
  calc square (sin (x / 2))
    _ = Real.sin (x / 2) ^ 2 := (sq _).symm
    _ = (1 - Real.cos x) / 2 := by linarith

variable (p q : Position ℝ)

theorem norm_direction : ‖p.direction‖ = 1 := by
  have level := Real.sin_sq_add_cos_sq (p.latitude * radiansPerDegree)
  have around := Real.sin_sq_add_cos_sq (p.longitude * radiansPerDegree)
  have squared : ‖p.direction‖ ^ 2 = 1 := by
    rw [EuclideanSpace.real_norm_sq_eq, Fin.sum_univ_three]
    change (Real.cos _ * Real.cos _) ^ 2 + (Real.cos _ * Real.sin _) ^ 2 + Real.sin _ ^ 2 = 1
    linear_combination level + Real.cos (p.latitude * radiansPerDegree) ^ 2 * around
  exact (pow_eq_one_iff_of_nonneg (norm_nonneg _) two_ne_zero).mp squared

theorem inner_direction : inner ℝ p.direction q.direction =
    Real.sin (p.latitude * radiansPerDegree) * Real.sin (q.latitude * radiansPerDegree) +
      Real.cos (p.latitude * radiansPerDegree) * Real.cos (q.latitude * radiansPerDegree) *
        Real.cos ((q.longitude - p.longitude) * radiansPerDegree) := by
  rw [PiLp.inner_apply, Fin.sum_univ_three, sub_mul, Real.cos_sub]
  change Real.cos _ * Real.cos _ * (Real.cos _ * Real.cos _) +
    Real.cos _ * Real.sin _ * (Real.cos _ * Real.sin _) + Real.sin _ * Real.sin _ = _
  ring

/-- The law of cosines on the sphere. -/
theorem squaredHalfChord_eq :
    squaredHalfChord p q = (1 - Real.cos (angle p.direction q.direction)) / 2 := by
  rw [← inner_eq_cos_angle_of_norm_eq_one (norm_direction p) (norm_direction q), inner_direction]
  simp only [squaredHalfChord, square_sin_half]
  change (1 - Real.cos _) / 2 + Real.cos _ * Real.cos _ * ((1 - Real.cos _) / 2) = _
  rw [sub_mul q.latitude, Real.cos_sub (q.latitude * radiansPerDegree)]
  ring

theorem squaredHalfChord_mem : 0 ≤ squaredHalfChord p q ∧ squaredHalfChord p q ≤ 1 := by
  rw [squaredHalfChord_eq]
  constructor
  · linarith [Real.cos_le_one (angle p.direction q.direction)]
  · linarith [Real.neg_one_le_cos (angle p.direction q.direction)]

theorem least_root_one : least (sqrt (squaredHalfChord p q)) one = √(squaredHalfChord p q) := by
  have short : √(squaredHalfChord p q) ≤ 1 := Real.sqrt_le_one.mpr (squaredHalfChord_mem p q).2
  change least √(squaredHalfChord p q) one = √(squaredHalfChord p q)
  rw [ExactScalar.one_eq, least]
  rcases short.lt_or_eq with below | reached
  · exact if_pos below
  · rw [reached, if_neg (lt_irrefl 1), if_pos le_rfl]

theorem haversine_eq_angle : haversine p q = earthRadiusNm * angle p.direction q.direction := by
  have positive := Real.pi_pos
  have above := angle_nonneg p.direction q.direction
  have below := angle_le_pi p.direction q.direction
  have chord : √(squaredHalfChord p q) = Real.sin (angle p.direction q.direction / 2) := by
    rw [squaredHalfChord_eq, Real.sin_half_eq_sqrt above (by linarith)]
  rw [haversine_eq_root, least_root_one, chord]
  change ofInt 2 * earthRadiusNm * Real.arcsin (Real.sin _) = _
  rw [Real.arcsin_sin (by linarith) (by linarith), ExactScalar.ofInt_eq, Int.cast_ofNat]
  ring

theorem haversine_nonneg : 0 ≤ haversine p q := by
  rw [haversine_eq_angle]
  exact mul_nonneg earthRadiusNm_pos.le (angle_nonneg _ _)

theorem haversine_self : haversine p p = 0 := by
  have away : p.direction ≠ 0 := by
    intro still
    have length := norm_direction p
    rw [still, norm_zero] at length
    exact zero_ne_one length
  rw [haversine_eq_angle, angle_self away, mul_zero]

theorem haversine_comm : haversine p q = haversine q p := by
  rw [haversine_eq_angle, haversine_eq_angle, angle_comm]

theorem haversine_triangle (r : Position ℝ) :
    haversine p r ≤ haversine p q + haversine q r := by
  rw [haversine_eq_angle, haversine_eq_angle, haversine_eq_angle, ← mul_add]
  exact mul_le_mul_of_nonneg_left (angle_le_angle_add_angle _ _ _) earthRadiusNm_pos.le

theorem direction_turned : p.turned.direction = p.direction := by
  have turn : p.turned.longitude * radiansPerDegree =
      p.longitude * radiansPerDegree + 2 * Real.pi := by
    change (p.longitude + ofInt 360) * radiansPerDegree = _
    rw [radiansPerDegree_eq, ExactScalar.ofInt_eq, Int.cast_ofNat]
    ring
  have east : sin (p.turned.longitude * radiansPerDegree) =
      sin (p.longitude * radiansPerDegree) := by
    rw [turn]
    exact Real.sin_add_two_pi _
  have front : cos (p.turned.longitude * radiansPerDegree) =
      cos (p.longitude * radiansPerDegree) := by
    rw [turn]
    exact Real.cos_add_two_pi _
  rw [Position.direction, east, front]
  rfl

theorem greatCircle_isPseudoMetric : IsPseudoMetric ℝ := by
  constructor
  · exact haversine_self
  · exact haversine_comm
  · exact haversine_triangle

/-- On the sphere the haversine form is a pseudo-metric, whatever the latitudes and longitudes. -/
theorem haversine_pseudometric :
    (∀ p q : Position ℝ,
      haversine p q = 2 * earthRadiusNm * Real.arcsin (least √(squaredHalfChord p q) 1) ∧
      0 ≤ squaredHalfChord p q ∧ squaredHalfChord p q ≤ 1 ∧
      least √(squaredHalfChord p q) 1 = √(squaredHalfChord p q)) ∧
    (∀ p q : Position ℝ, 0 ≤ haversine p q) ∧
    (∀ p : Position ℝ, haversine p p = 0) ∧
    (∀ p q : Position ℝ, haversine p q = haversine q p) ∧
    (∀ p q : Position ℝ,
      haversine p.turned q = haversine p q ∧ haversine p q.turned = haversine p q) ∧
    ∀ p q r : Position ℝ, haversine p r ≤ haversine p q + haversine q r := by
  refine ⟨?_, haversine_nonneg, haversine_self, haversine_comm, ?_, haversine_triangle⟩
  · intro p q
    have unbounded := least_root_one p q
    have root := haversine_eq_root p q
    rw [ExactScalar.one_eq] at unbounded root
    rw [ExactScalar.ofInt_eq, Int.cast_ofNat] at root
    exact ⟨root, (squaredHalfChord_mem p q).1, (squaredHalfChord_mem p q).2, unbounded⟩
  · intro p q
    simp only [haversine_eq_angle, direction_turned, and_self]

end Geodesy

end AirTraffic
