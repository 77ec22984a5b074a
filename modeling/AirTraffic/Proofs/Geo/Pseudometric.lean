import Mathlib.Tactic.Positivity
import AirTraffic.Proofs.Scalar.Exact
import AirTraffic.Geo.Position

/-!
# Distances that are pseudo-metrics

Most of what is asked of the shape of the earth. Along one meridian the great circle keeps to the
meridian, where its length is plain.
-/
namespace AirTraffic.Geodesy

open Scalar AirTraffic.Units

structure IsPseudoMetric (α : Type) [ExactScalar α] [Geodesy α] : Prop where
  self : ∀ p : Position α, distance p p = 0
  symm : ∀ p q : Position α, distance p q = distance q p
  triangle : ∀ p q r : Position α, distance p r ≤ distance p q + distance q r

@[reducible] def meridian (α : Type) [Scalar α] : Geodesy α where
  distance p q := earthRadiusNm * (radiansPerDegree * abs (p.latitude - q.latitude))
  course p q := if p.latitude ≤ q.latitude then zero else ofInt 180
  destination p course d :=
    { p with
      latitude := p.latitude +
        cos (course * radiansPerDegree) * (d / earthRadiusNm) * degreesPerRadian }

theorem meridian_isPseudoMetric {α : Type} [ExactScalar α] (hpi : 0 ≤ (pi : α)) :
    @IsPseudoMetric α _ (meridian α) := by
  let := meridian α
  have scale : (0 : α) ≤ earthRadiusNm * radiansPerDegree := by
    unfold earthRadiusNm metersPerNm radiansPerDegree
    simp only [ExactScalar.ofInt_eq]
    positivity
  have eq : ∀ p q : Position α,
      distance p q = earthRadiusNm * radiansPerDegree * |p.latitude - q.latitude| := by
    intro p q
    rw [← ExactScalar.abs_eq, mul_assoc]
    rfl
  refine ⟨?_, ?_, ?_⟩
  · intro p
    rw [eq, sub_self, abs_zero, mul_zero]
  · intro p q
    rw [eq, eq, abs_sub_comm]
  · intro p q r
    rw [eq, eq, eq, ← mul_add]
    exact mul_le_mul_of_nonneg_left (abs_sub_le _ _ _) scale

instance : Geodesy ℚ := meridian ℚ

theorem rational_isPseudoMetric : IsPseudoMetric ℚ := meridian_isPseudoMetric (by decide +kernel)

end AirTraffic.Geodesy
