import AirTraffic.Proofs.Geo.Pseudometric
import AirTraffic.Proofs.Proximity.BallTree
import AirTraffic.Proximity.Metric

/-!
# What the metrics can measure

A metric admits a report that it can measure against itself. Both metrics measure all that they
admit: the flat one every report, the spatial one every report with an altitude.
-/
namespace AirTraffic.Metric

variable {α ρ : Type}

def Admits (metric : Metric α ρ) (r : Report α ρ) : Prop := ∃ x, metric r r = .ok x

theorem timeApart_comm (r q : Report α ρ) : timeApart r q = timeApart q r := by
  unfold timeApart
  omega

theorem timeApart_triangle (a b c : Report α ρ) :
    timeApart a c ≤ timeApart a b + timeApart b c := by
  unfold timeApart
  omega

variable [Scalar α] [Geodesy α]

theorem flat_admits (w : MetricWeights α) (r : Report α ρ) : (flat w).Admits r := ⟨_, rfl⟩

theorem spatial_ok (w : MetricWeights α) {r q : Report α ρ} {x y : α} (hr : r.altitude = some x)
    (hq : q.altitude = some y) : ∃ d, spatial w r q = .ok d := by
  unfold spatial requiredAltitude
  rw [hr, hq]
  exact ⟨_, rfl⟩

theorem spatial_error (w : MetricWeights α) {r : Report α ρ} (hr : r.altitude = none)
    (q : Report α ρ) :
    spatial w r q = .error (.missingAltitude r.time) := by
  unfold spatial requiredAltitude
  rw [hr]
  rfl

theorem spatial_admits_iff (w : MetricWeights α) (r : Report α ρ) :
    (spatial w).Admits r ↔ ∃ x, r.altitude = some x := by
  constructor
  · rintro ⟨d, hd⟩
    cases h : r.altitude with
    | some x => exact ⟨x, rfl⟩
    | none =>
      rw [spatial_error w h] at hd
      cases hd
  · rintro ⟨x, h⟩
    exact spatial_ok w h h

theorem flat_measures (w : MetricWeights α) :
    Measures (flat w : Metric α ρ) (flat w : Metric α ρ).Admits :=
  fun _ _ _ _ => ⟨_, rfl⟩

theorem spatial_measures (w : MetricWeights α) :
    Measures (spatial w : Metric α ρ) (spatial w : Metric α ρ).Admits := by
  intro r q hr hq
  obtain ⟨x, hx⟩ := (spatial_admits_iff w r).mp hr
  obtain ⟨y, hy⟩ := (spatial_admits_iff w q).mp hq
  exact spatial_ok w hx hy

variable {metric : Metric α ρ} {w : MetricWeights α}

theorem measures_of_standard (hm : metric = .flat w ∨ metric = .spatial w) :
    Measures metric metric.Admits := by
  rcases hm with rfl | rfl
  · exact flat_measures w
  · exact spatial_measures w

theorem not_admits_iff (hm : metric = .flat w ∨ metric = .spatial w) (r : Report α ρ) :
    ¬metric.Admits r ↔ metric = .spatial w ∧ r.altitude = none := by
  have spatial : ¬(Metric.spatial w : Metric α ρ).Admits r ↔ r.altitude = none := by
    rw [spatial_admits_iff, ← Option.isSome_iff_exists, Bool.not_eq_true,
      Option.isSome_eq_false_iff, Option.isNone_iff_eq_none]
  rcases hm with rfl | rfl
  · constructor
    · intro h
      exact absurd (flat_admits w r) h
    · rintro ⟨he, hr⟩
      rw [he]
      exact spatial.mpr hr
  · rw [spatial]
    exact (and_iff_right rfl).symm

section Exact

variable {α ρ : Type} [ExactScalar α] {w : MetricWeights α}

theorem weighted_triangle (ht : 0 ≤ w.time) (hd : 0 ≤ w.distance) {x y z : α} {l m n : Nat}
    (hx : x ≤ y + z) (hl : l ≤ m + n) : weighted w x l ≤ weighted w y m + weighted w z n := by
  have hl : (l : α) ≤ m + n := by exact_mod_cast hl
  simp only [weighted, ExactScalar.ofInt_eq, Int.cast_natCast]
  calc w.distance * x + w.time * l
    _ ≤ w.distance * (y + z) + w.time * (m + n) :=
      add_le_add (mul_le_mul_of_nonneg_left hx hd) (mul_le_mul_of_nonneg_left hl ht)
    _ = w.distance * y + w.time * m + (w.distance * z + w.time * n) := by ring

theorem feetPerNm_pos : (0 : α) < Units.feetPerNm := by
  unfold Units.feetPerNm
  rw [ExactScalar.ofDecimal_eq]
  positivity

variable [Geodesy α]

theorem feetApart_triangle (hg : Geodesy.IsPseudoMetric α) (a b c : Report α ρ) :
    feetApart a c ≤ feetApart a b + feetApart b c := by
  unfold feetApart
  rw [← add_mul]
  exact mul_le_mul_of_nonneg_right (hg.triangle _ _ _) feetPerNm_pos.le

def flatDistance (w : MetricWeights α) (r q : Report α ρ) : α :=
  weighted w (feetApart r q) (timeApart r q)

theorem flat_pseudoMetric (hg : Geodesy.IsPseudoMetric α) (ht : 0 ≤ w.time)
    (hd : 0 ≤ w.distance) :
    PseudoMetricOn (flat w : Metric α ρ) (flatDistance w) (flat w : Metric α ρ).Admits where
  measures _ _ _ _ := rfl
  self a _ := by
    simp [flatDistance, weighted, feetApart, timeApart, Report.distanceTo, hg.self]
  symm a b _ _ := by
    have feet : feetApart a b = feetApart b a := congrArg (· * _) (hg.symm _ _)
    rw [flatDistance, feet, timeApart_comm, flatDistance]
  triangle a b c _ _ _ :=
    weighted_triangle ht hd (feetApart_triangle hg a b c) (timeApart_triangle a b c)

end Exact

end AirTraffic.Metric
