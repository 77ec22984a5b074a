import AirTraffic.Proofs.Geo.GreatCircle
import AirTraffic.Proofs.Proximity.Metric

/-!
# Both metrics are metrics

A weighted sum of pseudo-metrics is one, and so is the hypotenuse of two: the spatial metric blends
the way between two positions with the difference of their altitudes.
-/
namespace AirTraffic

open Scalar

namespace Metric

variable {ρ : Type}

section Altitude

variable {α : Type} [Scalar α] [Geodesy α] {w : MetricWeights α} {r q : Report α ρ}

theorem spatial_of_unknown (h : r.altitude = none ∨ q.altitude = none) :
    ∃ e, spatial w r q = .error e := by
  cases hr : r.altitude with
  | none => exact ⟨_, spatial_error w hr q⟩
  | some x =>
    have hq : q.altitude = none := by simpa [hr] using h
    refine ⟨.missingAltitude q.time, ?_⟩
    simp [spatial, requiredAltitude, hr, hq, bind, Except.bind]

theorem spatial_error_iff :
    (∃ e, spatial w r q = .error e) ↔ r.altitude = none ∨ q.altitude = none := by
  constructor
  · rintro ⟨e, he⟩
    by_contra known
    rw [not_or] at known
    obtain ⟨x, hx⟩ := Option.ne_none_iff_exists'.mp known.1
    obtain ⟨y, hy⟩ := Option.ne_none_iff_exists'.mp known.2
    obtain ⟨d, hd⟩ := spatial_ok w hx hy
    rw [hd] at he
    cases he
  · exact spatial_of_unknown

end Altitude

theorem hypot_eq_norm (x y : ℝ) : hypot x y = ‖(⟨x, y⟩ : ℂ)‖ := by
  rw [Complex.norm_eq_sqrt_sq_add_sq]
  rfl

theorem hypot_le_hypot {x y u v : ℝ} (hx : 0 ≤ x) (hxu : x ≤ u) (hy : 0 ≤ y) (hyv : y ≤ v) :
    hypot x y ≤ hypot u v :=
  Real.sqrt_le_sqrt (add_le_add (pow_le_pow_left₀ hx hxu 2) (pow_le_pow_left₀ hy hyv 2))

theorem hypot_add_le (x y u v : ℝ) : hypot (x + u) (y + v) ≤ hypot x y + hypot u v := by
  rw [hypot_eq_norm, hypot_eq_norm, hypot_eq_norm]
  exact norm_add_le (⟨x, y⟩ : ℂ) ⟨u, v⟩

/-- How far apart two reports are in altitude, if both have one. -/
noncomputable def heightApart (r q : Report ℝ ρ) : ℝ := |r.altitude.getD 0 - q.altitude.getD 0|

theorem heightApart_comm (r q : Report ℝ ρ) : heightApart r q = heightApart q r := abs_sub_comm _ _

theorem heightApart_triangle (a b c : Report ℝ ρ) :
    heightApart a c ≤ heightApart a b + heightApart b c := abs_sub_le _ _ _

section Spatial

variable [Geodesy ℝ] {w : MetricWeights ℝ}

noncomputable def spatialDistance (w : MetricWeights ℝ) (r q : Report ℝ ρ) : ℝ :=
  weighted w (hypot (feetApart r q) (heightApart r q)) (timeApart r q)

theorem spatial_eq {r q : Report ℝ ρ} (hr : r.altitude ≠ none) (hq : q.altitude ≠ none) :
    spatial w r q = .ok (spatialDistance w r q) := by
  obtain ⟨x, hx⟩ := Option.ne_none_iff_exists'.mp hr
  obtain ⟨y, hy⟩ := Option.ne_none_iff_exists'.mp hq
  simp [spatial, requiredAltitude, spatialDistance, heightApart, hx, hy, bind, Except.bind, pure,
    Except.pure]

theorem feetApart_nonneg (hg : Geodesy.IsPseudoMetric ℝ) (r q : Report ℝ ρ) :
    0 ≤ feetApart r q := by
  have thereAndBack := feetApart_triangle hg r q r
  have same : feetApart r r = 0 := by simp [feetApart, Report.distanceTo, hg.self]
  have back : feetApart q r = feetApart r q := congrArg (· * _) (hg.symm _ _)
  linarith

theorem spatial_triangle (hg : Geodesy.IsPseudoMetric ℝ) (a b c : Report ℝ ρ) :
    hypot (feetApart a c) (heightApart a c) ≤
      hypot (feetApart a b) (heightApart a b) + hypot (feetApart b c) (heightApart b c) :=
  calc hypot (feetApart a c) (heightApart a c)
    _ ≤ hypot (feetApart a b + feetApart b c) (heightApart a b + heightApart b c) :=
      hypot_le_hypot (feetApart_nonneg hg a c) (feetApart_triangle hg a b c) (abs_nonneg _)
        (heightApart_triangle a b c)
    _ ≤ hypot (feetApart a b) (heightApart a b) + hypot (feetApart b c) (heightApart b c) :=
      hypot_add_le _ _ _ _

theorem spatial_pseudoMetric (hg : Geodesy.IsPseudoMetric ℝ) (ht : 0 ≤ w.time)
    (hd : 0 ≤ w.distance) :
    PseudoMetricOn (spatial w : Metric ℝ ρ) (spatialDistance w) (·.altitude ≠ none) where
  measures _ _ ha hb := spatial_eq ha hb
  self a _ := by
    have level : hypot (0 : ℝ) 0 = 0 := by rw [hypot_eq_norm]; exact norm_zero
    simp [spatialDistance, weighted, feetApart, heightApart, timeApart, Report.distanceTo, hg.self,
      level]
  symm a b _ _ := by
    have feet : feetApart a b = feetApart b a := congrArg (· * _) (hg.symm _ _)
    rw [spatialDistance, feet, heightApart_comm, timeApart_comm, spatialDistance]
  triangle a b c _ _ _ :=
    weighted_triangle ht hd (spatial_triangle hg a b c) (timeApart_triangle a b c)

/-- With weights that are not negative, both metrics are pseudo-metrics wherever they can measure:
the flat one everywhere, the spatial one among reports with an altitude and nowhere else. -/
theorem both_are_pseudometrics (hg : Geodesy.IsPseudoMetric ℝ) (ht : 0 ≤ w.time)
    (hd : 0 ≤ w.distance) :
    (∃ d, PseudoMetricOn (flat w : Metric ℝ ρ) d (fun _ => True) ∧ ∀ r q, 0 ≤ d r q) ∧
    (∃ d, PseudoMetricOn (spatial w : Metric ℝ ρ) d (·.altitude ≠ none) ∧
      ∀ r q, r.altitude ≠ none → q.altitude ≠ none → 0 ≤ d r q) ∧
    ∀ (anyWeights : MetricWeights ℝ) (r q : Report ℝ ρ),
      (∃ e, spatial anyWeights r q = .error e) ↔ r.altitude = none ∨ q.altitude = none := by
  have flatly := (flat_pseudoMetric (ρ := ρ) hg ht hd).mono (Q := fun _ => True)
    fun r _ => flat_admits w r
  have spatially := spatial_pseudoMetric (ρ := ρ) hg ht hd
  refine ⟨⟨_, flatly, ?_⟩, ⟨_, spatially, ?_⟩, ?_⟩
  · intro r q
    exact flatly.nonneg trivial trivial
  · intro r q hr hq
    exact spatially.nonneg hr hq
  · intro anyWeights r q
    exact spatial_error_iff

end Spatial

noncomputable def overEquator (time : Int) (longitude : ℝ) (altitude : Option ℝ) : Report ℝ Unit :=
  ⟨time, ⟨0, longitude⟩, altitude, none, none, none, none, none, ()⟩

/-- Three aircraft on the sphere and a fourth whose altitude is not known. -/
theorem overEquator_measured : Geodesy.IsPseudoMetric ℝ ∧
    let w : MetricWeights ℝ := ⟨1 / 10, 1⟩
    let near := overEquator 0 0 (some 1000)
    let between := overEquator 2000 1 (some 5500)
    let far := overEquator 7500 2 (some 4000)
    0 ≤ w.time ∧ 0 ≤ w.distance ∧
    (∃ x y z, spatial w near far = .ok x ∧ spatial w near between = .ok y ∧
      spatial w between far = .ok z ∧ 0 ≤ x ∧ x ≤ y + z) ∧
    ∃ e, spatial w near (overEquator 9000 3 none) = .error e := by
  have sphere := Geodesy.greatCircle_isPseudoMetric
  have time : (0 : ℝ) ≤ 1 / 10 := by norm_num
  obtain ⟨-, ⟨d, measured, positive⟩, unknown⟩ := both_are_pseudometrics (ρ := Unit)
    (w := ⟨1 / 10, 1⟩) sphere time zero_le_one
  refine ⟨sphere, time, zero_le_one, ?_, (unknown _ _ _).mpr (Or.inr rfl)⟩
  have known (time : Int) (longitude altitude : ℝ) :
      (overEquator time longitude (some altitude)).altitude ≠ none := Option.some_ne_none _
  exact ⟨_, _, _, measured.measures _ _ (known _ _ _) (known _ _ _),
    measured.measures _ _ (known _ _ _) (known _ _ _),
    measured.measures _ _ (known _ _ _) (known _ _ _),
    positive _ _ (known _ _ _) (known _ _ _),
    measured.triangle _ _ _ (known _ _ _) (known _ _ _) (known _ _ _)⟩

end Metric

end AirTraffic
