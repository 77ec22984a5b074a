import AirTraffic.Proofs.Basic
import AirTraffic.Proofs.Cleaning.Guarantees
import AirTraffic.Proofs.Fit.LeastSquares
import AirTraffic.Proofs.InPlace.LocalMotion
import AirTraffic.Proofs.Track.Reading

/-!
# Reports with enough neighbours

Five reports at different times determine a cubic, so that a fit fails for want of reports alone.
The narrow window is tried first, but where it is full the wide one is too: who keeps five reports
within the wide window, itself included, stays.
-/
namespace AirTraffic

open Scalar Report

variable {α ρ : Type}

theorem Report.times_eq_of_forall₂ {R : Report α ρ → Report α ρ → Prop}
    {out reports : List (Report α ρ)}
    (hR : ∀ new old, R new old → new.time = old.time) (h : List.Forall₂ R out reports) :
    times out = times reports := by
  rw [times, times, ← List.forall₂_eq_eq_eq, List.forall₂_map_left_iff, List.forall₂_map_right_iff]
  exact h.imp hR

namespace MotionFit

section Around

variable (reports : List (Report α ρ)) (centre : Report α ρ)

theorem length_nearby (ms : Int) : (nearby reports centre ms).length =
    reports.countP fun q => |q.time - centre.time| ≤ ms := by
  rw [nearby, List.countP_eq_length_filter]
  refine congrArg List.length (List.filter_congr ?_)
  intro q _
  rw [Int.abs_eq_natAbs]

theorem length_nearby_mono {a b : Int} (h : a ≤ b) :
    (nearby reports centre a).length ≤ (nearby reports centre b).length := by
  rw [length_nearby, length_nearby]
  refine List.countP_mono_left ?_
  intro q _ close
  exact decide_eq_true ((of_decide_eq_true close).trans h)

/-- The reports that have five reports around them in time, themselves included. -/
def surrounded (s : MotionFit) (reports : List (Report α ρ)) : List (Report α ρ) :=
  reports.filter fun r => 5 ≤ reports.countP fun q => |q.time - r.time| ≤ s.windowMs

end Around

/-- The reports that have a motion are moved, in their order; without any there is no track. -/
theorem clean_spec [Scalar α] [TableInverse α] (s : MotionFit) {reports : List (Report α ρ)}
    (several : 2 ≤ reports.length) {R : Report α ρ → Report α ρ → Prop}
    (moved : ∀ r ∈ reports, ∀ m, s.motion? reports r = some m → R (move m r) r) :
    (s.clean reports = none ↔ (reports.filter fun r => (s.motion? reports r).isSome) = []) ∧
      ∀ out, s.clean reports = some out →
        List.Forall₂ R out (reports.filter fun r => (s.motion? reports r).isSome) := by
  let fitted := reports.filterMap fun r => (s.motion? reports r).map (move · r)
  have each : List.Forall₂ R fitted (reports.filter fun r => (s.motion? reports r).isSome) := by
    have found : List.Forall₂ R fitted
        (reports.filter fun r => ((s.motion? reports r).map (move · r)).isSome) := by
      refine forall₂_filterMap_filter ?_
      intro r hr new hnew
      obtain ⟨m, found, rfl⟩ := Option.map_eq_some_iff.mp hnew
      exact moved r hr m found
    simpa only [Option.isSome_map] using found
  have cleaned : s.clean reports = if fitted.isEmpty then none else some fitted :=
    clean_eq_fitted s (by omega)
  cases hfitted : fitted with
  | nil =>
    rw [hfitted] at each cleaned
    rw [cleaned, List.forall₂_nil_left_iff.mp each]
    simp
  | cons new rest =>
    rw [hfitted] at each cleaned
    obtain ⟨r, stay, -, -, some⟩ := List.forall₂_cons_left_iff.mp each
    rw [cleaned]
    constructor
    · simp [some]
    · intro out hout
      rwa [← Option.some.inj hout]

section Increasing

variable [ExactScalar α] {reports : List (Report α ρ)}
  (increase : (times reports).Pairwise (· < ·))

include increase

theorem abscissas_nodup (centre : Report α ρ) (coordinate : Position α → α) (ms : Int) :
    ((observe centre coordinate (nearby reports centre ms)).map (·.1)).Nodup := by
  rw [times, List.pairwise_map] at increase
  rw [observe, List.map_map, List.Nodup, List.pairwise_map]
  refine (increase.filter _).imp ?_
  intro r q before same
  rw [Function.comp_apply, Function.comp_apply, ExactScalar.ofInt_div_msPerSecond,
    ExactScalar.ofInt_div_msPerSecond] at same
  have equal := Int.cast_injective ((div_left_inj' (show (1000 : α) ≠ 0 by norm_num)).mp same)
  omega

variable [TableInverse α] (inverts : TableInverse.Inverts α 4)

include inverts

theorem motionWithin?_isSome_iff (centre : Report α ρ) (ms : Int) :
    (motionWithin? reports centre ms).isSome ↔ 5 ≤ (nearby reports centre ms).length := by
  have need : degree + 2 = 5 := rfl
  rw [motionWithin?_eq, need]
  by_cases few : (nearby reports centre ms).length < 5
  · rw [if_pos few]
    simpa using few
  · have enough (coordinate : Position α → α) :
        degree < (observe centre coordinate (nearby reports centre ms)).length := by
      rw [observe, List.length_map, degree]
      omega
    obtain ⟨east, heast, -⟩ := Polynomial.exists_fit
      (abscissas_nodup increase centre _ ms) (enough _) inverts
    obtain ⟨north, hnorth, -⟩ := Polynomial.exists_fit
      (abscissas_nodup increase centre _ ms) (enough _) inverts
    rw [if_neg few, motionAmong?, heast, Option.bind_some, hnorth, Option.bind_some, motionOf?]
    simpa [guard] using Nat.not_lt.mp few

theorem motion?_isSome_iff (s : MotionFit) (centre : Report α ρ) :
    (s.motion? reports centre).isSome ↔
      5 ≤ reports.countP fun q => |q.time - centre.time| ≤ s.windowMs := by
  have wider : s.windowMs / 2 ≤ s.windowMs := by
    have := s.positive
    omega
  have more := length_nearby_mono reports centre wider
  rw [motion?, Option.isSome_or, Bool.or_eq_true, motionWithin?_isSome_iff increase inverts,
    motionWithin?_isSome_iff increase inverts, ← length_nearby]
  omega

theorem filter_motion?_eq (s : MotionFit) :
    (reports.filter fun r => (s.motion? reports r).isSome) = s.surrounded reports := by
  refine List.filter_congr ?_
  intro r _
  exact Bool.eq_iff_iff.mpr
    ((motion?_isSome_iff increase inverts s r).trans decide_eq_true_iff.symm)

/-- Just the reports that are surrounded stay, in their order and with their times. Without any
there is no track. -/
theorem surrounded_reports_stay (s : MotionFit) (several : 2 ≤ reports.length) :
    (s.clean reports = none ↔ s.surrounded reports = []) ∧
      ∀ out, s.clean reports = some out →
        List.Forall₂ (EditsWithin [.position, .speed, .course]) out (s.surrounded reports) := by
  rw [← filter_motion?_eq increase inverts]
  exact clean_spec s several fun r _ m _ => move_edits m r

end Increasing

def sparse : List (Report ℚ Unit) :=
  [0, 16000, 32000, 48000, 64000, 80000, 96000, 112000, 128000, 144000, 400000].map fun t : Int =>
    Track.equatorAt (t, t / 400000, none)

/-- The narrow window holds three of them, the wide one seven but at the ends, where it holds four.
-/
theorem sparse_stay : TableInverse.Inverts ℚ 4 ∧ 2 ≤ sparse.length ∧
    (times sparse).Pairwise (· < ·) ∧ ∃ out, MotionFit.standard.clean sparse = some out ∧
      times out = [16000, 32000, 48000, 64000, 80000, 96000, 112000, 128000] := by
  have inverts : TableInverse.Inverts ℚ 4 := TableInverse.standard_inverts (by decide)
  have several : 2 ≤ sparse.length := by decide
  have increase : (times sparse).Pairwise (· < ·) := by decide
  obtain ⟨absent, stay⟩ := surrounded_reports_stay increase inverts .standard several
  have left : times (MotionFit.standard.surrounded sparse) =
      [16000, 32000, 48000, 64000, 80000, 96000, 112000, 128000] := by decide +kernel
  refine ⟨inverts, several, increase, ?_⟩
  cases cleaned : MotionFit.standard.clean sparse with
  | none =>
    rw [absent.mp cleaned] at left
    cases left
  | some out =>
    have same := times_eq_of_forall₂ (fun _ _ edits => edits.time) (stay out cleaned)
    exact ⟨out, rfl, same.trans left⟩

end MotionFit

end AirTraffic
