import AirTraffic.Proofs.Report.Valid
import AirTraffic.Proofs.Cleaning.Provenance

/-!
# Cleaned reports are valid

Cleaning keeps reports valid, but for their latitudes: the fit of motion may move a report past the
pole. Its longitude is brought back into range and its course onto the compass, its latitude is not.
-/
namespace AirTraffic

open Scalar Report

variable {α ρ : Type}

section Edits

variable [Scalar α] {touched : List Aspect} {r q : Report α ρ}

theorem Report.EditsWithin.latitude (h : EditsWithin touched r q) (hq : q.Valid)
    (hposition : .position ∉ touched) :
    ofInt (-90) ≤ r.position.latitude ∧ r.position.latitude ≤ ofInt 90 := by
  rw [h.position hposition]
  exact hq.latitude

end Edits

variable [ExactScalar α]

theorem Report.EditsWithin.nearlyValid {touched : List Aspect} {r q : Report α ρ}
    (h : EditsWithin touched r q) (hq : q.NearlyValid) (hposition : .position ∉ touched)
    (hcourse : .course ∉ touched) : r.NearlyValid where
  finite x _ := ExactScalar.isFinite_eq x
  longitude := by
    rw [h.position hposition]
    exact hq.longitude
  course := by
    rw [h.course hcourse]
    exact hq.course

/-- How a report comes out of steps that touch these aspects, and what reopening it gives. -/
structure Report.StaysValid (touched : List Aspect) (r : Report α ρ) : Prop where
  nearlyValid : r.NearlyValid
  rebuild : r.draft.build =
    if ReportDraft.inRange (ofInt 90) r.position.latitude then .ok r
    else .error (.latitudeOutOfRange r.position.latitude)
  valid : .position ∉ touched → r.Valid

theorem Report.EditsWithin.staysValid [ExactRemainder α] {touched : List Aspect} {r q : Report α ρ}
    (h : EditsWithin touched r q) (hq : q.Valid) (hr : r.NearlyValid) : r.StaysValid touched where
  nearlyValid := hr
  rebuild := hr.rebuild
  valid hposition := ⟨hr, h.latitude hq hposition⟩

namespace MotionFit

variable [TableInverse α] {s : MotionFit} {reports : List (Report α ρ)}

/-- A motion is read off in a plane, from which longitudes come back in range. -/
theorem motion?_longitude {centre : Report α ρ} {m : Motion α}
    (h : s.motion? reports centre = some m) : ∃ x, m.position.longitude = Angle.meridian x := by
  obtain ⟨halfMs, h⟩ : ∃ halfMs, motionWithin? reports centre halfMs = some m := by
    rcases Option.or_eq_some_iff.mp h with h | ⟨-, h⟩
    · exact ⟨_, h⟩
    · exact ⟨_, h⟩
  obtain ⟨-, -, h⟩ := Option.bind_eq_some_iff.mp h
  obtain ⟨east, -, h⟩ := Option.bind_eq_some_iff.mp h
  obtain ⟨north, -, h⟩ := Option.bind_eq_some_iff.mp h
  obtain ⟨-, -, h⟩ := Option.bind_eq_some_iff.mp h
  obtain rfl := Option.some.inj h
  exact ⟨_, rfl⟩

theorem clean_nearlyValid [ExactRemainder α] {out : List (Report α ρ)}
    (h : s.clean reports = some out) (valid : ∀ r ∈ reports, r.NearlyValid) :
    ∀ r ∈ out, r.NearlyValid := by
  intro r hr
  rcases clean_cases h with ⟨q, rfl, rfl⟩ | hmoved
  · obtain rfl := List.mem_singleton.mp hr
    exact (withSpeed_edits (List.mem_singleton_self _) q _).nearlyValid
      (valid q List.mem_cons_self) (by decide) (by decide)
  · obtain ⟨q, hq, m, hm, rfl⟩ := hmoved r hr
    obtain ⟨x, hx⟩ := motion?_longitude hm
    refine .of_angles ?_ ?_
    · obtain ⟨above, below⟩ := ExactRemainder.meridian_mem x
      change -180 ≤ m.position.longitude ∧ m.position.longitude ≤ 180
      rw [hx]
      exact ⟨above, below.le⟩
    · intro c hc
      rw [move, withCourse_course, Option.map_some] at hc
      obtain rfl := Option.some.inj hc
      exact ExactRemainder.compass_mem m.course

end MotionFit

variable [Geodesy α] [TableInverse α] [ExactRemainder α]

namespace WorkStep

variable {reports out : List (Report α ρ)}

theorem apply_nearlyValid (step : WorkStep α) (h : step.apply reports = some out)
    (valid : ∀ r ∈ reports, r.NearlyValid) : ∀ r ∈ out, r.NearlyValid := by
  have untouched (hposition : .position ∉ step.touches) (hcourse : .course ∉ step.touches) :
      ∀ r ∈ out, r.NearlyValid := by
    intro r hr
    obtain ⟨q, hq, he⟩ := exists_edited (step.apply_within h) hr
    exact he.nearlyValid (valid q hq) hposition hcourse
  cases step with
  | fitMotion s => exact MotionFit.clean_nearlyValid h valid
  | _ => exact untouched (by simp [touches]) (by simp [touches])

theorem run_nearlyValid {steps : List (WorkStep α)}
    (h : Chain.through WorkStep.apply steps reports = some out)
    (valid : ∀ r ∈ reports, r.NearlyValid) : ∀ r ∈ out, r.NearlyValid :=
  Chain.through_keeps (P := fun out : List (Report α ρ) => ∀ r ∈ out, r.NearlyValid)
    (fun s _ _ _ hx hy => s.apply_nearlyValid hy hx) valid h

end WorkStep

theorem TrackStep.apply_nearlyValid {step : TrackStep α ρ} (hstep : step.builtIn)
    {track cleaned : Track α ρ} (h : step.apply track = some cleaned)
    (valid : ∀ r ∈ track.reports, r.NearlyValid) : ∀ r ∈ cleaned.reports, r.NearlyValid := by
  intro r hr
  have untouched (hnone : step.touches = []) : r.NearlyValid := by
    obtain ⟨q, hq, he⟩ := (apply_descend hstep h).exists_edited hr
    rw [hnone] at he
    exact he.nearlyValid (valid q hq) List.not_mem_nil List.not_mem_nil
  cases step with
  | work plan =>
    obtain ⟨out, hout, hsort⟩ := runWork_cases h
    rw [hsort, Report.sort, List.mem_mergeSort] at hr
    exact WorkStep.run_nearlyValid hout valid r hr
  | _ => exact untouched rfl

theorem CleaningPlan.run_nearlyValid {plan : CleaningPlan α ρ} (hplan : plan.BuiltIn)
    {track cleaned : Track α ρ} (h : plan.run track = some cleaned)
    (valid : ∀ r ∈ track.reports, r.NearlyValid) : ∀ r ∈ cleaned.reports, r.NearlyValid := by
  unfold run at h
  rw [Chain.runAll_eq_through] at h
  exact Chain.through_keeps (P := fun track : Track α ρ => ∀ r ∈ track.reports, r.NearlyValid)
    (fun step hstep _ _ hx hy => TrackStep.apply_nearlyValid (hplan step hstep) hy hx) valid h

/-- Nothing but a fit of motion makes a valid report invalid, and then it is its latitude alone that
keeps it from being reopened. -/
theorem cleaning_keeps_validity :
    (∀ (plan : WorkPlan α) (reports out : List (Report α ρ)), (∀ r ∈ reports, r.Valid) →
      Chain.runAll WorkStep.apply plan reports = some out →
      ∀ r ∈ out, r.StaysValid plan.touches) ∧
    (∀ (plan : CleaningPlan α ρ) (track cleaned : Track α ρ), plan.BuiltIn →
      (∀ r ∈ track.reports, r.Valid) → plan.run track = some cleaned →
      ∀ r ∈ cleaned.reports, r.StaysValid plan.touches) := by
  constructor
  · intro plan reports out valid h r hr
    rw [Chain.runAll_eq_through] at h
    obtain ⟨q, hq, he⟩ := exists_edited (WorkStep.run_within h) hr
    have near := WorkStep.run_nearlyValid h (fun q hq => (valid q hq).toNearlyValid)
    exact he.staysValid (valid q hq) (near r hr)
  · intro plan track cleaned hplan valid h r hr
    obtain ⟨q, hq, he⟩ := (CleaningPlan.run_descend hplan h).exists_edited hr
    have near := CleaningPlan.run_nearlyValid hplan h (fun q hq => (valid q hq).toNearlyValid)
    exact he.staysValid (valid q hq) (near r hr)

theorem nineClimbing_stays_valid :
    (∃ out, Chain.runAll WorkStep.apply CleaningPlan.altitudeSteps nineClimbing.reports = some out ∧
      ∀ r ∈ out, r.Valid) ∧
    ∃ cleaned, (CleaningPlan.core (·.payload)).run nineClimbing = some cleaned ∧
      ∀ r ∈ cleaned.reports,
        r.StaysValid [.speed, .altitude, .altitude, .altitude, .position, .speed, .course] := by
  obtain ⟨onReports, onTracks⟩ := cleaning_keeps_validity (α := ℚ) (ρ := Bool)
  have near (time : Int) : (climbingAt time).NearlyValid :=
    .of_angles (by norm_num [climbingAt]) (fun c hc => by cases hc)
  have valid : ∀ r ∈ nineClimbing.reports, r.Valid := by
    refine List.forall_mem_map.mpr fun time htime => ⟨near time, ?_⟩
    revert time
    decide +kernel
  constructor
  · obtain ⟨out, hout⟩ := CleaningPlan.nineClimbing_altitudes
    exact ⟨out, hout, fun r hr => (onReports _ _ _ valid hout r hr).valid (by decide)⟩
  · obtain ⟨cleaned, hrun, -⟩ := nineClimbing_run
    exact ⟨cleaned, hrun, onTracks _ _ _ (by unfold CleaningPlan.BuiltIn; decide) valid hrun⟩

def turningAt (p : Int × ℚ) : Report ℚ Bool where
  time := p.1
  position := ⟨p.2, -75⟩
  altitude := none
  speed := none
  course := none
  curvature := none
  alongTrackDistance := none
  trackId := none
  payload := false

def fiveTurning : List (Report ℚ Bool) :=
  [(0, 89.95), (4000, 89.99), (8000, 89.999), (12000, 89.99), (16000, 89.95)].map turningAt

/-- The fit takes the report nearest to the pole past it. -/
theorem fit_passes_pole : (∀ r ∈ fiveTurning, r.Valid) ∧ ∃ out,
    WorkStep.apply (.fitMotion .standard) fiveTurning = some out ∧
      ∃ r ∈ out, ¬r.Valid ∧ r.draft.build = .error (.latitudeOutOfRange r.position.latitude) := by
  have near (p : Int × ℚ) : (turningAt p).NearlyValid :=
    .of_angles (by norm_num [turningAt]) (fun c hc => by cases hc)
  have valid : ∀ r ∈ fiveTurning, r.Valid := by
    refine List.forall_mem_map.mpr fun p hp => ⟨near p, ?_⟩
    revert p
    decide +kernel
  have passes : (WorkStep.apply (.fitMotion .standard) fiveTurning).any
      (·.any fun r => !ReportDraft.inRange (ofInt 90) r.position.latitude) := by
    decide +kernel
  obtain ⟨out, hout, hpast⟩ := (Option.any_eq_true _ _).mp passes
  obtain ⟨r, hr, hlatitude⟩ := List.any_eq_true.mp hpast
  have nearlyValid :=
    WorkStep.apply_nearlyValid _ hout (fun q hq => (valid q hq).toNearlyValid) r hr
  have refused := nearlyValid.rebuild
  rw [if_neg (by simpa using hlatitude)] at refused
  refine ⟨valid, out, hout, r, hr, ?_, refused⟩
  intro valid
  rw [valid_iff_rebuild.mp valid] at refused
  cases refused

end AirTraffic
