import Mathlib.Data.List.Perm.Basic
import Mathlib.Data.Multiset.Basic
import AirTraffic.Proofs.Track.Order
import AirTraffic.Proofs.Cleaning.Guarantees

/-!
# Where cleaned reports come from

Cleaning makes up no report and gives none a new identity. What it leaves are some of the reports
that went in, each once, in order of time, and edited in those aspects alone that the steps touch.
-/
namespace AirTraffic

variable {α ρ : Type}

namespace Report

/-- What tells a report from others and no step edits. -/
abbrev Provenance (α ρ : Type) := Int × Option String × ρ × Option α × Option α

def provenance (r : Report α ρ) : Provenance α ρ :=
  (r.time, r.trackId, r.payload, r.curvature, r.alongTrackDistance)

def provenances (reports : List (Report α ρ)) : Multiset (Provenance α ρ) :=
  reports.map provenance

theorem Edits.provenance {r q : Report α ρ} (h : r.Edits q) : r.provenance = q.provenance := by
  simp only [Report.provenance, h.time, h.trackId, h.payload, h.curvature, h.alongTrackDistance]

/-- Some of the reports in whatever order, edited in these aspects at most. -/
def Descend (touched : List Aspect) (out reports : List (Report α ρ)) : Prop :=
  ∃ part, out.Perm part ∧ PartWithin touched part reports

namespace Descend

variable {touched : List Aspect} {out reports : List (Report α ρ)}

protected theorem refl (touched : List Aspect) (reports : List (Report α ρ)) :
    Descend touched reports reports := ⟨reports, .refl reports, .refl touched reports⟩

theorem mono {more : List Aspect} (h : Descend touched out reports) (hmore : touched ⊆ more) :
    Descend more out reports := by
  obtain ⟨part, hperm, hpart⟩ := h
  exact ⟨part, hperm, hpart.mono hmore⟩

protected theorem trans {between : List (Report α ρ)} (h : Descend touched out between)
    (k : Descend touched between reports) : Descend touched out reports := by
  obtain ⟨part, hperm, hpart⟩ := h
  obtain ⟨ordered, hordered, hrest⟩ := k
  obtain ⟨old, each, hold⟩ := List.sublistForall₂_iff.mp hpart
  obtain ⟨old', hold', hsub⟩ := hold.subperm.trans hordered.subperm
  have moved : Relation.Comp (List.Forall₂ (EditsWithin touched)) List.Perm part old' :=
    ⟨old, each, hold'.symm⟩
  rw [List.forall₂_comp_perm_eq_perm_comp_forall₂] at moved
  obtain ⟨part', hpart', each'⟩ := moved
  exact ⟨part', hperm.trans hpart',
    PartWithin.trans (List.sublistForall₂_iff.mpr ⟨old', each', hsub⟩) hrest⟩

theorem exists_edited (h : Descend touched out reports) {r : Report α ρ} (hr : r ∈ out) :
    ∃ q ∈ reports, EditsWithin touched r q := by
  obtain ⟨part, hperm, hpart⟩ := h
  exact Report.exists_edited hpart (hperm.subset hr)

theorem provenances_le (h : Descend touched out reports) :
    provenances out ≤ provenances reports := by
  obtain ⟨part, hperm, hpart⟩ := h
  have fewer := hpart.edited.map_sublist fun _ _ he => he.provenance
  exact Multiset.coe_le.mpr ((hperm.map provenance).subperm.trans fewer.subperm)

end Descend

/-- What cleaning leaves of reports. -/
structure Survive (touched : List Aspect) (out reports : List (Report α ρ)) : Prop where
  ne_nil : out ≠ []
  inOrder : InOrder out
  provenances_le : provenances out ≤ provenances reports
  edits : Descend touched out reports

theorem thin_ne_nil {close : Report α ρ → Report α ρ → Bool} {reports : List (Report α ρ)}
    (h : reports ≠ []) : thin close reports ≠ [] := by
  cases reports with
  | nil => exact absurd rfl h
  | cons r rest => exact List.cons_ne_nil _ _

end Report

open Report

variable [Scalar α]

theorem MissingValues.fillAltitudesFrom_ne_nil {reports : List (Report α ρ)} (h : reports ≠ [])
    (before : Option (Int × α)) : fillAltitudesFrom before reports ≠ [] := by
  fun_cases fillAltitudesFrom before reports with
  | case1 => exact absurd rfl h
  | case2 => exact List.cons_ne_nil _ _
  | case3 => exact List.cons_ne_nil _ _

theorem MissingValues.fillSpeedsFrom_ne_nil [Geodesy α] {reports : List (Report α ρ)}
    (h : reports ≠ []) (before : Option (Report α ρ)) : fillSpeedsFrom before reports ≠ [] := by
  fun_cases fillSpeedsFrom before reports with
  | case1 => exact absurd rfl h
  | case2 => exact List.cons_ne_nil _ _

theorem MotionFit.clean_ne_nil [TableInverse α] {s : MotionFit} {reports out : List (Report α ρ)}
    (h : s.clean reports = some out) : out ≠ [] := by
  unfold clean at h
  split at h
  · exact Option.some.inj h ▸ List.cons_ne_nil _ _
  · obtain ⟨hsome, hout⟩ := Option.ite_none_left_eq_some.mp h
    exact Option.some.inj hout ▸ mt List.isEmpty_iff.mpr hsome

theorem AltitudeProfile.clean_ne_nil (s : AltitudeProfile α) {reports : List (Report α ρ)}
    (h : reports ≠ []) : s.clean reports ≠ [] := by
  unfold clean
  split
  · dsimp only
    split
    · exact h
    · exact mt List.map_eq_nil_iff.mp h
  · exact h

namespace WorkStep

variable [Geodesy α] [TableInverse α]

theorem apply_ne_nil (step : WorkStep α) {reports out : List (Report α ρ)} (hne : reports ≠ [])
    (h : step.apply reports = some out) : out ≠ [] := by
  cases step with
  | thinTimes s => exact Option.some.inj h ▸ thin_ne_nil hne
  | thinDistances s => exact Option.some.inj h ▸ thin_ne_nil hne
  | dropZeroAltitudes => exact Option.some.inj h ▸ mt List.map_eq_nil_iff.mp hne
  | fillAltitudes =>
    obtain ⟨-, h⟩ := Option.ite_none_right_eq_some.mp h
    exact Option.some.inj h ▸ MissingValues.fillAltitudesFrom_ne_nil hne none
  | fillSpeeds =>
    obtain ⟨-, h⟩ := Option.ite_none_left_eq_some.mp h
    exact Option.some.inj h ▸ MissingValues.fillSpeedsFrom_ne_nil hne none
  | correctAltitudes test =>
    obtain rfl := Option.some.inj h
    simpa [TrendTest.correctAltitudes] using hne
  | dropPositionOutliers test =>
    obtain ⟨hsome, h⟩ := Option.ite_none_left_eq_some.mp h
    exact Option.some.inj h ▸ mt List.isEmpty_iff.mpr hsome
  | dropOutageOutliers test =>
    obtain ⟨hsome, h⟩ := Option.ite_none_left_eq_some.mp h
    exact Option.some.inj h ▸ mt List.isEmpty_iff.mpr hsome
  | fitMotion s => exact MotionFit.clean_ne_nil h
  | smoothAltitudes s => exact Option.some.inj h ▸ s.clean_ne_nil hne
  | discard rule =>
    obtain ⟨-, h⟩ := Option.ite_none_left_eq_some.mp h
    exact Option.some.inj h ▸ hne

theorem run_ne_nil {steps : List (WorkStep α)} {reports out : List (Report α ρ)}
    (hne : reports ≠ []) (h : Chain.through WorkStep.apply steps reports = some out) : out ≠ [] :=
  Chain.through_keeps (P := fun out => out ≠ []) (fun s _ _ _ hx hy => s.apply_ne_nil hx hy) hne h

theorem run_survive {steps : List (WorkStep α)} {reports out : List (Report α ρ)}
    (hne : reports ≠ []) (horder : InOrder reports)
    (h : Chain.through WorkStep.apply steps reports = some out) :
    Survive (steps.flatMap touches) out reports := by
  have part := run_within h
  have edits : Descend (steps.flatMap touches) out reports := ⟨out, .refl out, part⟩
  constructor
  · exact run_ne_nil hne h
  · exact List.Pairwise.sublist part.edited.times_sublist horder
  · exact edits.provenances_le
  · exact edits

end WorkStep

def WorkPlan.touches (plan : WorkPlan α) : List Aspect :=
  (Chain.leavesAll plan).flatMap WorkStep.touches

namespace TrackStep

/-- Whether a step is one of the library. -/
def builtIn : TrackStep α ρ → Bool
  | custom _ _ => false
  | _ => true

def touches : TrackStep α ρ → List Aspect
  | work plan => plan.touches
  | _ => []

variable {track cleaned : Track α ρ}

theorem descend_of_ofReports? {touched : List Aspect} {part reports : List (Report α ρ)}
    (hpart : PartWithin touched part reports) (h : Track.ofReports? part = some cleaned) :
    Descend touched cleaned.reports reports := by
  refine ⟨part, ?_, hpart⟩
  rw [Track.ofReports?_eq_some_iff.mp h]
  exact List.mergeSort_perm part _

variable [Geodesy α] [TableInverse α]

theorem apply_ordered {step : TrackStep α ρ} (hstep : step.builtIn) (horder : track.Ordered)
    (h : step.apply track = some cleaned) : cleaned.Ordered := by
  cases step with
  | dropCoasted isCoasted => exact Track.ofReports?_ordered h
  | dropCrowded s => exact Track.ofReports?_ordered h
  | requireSize s =>
    obtain ⟨-, hsame⟩ := Option.ite_none_left_eq_some.mp h
    exact Option.some.inj hsame ▸ horder
  | discard rule =>
    obtain ⟨-, hsame⟩ := Option.ite_none_left_eq_some.mp h
    exact Option.some.inj hsame ▸ horder
  | work plan =>
    obtain ⟨out, -, htrack⟩ := Option.bind_eq_some_iff.mp h
    exact Track.ofReports?_ordered htrack
  | custom name clean => cases hstep

theorem apply_descend {step : TrackStep α ρ} (hstep : step.builtIn)
    (h : step.apply track = some cleaned) :
    Descend step.touches cleaned.reports track.reports := by
  cases step with
  | dropCoasted isCoasted => exact descend_of_ofReports? (.of_sublist _ List.filter_sublist) h
  | dropCrowded s => exact descend_of_ofReports? (.of_sublist _ (dropFlagged_sublist _ _)) h
  | requireSize s =>
    obtain ⟨-, hsame⟩ := Option.ite_none_left_eq_some.mp h
    exact Option.some.inj hsame ▸ .refl _ _
  | discard rule =>
    obtain ⟨-, hsame⟩ := Option.ite_none_left_eq_some.mp h
    exact Option.some.inj hsame ▸ .refl _ _
  | work plan =>
    obtain ⟨out, hout, hsort⟩ := runWork_cases h
    exact descend_of_ofReports? (WorkStep.run_within hout) (Track.ofReports?_eq_some_iff.mpr hsort)
  | custom name clean => cases hstep

end TrackStep

namespace CleaningPlan

def BuiltIn (plan : CleaningPlan α ρ) : Prop := ∀ step ∈ Chain.leavesAll plan, step.builtIn

def touches (plan : CleaningPlan α ρ) : List Aspect :=
  (Chain.leavesAll plan).flatMap TrackStep.touches

variable [Geodesy α] [TableInverse α]

section Run

variable {plan : CleaningPlan α ρ} (hplan : plan.BuiltIn) {track cleaned : Track α ρ}
  (h : plan.run track = some cleaned)

include hplan h

theorem run_ordered (horder : track.Ordered) : cleaned.Ordered := by
  unfold run at h
  rw [Chain.runAll_eq_through] at h
  exact Chain.through_keeps (P := Track.Ordered)
    (fun step hstep _ _ hx hy => TrackStep.apply_ordered (hplan step hstep) hx hy) horder h

theorem run_descend : Descend plan.touches cleaned.reports track.reports := by
  unfold run at h
  rw [Chain.runAll_eq_through] at h
  refine Chain.through_keeps (P := fun cleaned : Track α ρ =>
    Descend plan.touches cleaned.reports track.reports) ?_ (.refl _ _) h
  intro step hstep x y hx hy
  have all : step.touches ⊆ plan.touches := fun _ ha => List.mem_flatMap.mpr ⟨step, hstep, ha⟩
  exact ((TrackStep.apply_descend (hplan step hstep) hy).mono all).trans hx

end Run

/-- Neither in working steps nor in steps on whole tracks, however they are put together, does a
report come from nowhere, come twice or come out as another. -/
theorem cleaning_keeps_provenance :
    (∀ (plan : WorkPlan α) (reports out : List (Report α ρ)), reports ≠ [] → InOrder reports →
      Chain.runAll WorkStep.apply plan reports = some out → Survive plan.touches out reports) ∧
    (∀ (plan : CleaningPlan α ρ) (track cleaned : Track α ρ), plan.BuiltIn → track.Ordered →
      plan.run track = some cleaned → Survive plan.touches cleaned.reports track.reports) := by
  constructor
  · intro plan reports out hne horder h
    rw [Chain.runAll_eq_through] at h
    exact WorkStep.run_survive hne horder h
  · intro plan track cleaned hplan horder h
    have edits := run_descend hplan h
    exact ⟨cleaned.reports_ne_nil, run_ordered hplan h horder, edits.provenances_le, edits⟩

def altitudeSteps : WorkPlan ℚ := [.step .dropZeroAltitudes, .step .fillAltitudes]

theorem nineClimbing_altitudes :
    ∃ out, Chain.runAll WorkStep.apply altitudeSteps nineClimbing.reports = some out :=
  Option.isSome_iff_exists.mp (by decide +kernel)

theorem nineClimbing_provenance :
    (∃ out, Chain.runAll WorkStep.apply altitudeSteps nineClimbing.reports = some out ∧
      Survive [.altitude, .altitude] out nineClimbing.reports) ∧
    ∃ cleaned, (core (·.payload)).run nineClimbing = some cleaned ∧
      Survive [.speed, .altitude, .altitude, .altitude, .position, .speed, .course]
        cleaned.reports nineClimbing.reports := by
  obtain ⟨onReports, onTracks⟩ := cleaning_keeps_provenance (α := ℚ) (ρ := Bool)
  have ordered : nineClimbing.Ordered := by decide
  constructor
  · obtain ⟨out, hout⟩ := nineClimbing_altitudes
    exact ⟨out, hout, onReports altitudeSteps _ out nineClimbing.reports_ne_nil ordered hout⟩
  · obtain ⟨cleaned, hrun, -⟩ := nineClimbing_run
    exact ⟨cleaned, hrun, onTracks _ _ _ (by unfold BuiltIn; decide) ordered hrun⟩

end CleaningPlan

end AirTraffic
