import AirTraffic.Proofs.Cleaning.Guarantees
import AirTraffic.Proofs.Cleaning.Provenance
import AirTraffic.Proofs.InPlace.AltitudeProfile
import AirTraffic.Proofs.InPlace.LocalMotion
import AirTraffic.Proofs.InPlace.MissingValues
import AirTraffic.Proofs.InPlace.Outage
import AirTraffic.Proofs.InPlace.Spacing
import AirTraffic.Proofs.InPlace.TrendOutlier

/-!
# Cleaning in place

Cleaning that works on arrays by index reaches past the end of none: on reports in order of time
every step comes to an end with the result that it has on lists, and so does every run.
-/
namespace AirTraffic

open Scalar Report

namespace Chain

variable {σ τ : Type}

open InPlace

mutual

def runChecked (apply : σ → τ → Checked (Option τ)) : Chain σ → τ → Checked (Option τ)
  | step s, x => apply s x
  | group parts, x => runAllChecked apply parts x

def runAllChecked (apply : σ → τ → Checked (Option τ)) : List (Chain σ) → τ → Checked (Option τ)
  | [], x => return some x
  | part :: rest, x => do
    match ← runChecked apply part x with
    | some y => runAllChecked apply rest y
    | none => return none

end

section Faultless

variable {checked : σ → τ → Checked (Option τ)} {apply : σ → τ → Option τ} {P : τ → Prop}

mutual

theorem runChecked_eq (part : Chain σ)
    (agree : ∀ s ∈ part.leaves, ∀ x, P x → checked s x = .ok (apply s x))
    (keeps : ∀ s ∈ part.leaves, ∀ x y, P x → apply s x = some y → P y) {x : τ} (hx : P x) :
    runChecked checked part x = .ok (run apply part x) := by
  cases part with
  | step s => exact agree s (List.mem_singleton_self s) x hx
  | group parts =>
    rw [runChecked, run]
    exact runAllChecked_eq parts agree keeps hx

/-- Where no step faults on what the steps before it leave, the run does not. -/
theorem runAllChecked_eq (parts : List (Chain σ))
    (agree : ∀ s ∈ leavesAll parts, ∀ x, P x → checked s x = .ok (apply s x))
    (keeps : ∀ s ∈ leavesAll parts, ∀ x y, P x → apply s x = some y → P y) {x : τ} (hx : P x) :
    runAllChecked checked parts x = .ok (runAll apply parts x) := by
  cases parts with
  | nil => rfl
  | cons part rest =>
    rw [leavesAll] at agree keeps
    obtain ⟨agreeHere, agreeLater⟩ := List.forall_mem_append.mp agree
    obtain ⟨keepsHere, keepsLater⟩ := List.forall_mem_append.mp keeps
    rw [runAllChecked, runAll, runChecked_eq part agreeHere keepsHere hx, ok_bind]
    cases hpart : run apply part x with
    | none => rfl
    | some y =>
      rw [run_eq_through] at hpart
      exact runAllChecked_eq rest agreeLater keepsLater (through_keeps keepsHere hx hpart)

end

end Faultless

end Chain

variable {α ρ : Type}

namespace InPlace

variable {reports kept : List (Report α ρ)}

/-- The number of reports that go is counted. -/
def removing (reports kept : List (Report α ρ)) : Checked (List (Report α ρ)) := do
  let _ ← difference reports.length kept.length
  return kept

theorem removing_eq (h : kept.Sublist reports) : removing reports kept = .ok kept := by
  unfold removing
  rw [difference_of_le h.length_le]
  rfl

def dropMarked (flags : List Bool) (reports : List (Report α ρ)) :
    Checked (Option (List (Report α ρ))) := do
  let kept ← removing reports (dropFlagged flags reports)
  return if kept.isEmpty then none else some kept

theorem dropMarked_eq (flags : List Bool) (reports : List (Report α ρ)) :
    dropMarked flags reports = .ok (if (dropFlagged flags reports).isEmpty then none
      else some (dropFlagged flags reports)) := by
  unfold dropMarked
  rw [removing_eq (dropFlagged_sublist flags reports)]
  rfl

variable [Scalar α] [Geodesy α] [TableInverse α]

def applyWork : WorkStep α → List (Report α ρ) → Checked (Option (List (Report α ρ)))
  | .thinTimes s, reports => some <$> removing reports (s.clean reports)
  | .thinDistances s, reports => some <$> removing reports (s.clean reports)
  | .dropZeroAltitudes, reports => return some (reports.map MissingValues.dropZeroAltitude)
  | .fillAltitudes, reports => fillAltitudes reports
  | .fillSpeeds, reports => fillSpeeds reports
  | .correctAltitudes test, reports => some <$> correctAltitudes test reports
  | .dropPositionOutliers test, reports => do dropMarked (← positionFlags test reports) reports
  | .dropOutageOutliers test, reports => do dropMarked (← outageFlags test reports) reports
  | .fitMotion s, reports => fitMotion s reports
  | .smoothAltitudes s, reports => some <$> profileAltitudes s reports
  | .discard rule, reports => return if rule.applies reports then none else some reports

def runWork (plan : WorkPlan α) (reports : List (Report α ρ)) :
    Checked (Option (List (Report α ρ))) := Chain.runAllChecked applyWork plan reports

def applyTrack : TrackStep α ρ → Track α ρ → Checked (Option (Track α ρ))
  | .dropCoasted isCoasted, track => do
    return Track.ofReports? (← removing track.reports (track.reports.filter (!isCoasted ·)))
  | .dropCrowded s, track => do
    let flags ← crowdedFlags s (track.reports.map (·.time))
    return Track.ofReports? (dropFlagged flags track.reports)
  | .requireSize s, track => return s.clean track
  | .discard rule, track => return if rule.applies track.reports then none else some track
  | .work plan, track => do return (← runWork plan track.reports).bind Track.ofReports?
  | .custom _ clean, track => return clean track

def runPlan (plan : CleaningPlan α ρ) (track : Track α ρ) : Checked (Option (Track α ρ)) :=
  Chain.runAllChecked applyTrack plan track

end InPlace

open InPlace

variable [Scalar α]

theorem AltitudeProfile.withFilter_ok {stepMs : Int} {filter : MovingFit α} {s : AltitudeProfile α}
    (h : withFilter stepMs filter = .ok s) : s.filter = filter := by
  unfold withFilter at h
  split at h
  · exact Except.ok.inj h ▸ rfl
  · cases h

variable [TableInverse α]

/-- Made by constructors that check their arguments. Of most settings the types say so, and the rest
may be anything; only filters need a constructor of theirs. -/
def WorkStep.Constructed : WorkStep α → Prop
  | smoothAltitudes s => s.filter.Built
  | _ => True

def WorkPlan.Constructed (plan : WorkPlan α) : Prop :=
  ∀ step ∈ Chain.leavesAll plan, step.Constructed

def TrackStep.Constructed : TrackStep α ρ → Prop
  | work plan => plan.Constructed
  | custom _ _ => False
  | _ => True

def CleaningPlan.Constructed (plan : CleaningPlan α ρ) : Prop :=
  ∀ step ∈ Chain.leavesAll plan, step.Constructed

theorem AltitudeProfile.ofStep_constructed {stepMs : Int} {s : AltitudeProfile α}
    (h : ofStep stepMs = .ok s) : (WorkStep.smoothAltitudes s).Constructed := by
  unfold ofStep at h
  split at h
  · cases made : MovingFit.standard (ofInt stepMs / Units.msPerSecond : α) with
    | error e =>
      rw [made] at h
      cases h
    | ok filter =>
      rw [made] at h
      rw [WorkStep.Constructed, withFilter_ok h]
      exact ⟨_, _, _, made⟩
  · cases h

theorem CleaningPlan.standard_constructed {isCoasted : Report α ρ → Bool} {plan : CleaningPlan α ρ}
    (hplan : plan = core isCoasted ∨ plan = outageAware isCoasted) : plan.Constructed := by
  have work : (outageSteps ++ workSteps : WorkPlan α).Constructed := by
    intro step hstep
    simp only [outageSteps, workSteps, List.cons_append, List.nil_append, Chain.leavesAll,
      Chain.leaves, List.mem_cons, List.not_mem_nil, or_false] at hstep
    rcases hstep with rfl | rfl | rfl | rfl | rfl | rfl | rfl | rfl | rfl | rfl <;> trivial
  have core_work : (workSteps : WorkPlan α).Constructed := by
    intro step hstep
    exact work step (by rw [Chain.leavesAll_append]; exact List.mem_append_right _ hstep)
  have around : ∀ inner : WorkPlan α, inner.Constructed →
      (withWork isCoasted inner : CleaningPlan α ρ).Constructed := by
    intro inner made step hstep
    simp only [withWork, Chain.leavesAll, Chain.leaves, List.cons_append, List.nil_append,
      List.mem_cons, List.not_mem_nil, or_false] at hstep
    rcases hstep with rfl | rfl | rfl | rfl
    · trivial
    · trivial
    · trivial
    · exact made
  rcases hplan with rfl | rfl
  · exact around _ core_work
  · exact around _ work

theorem TrackStep.builtIn_of_constructed {step : TrackStep α ρ} (made : step.Constructed) :
    step.builtIn := by
  cases step with
  | custom name clean => exact made.elim
  | dropCoasted => rfl
  | dropCrowded => rfl
  | requireSize => rfl
  | discard => rfl
  | work => rfl

variable [Geodesy α]

theorem WorkStep.applyWork_eq {step : WorkStep α} (made : step.Constructed)
    {reports : List (Report α ρ)} (order : InOrder reports) :
    applyWork step reports = .ok (step.apply reports) := by
  cases step with
  | thinTimes s =>
    have part : (s.clean reports).Sublist reports := thin_sublist s.close reports
    rw [applyWork, removing_eq part]
    rfl
  | thinDistances s =>
    have part : (s.clean reports).Sublist reports := thin_sublist s.close reports
    rw [applyWork, removing_eq part]
    rfl
  | dropZeroAltitudes => rfl
  | fillAltitudes => exact MissingValues.fillAltitudes_eq reports
  | fillSpeeds => exact MissingValues.fillSpeeds_eq reports
  | correctAltitudes test =>
    rw [applyWork, test.correctAltitudes_eq order]
    rfl
  | dropPositionOutliers test =>
    rw [applyWork, test.positionFlags_eq order, ok_bind, dropMarked_eq]
    rfl
  | dropOutageOutliers test =>
    rw [applyWork, test.flags_eq order, ok_bind, dropMarked_eq]
    rfl
  | fitMotion s => exact s.clean_eq order
  | smoothAltitudes s =>
    rw [applyWork, AltitudeProfile.clean_eq (MovingFit.Built.shaped made) order]
    rfl
  | discard rule => rfl

theorem WorkStep.apply_inOrder (step : WorkStep α) {reports out : List (Report α ρ)}
    (order : InOrder reports) (h : step.apply reports = some out) : InOrder out :=
  order.sublist (step.apply_edits h).times_sublist

theorem WorkPlan.runWork_eq {plan : WorkPlan α} (made : plan.Constructed)
    {reports : List (Report α ρ)} (order : InOrder reports) :
    runWork plan reports = .ok (Chain.runAll WorkStep.apply plan reports) :=
  Chain.runAllChecked_eq plan
    (fun step hstep _ hx => WorkStep.applyWork_eq (made step hstep) hx)
    (fun step _ _ _ hx hy => step.apply_inOrder hx hy) order

theorem TrackStep.applyTrack_eq {step : TrackStep α ρ} (made : step.Constructed)
    {track : Track α ρ} (order : track.Ordered) :
    applyTrack step track = .ok (step.apply track) := by
  cases step with
  | dropCoasted isCoasted =>
    rw [applyTrack, removing_eq List.filter_sublist]
    rfl
  | dropCrowded s =>
    rw [applyTrack, s.crowdedFlags_eq]
    rfl
  | requireSize s => rfl
  | discard rule => rfl
  | work plan =>
    rw [applyTrack, WorkPlan.runWork_eq made order]
    rfl
  | custom name clean => exact made.elim

theorem CleaningPlan.runPlan_eq {plan : CleaningPlan α ρ} (made : plan.Constructed)
    {track : Track α ρ} (order : track.Ordered) : runPlan plan track = .ok (plan.run track) :=
  Chain.runAllChecked_eq (P := Track.Ordered) plan
    (fun step hstep _ hx => TrackStep.applyTrack_eq (made step hstep) hx)
    (fun step hstep _ _ hx hy =>
      TrackStep.apply_ordered (TrackStep.builtIn_of_constructed (made step hstep)) hx hy) order

/-- Cleaning reports in order, by index and in place, never reaches past the end of an array,
whichever steps of the library it takes: it always comes out as on lists. What an altitude profile
is resampled to, what that is smoothed to and the sample times are of one length, and a filter stays
inside any signal. -/
theorem cleaning_in_place :
    (∀ (plan : WorkPlan α) (reports : List (Report α ρ)), plan.Constructed → InOrder reports →
      runWork plan reports = .ok (Chain.runAll WorkStep.apply plan reports)) ∧
    (∀ (plan : CleaningPlan α ρ) (track : Track α ρ), plan.Constructed → track.Ordered →
      runPlan plan track = .ok (plan.run track)) ∧
    (∀ (s : AltitudeProfile α) (reports : List (Report α ρ)) (measured : Polyline α)
      (first last : Report α ρ), s.filter.Built → InOrder reports →
      AltitudeProfile.measured? reports = some measured → reports.head? = some first →
      reports.getLast? = some last →
      let fixed := AltitudeProfile.sampleTimes s.stepMs (.between first.time last.time)
      let resampled := fixed.filterMap measured.value?
      resampled.length = fixed.length ∧ (s.filter.smooth resampled).length = fixed.length) ∧
    (∀ (m : MovingFit α) (signal : List α), m.Built →
      InPlace.smooth m signal = .ok (m.smooth signal) ∧
        InPlace.smoothSlope m signal = .ok (m.smoothSlope signal)) := by
  refine ⟨?onReports, ?onTracks, ?lengths, ?filter⟩
  case onReports =>
    intro plan reports made order
    exact plan.runWork_eq made order
  case onTracks =>
    intro plan track made order
    exact CleaningPlan.runPlan_eq made order
  case lengths =>
    intro s reports measured first last made order hmeasured hfirst hlast
    constructor
    · exact AltitudeProfile.length_resampled s.positive order hmeasured hfirst hlast
    · exact AltitudeProfile.length_smoothed made.shaped order hmeasured hfirst hlast
  case filter =>
    intro m signal made
    exact ⟨made.shaped.smooth_eq signal, made.shaped.smoothSlope_eq signal⟩

deriving instance DecidableEq for MovingFit

def equalThirds : MovingFit ℚ := ⟨4, 1, [1 / 3, 1 / 3, 1 / 3], [-1 / 2, 0, 1 / 2]⟩

theorem equalThirds_built : equalThirds.Built := by
  have made : (MovingFit.withWeights (4 : ℚ) 1 [1, 1, 1]).toOption = some equalThirds := by
    decide +kernel
  cases built : MovingFit.withWeights (4 : ℚ) 1 [1, 1, 1] with
  | error e =>
    rw [built] at made
    cases made
  | ok m =>
    rw [built] at made
    exact ⟨4, 1, [1, 1, 1], Option.some.inj made ▸ built⟩

def evenProfile : AltitudeProfile ℚ := ⟨4000, equalThirds, Int.natCast_pos.mpr (by decide)⟩

def smoothingSteps : WorkPlan ℚ := [.step .fillAltitudes, .step (.smoothAltitudes evenProfile)]

theorem smoothingSteps_constructed : smoothingSteps.Constructed := by
  intro step hstep
  rcases List.mem_cons.mp hstep with rfl | hstep
  · trivial
  · obtain rfl := List.mem_singleton.mp hstep
    exact equalThirds_built

def nineLevel : List (Report ℚ Bool) := nineClimbing.reports.map (·.withAltitude (some 3000))

theorem nineClimbing_in_place :
    (∃ out, runWork smoothingSteps nineClimbing.reports = .ok (some out)) ∧
    (∃ cleaned, runPlan (CleaningPlan.core (·.payload)) nineClimbing = .ok (some cleaned)) ∧
    (∃ measured, AltitudeProfile.measured? nineLevel = some measured ∧
      let fixed := AltitudeProfile.sampleTimes 4000 (.between 0 32000)
      let resampled := fixed.filterMap measured.value?
      fixed.length = 9 ∧ resampled.length = 9 ∧ (equalThirds.smooth resampled).length = 9) ∧
    InPlace.smooth equalThirds [3, 6, 12, 24] = .ok [3, 7, 14, 24] ∧
    InPlace.smoothSlope equalThirds [3, 6, 12, 24] = .ok [9 / 8, 9 / 8, 9 / 4, 9 / 4] := by
  obtain ⟨onReports, onTracks, lengths, filter⟩ := cleaning_in_place (α := ℚ) (ρ := Bool)
  have ordered : nineClimbing.Ordered := by decide
  refine ⟨?_, ?_, ?_, ?_⟩
  · have ends : ∃ out, Chain.runAll WorkStep.apply smoothingSteps nineClimbing.reports = some out :=
      Option.isSome_iff_exists.mp (by decide +kernel)
    obtain ⟨out, hout⟩ := ends
    exact ⟨out, hout ▸ onReports _ _ smoothingSteps_constructed ordered⟩
  · obtain ⟨cleaned, hrun, -⟩ := nineClimbing_run
    exact ⟨cleaned, hrun ▸ onTracks _ _ (CleaningPlan.standard_constructed (.inl rfl)) ordered⟩
  · obtain ⟨measured, hmeasured⟩ : ∃ measured,
        AltitudeProfile.measured? nineLevel = some measured :=
      Option.isSome_iff_exists.mp (by decide +kernel)
    have nine : (AltitudeProfile.sampleTimes 4000 (.between 0 32000)).length = 9 := by decide
    have ordered : InOrder nineLevel := by
      unfold InOrder
      decide
    obtain ⟨resampled, smoothed⟩ := lengths evenProfile nineLevel measured
      ((climbingAt 0).withAltitude (some 3000)) ((climbingAt 32000).withAltitude (some 3000))
      equalThirds_built ordered hmeasured rfl rfl
    exact ⟨measured, hmeasured, nine, resampled.trans nine, smoothed.trans nine⟩
  · obtain ⟨smoothed, slopes⟩ := filter equalThirds [3, 6, 12, 24] equalThirds_built
    rw [smoothed, slopes]
    exact ⟨congrArg Except.ok (by decide +kernel), congrArg Except.ok (by decide +kernel)⟩

end AirTraffic
