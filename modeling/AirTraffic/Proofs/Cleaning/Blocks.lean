import AirTraffic.Proofs.Cleaning.Provenance

/-!
# Work in blocks

Between two blocks of working steps a track is put together and put in order again. No step runs
empty and none moves a report in time, so a block leaves a track that is already in order, and the
next one takes up the work where it ended. Groups of steps do not matter at all.
-/
namespace AirTraffic

open Report

namespace Chain

variable {σ τ : Type} {apply : σ → τ → Option τ}

def flat (parts : List (Chain σ)) : List (Chain σ) := (leavesAll parts).map step

theorem leavesAll_map_step (steps : List σ) : leavesAll (steps.map step) = steps := by
  induction steps with
  | nil => rfl
  | cons s steps ih => rw [List.map_cons, leavesAll, ih, leaves, List.singleton_append]

theorem runAll_flat (parts : List (Chain σ)) (x : τ) :
    runAll apply (flat parts) x = runAll apply parts x := by
  rw [runAll_eq_through, runAll_eq_through, flat, leavesAll_map_step]

end Chain

variable {α ρ : Type} [Scalar α] [Geodesy α] [TableInverse α]

theorem WorkStep.run_increase {steps : List (WorkStep α)} {reports out : List (Report α ρ)}
    (hincrease : (times reports).Pairwise (· < ·))
    (h : Chain.through WorkStep.apply steps reports = some out) :
    (times out).Pairwise (· < ·) :=
  hincrease.sublist (run_edits h).times_sublist

namespace TrackStep

variable {track : Track α ρ} (hincrease : (times track.reports).Pairwise (· < ·))

include hincrease

theorem runWork_increase {plan : WorkPlan α} {cleaned : Track α ρ}
    (h : runWork plan track = some cleaned) : (times cleaned.reports).Pairwise (· < ·) := by
  obtain ⟨out, hwork, hsort⟩ := runWork_cases h
  have increase := WorkStep.run_increase hincrease hwork
  rw [hsort, Report.sort_of_increase increase]
  exact increase

theorem runWork_append (plan more : WorkPlan α) :
    runWork (plan ++ more) track = (runWork plan track).bind (runWork more) := by
  have whole : runWork (plan ++ more) track =
      ((Chain.through WorkStep.apply (Chain.leavesAll plan) track.reports).bind
        (Chain.runAll WorkStep.apply more)).bind Track.ofReports? := by
    unfold runWork
    rw [Chain.runAll_eq_through, Chain.leavesAll_append, Chain.through_append,
      funext (Chain.runAll_eq_through more)]
  rw [whole]
  cases hout : Chain.through WorkStep.apply (Chain.leavesAll plan) track.reports with
  | none => rw [runWork, Chain.runAll_eq_through, hout]; rfl
  | some out =>
    have hne := WorkStep.run_ne_nil track.reports_ne_nil hout
    have part : runWork plan track = some ⟨out, hne⟩ :=
      runWork_of_increase hout hne (WorkStep.run_increase hincrease hout)
    rw [part]
    rfl

end TrackStep

namespace CleaningPlan

def inBlocks (blocks : List (WorkPlan α)) : CleaningPlan α ρ :=
  blocks.map fun block => .step (.work block)

theorem run_inBlocks_cons (block : WorkPlan α) (blocks : List (WorkPlan α)) (track : Track α ρ) :
    (inBlocks (block :: blocks)).run track =
      (TrackStep.runWork block track).bind (inBlocks blocks).run := by
  unfold run
  rw [Chain.runAll_eq_through, funext (Chain.runAll_eq_through (inBlocks blocks))]
  rfl

/-- Neither cutting the work on a track with no two simultaneous reports into blocks nor grouping
steps changes what comes out, or whether anything does. -/
theorem run_of_same_steps :
    (∀ (blocks : List (WorkPlan α)) (track : Track α ρ), (times track.reports).Pairwise (· < ·) →
      (inBlocks blocks).run track = (TrackStep.work blocks.flatten).apply track) ∧
    (∀ (plan : WorkPlan α) (reports : List (Report α ρ)),
      Chain.runAll WorkStep.apply plan reports =
        Chain.runAll WorkStep.apply (Chain.flat plan) reports) ∧
    ∀ (plan : CleaningPlan α ρ) (track : Track α ρ),
      plan.run track = run (Chain.flat plan) track := by
  refine ⟨fun blocks => ?_, fun plan reports => (Chain.runAll_flat plan reports).symm,
    fun plan track => (Chain.runAll_flat plan track).symm⟩
  induction blocks with
  | nil => exact fun track hincrease => (Track.ofReports?_reports track hincrease).symm
  | cons block blocks ih =>
    intro track hincrease
    have whole : (TrackStep.work (block :: blocks).flatten).apply track =
        (TrackStep.runWork block track).bind (TrackStep.runWork blocks.flatten) := by
      rw [List.flatten_cons]
      exact TrackStep.runWork_append hincrease block blocks.flatten
    rw [run_inBlocks_cons, whole]
    cases hblock : TrackStep.runWork block track with
    | none => rfl
    | some cleaned => exact ih cleaned (TrackStep.runWork_increase hincrease hblock)

theorem nineClimbing_in_blocks :
    (times nineClimbing.reports).Pairwise (· < ·) ∧ ∃ cleaned,
      (inBlocks [workSteps.take 4, [], workSteps.drop 4]).run nineClimbing = some cleaned ∧
        (core (·.payload)).run nineClimbing = some cleaned := by
  have increase : (times nineClimbing.reports).Pairwise (· < ·) := by decide
  have genuine : ∀ r ∈ nineClimbing.reports, r.payload = false := by decide
  have spaced : Spaced Crowding.standard.minimumMs (times nineClimbing.reports) := by
    unfold Spaced
    decide
  obtain ⟨cleaned, hrun, -⟩ := nineClimbing_run
  have onlyWork := withWork_run_of_spaced workSteps genuine spaced
  rw [if_neg (by decide)] at onlyWork
  refine ⟨increase, cleaned, ?_, hrun⟩
  rw [run_of_same_steps.1 _ _ increase]
  exact onlyWork.symm.trans hrun

end CleaningPlan
end AirTraffic
