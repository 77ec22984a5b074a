import AirTraffic.Proofs.Cleaning.Guarantees

/-!
# Cleaning a track again

A cleaned track passes unchanged through the steps before the work, but for the one that asks for
nine reports. That step comes before the thinning of times, so a track may have lost too many
reports to be cleaned again. Where it is cleaned again it keeps its times or loses some.
-/
namespace AirTraffic.CleaningPlan

open Report

variable {α ρ : Type} [Scalar α] [Geodesy α] [TableInverse α]

theorem run_cleaned (flagged : ρ → Bool) {plan : CleaningPlan α ρ}
    (hplan : plan = core (flagged ·.payload) ∨ plan = outageAware (flagged ·.payload))
    {track cleaned : Track α ρ} (h : plan.run track = some cleaned) :
    ∃ work, plan.run cleaned =
      if cleaned.size < TrackSize.standard.minimum then none
      else TrackStep.runWork work cleaned := by
  have spaced : Spaced Crowding.standard.minimumMs (times cleaned.reports) :=
    (run_standard_spaced hplan h).mono (by decide)
  have genuine := run_standard_genuine hplan h
  rcases hplan with rfl | rfl
  · exact ⟨workSteps, withWork_run_of_spaced _ genuine spaced⟩
  · exact ⟨outageSteps ++ workSteps, withWork_run_of_spaced _ genuine spaced⟩

theorem times_of_runWork {work : WorkPlan α} {track cleaned : Track α ρ}
    (hincrease : (times track.reports).Pairwise (· < ·))
    (h : TrackStep.runWork work track = some cleaned) :
    (times cleaned.reports).Sublist (times track.reports) := by
  obtain ⟨out, hwork, hsort⟩ := TrackStep.runWork_cases h
  have fewer := (WorkStep.run_edits hwork).times_sublist
  rw [hsort, Report.sort_of_increase (hincrease.sublist fewer)]
  exact fewer

/-- Cleaning again brings in no time, and it gives nothing for a track of less than nine reports. -/
theorem cleaned_track_cleaned_again (flagged : ρ → Bool) {plan : CleaningPlan α ρ}
    (hplan : plan = core (flagged ·.payload) ∨ plan = outageAware (flagged ·.payload))
    {track cleaned : Track α ρ} (h : plan.run track = some cleaned) :
    (cleaned.size < 9 → plan.run cleaned = none) ∧
    ∀ again, plan.run cleaned = some again →
      (times again.reports).Sublist (times cleaned.reports) ∧
      (times again.reports = times cleaned.reports ↔ again.size = cleaned.size) := by
  obtain ⟨work, hrun⟩ := run_cleaned flagged hplan h
  constructor
  · intro hsize
    rw [hrun]
    exact if_pos hsize
  · intro again hagain
    rw [hrun] at hagain
    obtain ⟨-, hwork⟩ := Option.ite_none_left_eq_some.mp hagain
    have increase := (run_standard_spaced hplan h).increase (by decide)
    have fewer := times_of_runWork increase hwork
    refine ⟨fewer, ?_, ?_⟩
    · intro hsame
      simpa [times, Track.size] using congrArg List.length hsame
    · intro hsize
      exact fewer.eq_of_length (by simpa [times, Track.size] using hsize)

theorem nineClimbing_again : ∃ cleaned,
    (core (·.payload)).run nineClimbing = some cleaned ∧
      ∀ again, (core (·.payload)).run cleaned = some again →
        (times again.reports).Sublist (times nineClimbing.reports) := by
  obtain ⟨cleaned, hrun, htimes⟩ := nineClimbing_run
  have hagain := (cleaned_track_cleaned_again id (Or.inl rfl) hrun).2
  exact ⟨cleaned, hrun, fun again h => htimes ▸ (hagain again h).1⟩

def nineEveryTwoSeconds : Track ℚ Bool where
  reports := [0, 2000, 4000, 6000, 8000, 10000, 12000, 14000, 16000].map climbingAt
  reports_ne_nil := by simp

/-- A cleaned track need not be a fixed point: of these nine reports five are left. -/
theorem not_idempotent : ∃ cleaned,
    (core (·.payload)).run nineEveryTwoSeconds = some cleaned ∧
      times cleaned.reports = [0, 4000, 8000, 12000, 16000] ∧
      (core (·.payload)).run cleaned = none := by
  obtain ⟨cleaned, hrun, htimes⟩ : ∃ cleaned,
      (core (·.payload)).run nineEveryTwoSeconds = some cleaned ∧
        times cleaned.reports = [0, 4000, 8000, 12000, 16000] :=
    exists_withWork_run (by decide) (by unfold Spaced; decide) (by decide) (by decide +kernel)
      (by decide) (by decide)
  obtain ⟨work, hagain⟩ := run_cleaned id (Or.inl rfl) hrun
  have hsize : cleaned.size = 5 := by
    rw [Track.size, ← List.length_map, ← times, htimes]
    rfl
  refine ⟨cleaned, hrun, htimes, hagain.trans (if_pos ?_)⟩
  rw [hsize]
  decide

end AirTraffic.CleaningPlan
