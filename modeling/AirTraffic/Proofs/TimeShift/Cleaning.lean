import Mathlib.Data.Option.Basic
import AirTraffic.Proofs.TimeShift.Report
import AirTraffic.Cleaning.Standard

/-!
# Cleaning at another time

Every step gives the same reports at the shifted times. Positions, altitudes and the like are
computed from differences of times, which makes the arithmetic of both runs the same operation for
operation; nothing is asked of the scalars, of the shape of the earth or of the table inverse.
-/
namespace AirTraffic

open Report

variable {α ρ : Type} (ms : Int)

theorem Report.dropFlagged_shift (flags : List Bool) (reports : List (Report α ρ)) :
    dropFlagged flags (reports.map (shift ms)) = (dropFlagged flags reports).map (shift ms) := by
  fun_induction dropFlagged flags reports with
  | case1 reports => simp [dropFlagged]
  | case2 flags => simp [dropFlagged]
  | case3 flags r reports ih => simp [dropFlagged, ih]
  | case4 flag flags r reports hflag ih => simp [dropFlagged, hflag, ih]

section Thinning

variable {close : Report α ρ → Report α ρ → Bool}
  (hclose : ∀ r q, close (r.shift ms) (q.shift ms) = close r q)

include hclose

theorem Report.thinAfter_shift (kept : Report α ρ) (reports : List (Report α ρ)) :
    thinAfter close (kept.shift ms) (reports.map (shift ms)) =
      (thinAfter close kept reports).map (shift ms) := by
  fun_induction thinAfter close kept reports with
  | case1 => rfl
  | case2 kept r rest h ih => simp only [List.map_cons, thinAfter, hclose, h, if_true, ih]
  | case3 kept r rest h ih => simp [thinAfter, hclose, h, ih]

theorem Report.thin_shift (reports : List (Report α ρ)) :
    thin close (reports.map (shift ms)) = (thin close reports).map (shift ms) := by
  cases reports with
  | nil => rfl
  | cons r rest => exact congrArg _ (thinAfter_shift ms hclose r rest)

end Thinning

theorem TimeThinning.clean_shift (s : TimeThinning) (reports : List (Report α ρ)) :
    s.clean (reports.map (shift ms)) = (s.clean reports).map (shift ms) :=
  thin_shift ms (fun r q => by simp only [close, shift_time, Int.add_sub_add_right]) reports

theorem Crowding.flags_shift (c : Crowding) (times : List Int) :
    c.flags (times.map (· + ms)) = c.flags times := by
  unfold flags
  fun_induction flagsFrom c false times with
  | case1 => rfl
  | case2 => rfl
  | case3 afterClose t u rest close ih =>
    simp only [List.map_cons, flagsFrom, Int.add_sub_add_right] at ih ⊢
    rw [ih]

theorem Nearest.stretch_shift (times : List Int) (t : Int) (k : Nat) :
    stretch (times.map (· + ms)) (t + ms) k = stretch times t k := by
  have earlier : (fun u => decide (u < t + ms)) ∘ (· + ms) = fun u => decide (u < t) := by
    funext u
    simp
  have before : (t + ms - ·) ∘ (· + ms) = (t - ·) := funext fun u => Int.add_sub_add_right ..
  have after : (· - (t + ms)) ∘ (· + ms) = (· - t) := funext fun u => Int.add_sub_add_right ..
  simp only [stretch, List.takeWhile_map, List.dropWhile_map, earlier, ← List.map_reverse,
    List.map_map, before, after, List.length_map]

theorem Report.nearest_shift (reports : List (Report α ρ)) (t : Int) (k : Nat) :
    nearest (reports.map (shift ms)) (t + ms) k = nearest reports t k := by
  rw [nearest, times_shift, Nearest.stretch_shift, nearest]

namespace OutageTest

variable (test : OutageTest α)

theorem inspectedBefore_shift (times : List Int) (last : Nat) (t : Int) :
    test.inspectedBefore (times.map (· + ms)) last (t + ms) =
      test.inspectedBefore times last t := by
  have early : (fun u => decide (u ≤ t + ms - test.windowMs)) ∘ (· + ms) =
      fun u => decide (u ≤ t - test.windowMs) :=
    funext fun u => decide_eq_decide.mpr (by change u + ms ≤ _ ↔ _; omega)
  simp only [inspectedBefore, List.takeWhile_map, List.length_map, early]

theorem inspectedAfter_shift (times : List Int) (first : Nat) (t : Int) :
    test.inspectedAfter (times.map (· + ms)) first (t + ms) =
      test.inspectedAfter times first t := by
  have early : (fun u => decide (u < t + ms + test.windowMs)) ∘ (· + ms) =
      fun u => decide (u < t + test.windowMs) :=
    funext fun u => decide_eq_decide.mpr (by change u + ms < _ ↔ _; omega)
  simp only [inspectedAfter, List.takeWhile_map, List.length_map, early]

theorem outages_shift (times : List Int) :
    test.outages (times.map (· + ms)) = test.outages times := by
  cases times with
  | nil => rfl
  | cons start rest =>
    have shifted : (start + ms) :: rest.map (· + ms) = (start :: rest).map (· + ms) := rfl
    have stop : (rest.map (· + ms)).getLastD (start + ms) = rest.getLastD start + ms :=
      List.getLastD_map
    have gap : (fun p : (Int × Int) × Nat => decide (p.1.1 + test.gapMs < p.1.2)) ∘
        Prod.map (Prod.map (· + ms) (· + ms)) id =
          fun p => decide (p.1.1 + test.gapMs < p.1.2) :=
      funext fun p => decide_eq_decide.mpr (by change p.1.1 + ms + _ < p.1.2 + ms ↔ _; omega)
    simp only [outages, List.map_cons]
    simp only [shifted, stop, inspectedBefore_shift, inspectedAfter_shift, List.length_map,
      List.zip_map, List.zipIdx_map, List.filter_map, gap, List.map_map, Function.comp_def,
      Prod.map, id]

theorem dropFlags_shift (times : List Int) (bad : Nat → Bool) :
    test.dropFlags (times.map (· + ms)) bad = test.dropFlags times bad := by
  simp only [dropFlags, outages_shift, List.length_map]

end OutageTest

theorem TrendTest.neighbours?_shift (test : TrendTest α) (reports : List (Report α ρ)) (i : Nat) :
    test.neighbours? (reports.map (shift ms)) i =
    (test.neighbours? reports i).map (Prod.map (shift ms) (List.map (shift ms))) := by
  unfold neighbours?
  rw [List.getElem?_map]
  cases reports[i]? with
  | none => rfl
  | some candidate =>
    have others : ∀ indices : List Nat, indices.filterMap ((reports.map (shift ms))[·]?) =
        (indices.filterMap (reports[·]?)).map (shift ms) := by
      intro indices
      simp only [List.getElem?_map, List.map_filterMap]
    simp only [Option.map_some, Option.bind_eq_bind, Option.bind_some, shift_time, nearest_shift,
      others, Option.map_bind]
    rfl

theorem MotionFit.nearby_shift (reports : List (Report α ρ)) (centre : Report α ρ) (halfMs : Int) :
    nearby (reports.map (shift ms)) (centre.shift ms) halfMs =
      (nearby reports centre halfMs).map (shift ms) := by
  simp only [nearby, List.filter_map, Function.comp_def, shift_time, Int.add_sub_add_right]

theorem AltitudeProfile.measured?_shift (reports : List (Report α ρ)) :
    measured? (reports.map (shift ms)) =
      (measured? reports).map (List.map (Prod.map (· + ms) id)) := by
  unfold measured?
  induction reports with
  | nil => rfl
  | cons r rest ih =>
    rw [List.map_cons, List.mapM_cons, List.mapM_cons, ih, shift_altitude]
    cases r.altitude with
    | none => rfl
    | some altitude => cases rest.mapM fun r => r.altitude.map (r.time, ·) <;> rfl

theorem MissingValues.known?_shift (r : Report α ρ) :
    known? (r.shift ms) = (known? r).map (Prod.map (· + ms) id) := by
  simp [known?, Function.comp_def]

/-- A step of the library which, where it asks what is made up, asks the payload. -/
def TrackStep.AsksPayload : TrackStep α ρ → Prop
  | dropCoasted isCoasted => ∃ flagged : ρ → Bool, isCoasted = (flagged ·.payload)
  | custom _ _ => False
  | _ => True

theorem CleaningPlan.withWork_asksPayload (flagged : ρ → Bool) (work : WorkPlan α) :
    ∀ step ∈ Chain.leavesAll (withWork (flagged ·.payload) work : CleaningPlan α ρ),
      step.AsksPayload := by
  simp only [withWork, Chain.leavesAll, Chain.leaves, List.append_nil, List.cons_append,
    List.nil_append, List.forall_mem_cons]
  exact ⟨⟨flagged, rfl⟩, trivial, trivial, trivial, List.forall_mem_nil _⟩

variable [Scalar α]

theorem DistanceThinning.clean_shift [Geodesy α] (s : DistanceThinning α)
    (reports : List (Report α ρ)) :
    s.clean (reports.map (shift ms)) = (s.clean reports).map (shift ms) := by
  refine thin_shift ms (fun r q => ?_) reports
  have apart : (q.shift ms).time - (r.shift ms).time = q.time - r.time := Int.add_sub_add_right ..
  rw [close, apart]
  rfl

theorem DiscardRule.applies_shift (rule : DiscardRule α) (reports : List (Report α ρ)) :
    rule.applies (reports.map (shift ms)) = rule.applies reports := by
  have cells : ∀ scale, Occupancy.cells scale (reports.map (shift ms)) =
      Occupancy.cells scale reports := by
    intro scale
    simp only [Occupancy.cells, List.map_map]
    rfl
  cases rule with
  | repetition rule => simp only [applies, Repetition.applies, cells, List.length_map]
  | confinement rule => simp only [applies, Confinement.applies, cells]

namespace MissingValues

theorem dropZeroAltitude_shift (r : Report α ρ) :
    dropZeroAltitude (r.shift ms) = (dropZeroAltitude r).shift ms := by
  unfold dropZeroAltitude
  rw [shift_altitude]
  split <;> rfl

theorem estimate?_shift (before after : Option (Int × α)) (t : Int) :
    estimate? (before.map (Prod.map (· + ms) id)) (after.map (Prod.map (· + ms) id)) (t + ms) =
      estimate? before after t := by
  cases before <;> cases after <;> simp [estimate?, Polyline.between_shift]

theorem fillAltitudesFrom_shift (before : Option (Int × α)) (reports : List (Report α ρ)) :
    fillAltitudesFrom (before.map (Prod.map (· + ms) id)) (reports.map (shift ms)) =
      (fillAltitudesFrom before reports).map (shift ms) := by
  fun_induction fillAltitudesFrom before reports with
  | case1 => rfl
  | case2 before r rest p hp ih =>
    simp only [List.map_cons, fillAltitudesFrom, known?_shift, hp, Option.map_some]
    rw [← ih, Option.map_some]
  | case3 before r rest hr ih =>
    have after : (rest.map (shift ms)).findSome? known? =
        (rest.findSome? known?).map (Prod.map (· + ms) id) := by
      rw [List.findSome?_map, List.map_findSome?]
      exact congrArg (List.findSome? · rest) (funext fun q => known?_shift ms q)
    simp only [List.map_cons, fillAltitudesFrom, known?_shift, hr, Option.map_none, after,
      shift_time, estimate?_shift, ih]
    rfl

theorem fillAltitudes_shift (reports : List (Report α ρ)) :
    fillAltitudes (reports.map (shift ms)) = (fillAltitudes reports).map (List.map (shift ms)) := by
  have known : (reports.map (shift ms)).any (·.altitude.isSome) =
      reports.any (·.altitude.isSome) := List.any_map
  unfold fillAltitudes
  rw [known]
  split
  · exact congrArg some (fillAltitudesFrom_shift ms none reports)
  · rfl

variable [Geodesy α]

theorem impliedSpeed_shift (p q : Report α ρ) :
    impliedSpeed (p.shift ms) (q.shift ms) = impliedSpeed p q := by
  simp only [impliedSpeed, distanceTo_shift, shift_time, Int.add_sub_add_right]

theorem deducedSpeed?_shift (before : Option (Report α ρ)) (r : Report α ρ)
    (after : Option (Report α ρ)) :
    deducedSpeed? (before.map (shift ms)) (r.shift ms) (after.map (shift ms)) =
      deducedSpeed? before r after := by
  cases before <;> cases after <;> simp [deducedSpeed?, impliedSpeed_shift]

theorem fillSpeedsFrom_shift (before : Option (Report α ρ)) (reports : List (Report α ρ)) :
    fillSpeedsFrom (before.map (shift ms)) (reports.map (shift ms)) =
      (fillSpeedsFrom before reports).map (shift ms) := by
  fun_induction fillSpeedsFrom before reports with
  | case1 => rfl
  | case2 before r rest ih =>
    simp only [List.map_cons, fillSpeedsFrom, List.head?_map, deducedSpeed?_shift, shift_speed]
    refine congr (congrArg _ ?_) ih
    split <;> rfl

theorem fillSpeeds_shift (reports : List (Report α ρ)) :
    fillSpeeds (reports.map (shift ms)) = (fillSpeeds reports).map (List.map (shift ms)) := by
  unfold fillSpeeds
  rw [List.length_map]
  split
  · rfl
  · exact congrArg some (fillSpeedsFrom_shift ms none reports)

end MissingValues

namespace TrendTest

variable (test : TrendTest α) (reports : List (Report α ρ)) (i : Nat)

theorem observe_shift (field : Report α ρ → Option α) (hfield : ∀ r, field (r.shift ms) = field r)
    (candidate : Report α ρ) (others : List (Report α ρ)) :
    observe field (candidate.shift ms) (others.map (shift ms)) =
      observe field candidate others := by
  simp only [observe, List.filterMap_map, Function.comp_def, hfield, seconds, shift_time,
    Int.add_sub_add_right]

theorem correctedAltitude?_shift :
    test.correctedAltitude? (reports.map (shift ms)) i = test.correctedAltitude? reports i := by
  unfold correctedAltitude?
  rw [List.getElem?_map, neighbours?_shift]
  cases reports[i]? with
  | none => rfl
  | some candidate =>
    simp only [Option.map_some, Option.bind_eq_bind, Option.bind_some, shift_altitude,
      Option.bind_map]
    refine congrArg _ (funext fun altitude => congrArg _ (funext fun neighbourhood => ?_))
    have same := observe_shift ms (·.altitude) (fun _ => rfl) candidate neighbourhood.2
    simp only [Function.comp_apply, Prod.map_snd, same]

theorem correctAltitudes_shift :
    test.correctAltitudes (reports.map (shift ms)) =
      (test.correctAltitudes reports).map (shift ms) := by
  simp only [correctAltitudes, List.zipIdx_map, List.map_map]
  refine List.map_congr_left fun p _ => ?_
  simp only [Function.comp_apply, Prod.map, id, correctedAltitude?_shift]
  split <;> rfl

variable [Geodesy α]

theorem isPositionOutlier_shift :
    test.isPositionOutlier (reports.map (shift ms)) i = test.isPositionOutlier reports i := by
  unfold isPositionOutlier
  rw [neighbours?_shift]
  cases test.neighbours? reports i with
  | none => rfl
  | some neighbourhood =>
    obtain ⟨candidate, others⟩ := neighbourhood
    have latitudes := observe_shift ms (some ·.position.latitude) (fun _ => rfl) candidate others
    have longitudes := observe_shift ms (some ·.position.longitude) (fun _ => rfl) candidate others
    simp only [Option.map_some, Prod.map, latitudes, longitudes, shift_position]

theorem dropPositionOutliers_shift :
    test.dropPositionOutliers (reports.map (shift ms)) =
      (test.dropPositionOutliers reports).map (List.map (shift ms)) := by
  have flags : test.positionFlags (reports.map (shift ms)) = test.positionFlags reports := by
    rw [positionFlags, List.length_map, positionFlags]
    exact List.map_congr_left fun i _ => isPositionOutlier_shift ms test reports i
  unfold dropPositionOutliers
  rw [flags, dropFlagged_shift]
  simp only [List.isEmpty_map]
  split <;> rfl

end TrendTest

namespace OutageTest

theorem velocity_shift (plane : LocalPlane α) (p q : Report α ρ) :
    velocity plane (p.shift ms) (q.shift ms) = velocity plane p q := by
  simp only [velocity, shift_position, shift_time, Int.add_sub_add_right]

theorem acceleration_shift (plane : LocalPlane α) (p q r : Report α ρ) :
    acceleration plane (p.shift ms) (q.shift ms) (r.shift ms) = acceleration plane p q r := by
  simp only [acceleration, velocity_shift, shift_time, Int.add_sub_add_right]

variable (test : OutageTest α)

theorem badTriples_shift (plane : LocalPlane α) (reports : List (Report α ρ)) :
    test.badTriples plane (reports.map (shift ms)) = test.badTriples plane reports := by
  fun_induction badTriples test plane reports with
  | case1 p q r rest ih =>
    simp only [List.map_cons, badTriples, acceleration_shift] at ih ⊢
    rw [ih]
  | case2 reports h =>
    rcases reports with _ | ⟨p, _ | ⟨q, _ | ⟨r, rest⟩⟩⟩
    · rfl
    · rfl
    · rfl
    · exact absurd rfl (h p q r rest)

theorem clean_shift (reports : List (Report α ρ)) :
    test.clean (reports.map (shift ms)) = (test.clean reports).map (List.map (shift ms)) := by
  have flags : test.flags (reports.map (shift ms)) = test.flags reports := by
    cases reports with
    | nil => rfl
    | cons first rest =>
      have bad := test.badTriples_shift ms (.around first.position) (first :: rest)
      have times := times_shift ms (first :: rest)
      simp only [OutageTest.flags, List.map_cons, shift_position] at bad times ⊢
      rw [bad, times]
      exact dropFlags_shift ms test (Report.times (first :: rest)) _
  unfold clean
  rw [flags, dropFlagged_shift]
  simp only [List.isEmpty_map]
  split <;> rfl

end OutageTest

namespace MotionFit

theorem observe_shift (centre : Report α ρ) (coordinate : Position α → α)
    (reports : List (Report α ρ)) :
    observe (centre.shift ms) coordinate (reports.map (shift ms)) =
      observe centre coordinate reports := by
  simp only [observe, List.map_map, Function.comp_def, shift_time, shift_position,
    Int.add_sub_add_right]

variable [TableInverse α]

theorem motionWithin?_shift (reports : List (Report α ρ)) (centre : Report α ρ) (halfMs : Int) :
    motionWithin? (reports.map (shift ms)) (centre.shift ms) halfMs =
      motionWithin? reports centre halfMs := by
  simp only [motionWithin?, nearby_shift, observe_shift, List.length_map, shift_position]

theorem motion?_shift (s : MotionFit) (reports : List (Report α ρ)) (centre : Report α ρ) :
    s.motion? (reports.map (shift ms)) (centre.shift ms) = s.motion? reports centre := by
  simp only [motion?, motionWithin?_shift]

theorem clean_shift (s : MotionFit) (reports : List (Report α ρ)) :
    s.clean (reports.map (shift ms)) = (s.clean reports).map (List.map (shift ms)) := by
  have fitted : (reports.map (shift ms)).filterMap
      (fun r => (s.motion? (reports.map (shift ms)) r).map (move · r)) =
        (reports.filterMap fun r => (s.motion? reports r).map (move · r)).map (shift ms) := by
    simp only [List.filterMap_map, List.map_filterMap, Function.comp_def, motion?_shift,
      Option.map_map]
    rfl
  rcases reports with _ | ⟨r, _ | ⟨q, rest⟩⟩
  · rfl
  · rfl
  · simp only [clean, List.map_cons] at fitted ⊢
    rw [fitted, List.isEmpty_map]
    split <;> rfl

end MotionFit

namespace AltitudeProfile

theorem sampleTimes_shift (stepMs : Int) (span : TimeSpan) :
    sampleTimes stepMs (span.shift ms) = (sampleTimes stepMs span).map (· + ms) := by
  simp only [sampleTimes, TimeSpan.steps_shift, TimeSpan.duration_shift]
  split
  · rfl
  · exact List.map_dropLast.symm

theorem smoothed_shift (s : AltitudeProfile α) (span : TimeSpan) (measured : Polyline α) :
    s.smoothed (span.shift ms) (measured.map (Prod.map (· + ms) id)) =
      (s.smoothed span measured).map (Prod.map (· + ms) id) := by
  simp only [smoothed, sampleTimes_shift, List.filterMap_map, Function.comp_def,
    Polyline.value?_shift, List.zip_map_left]

theorem follow_shift (profile : Polyline α) (r : Report α ρ) :
    follow (profile.map (Prod.map (· + ms) id)) (r.shift ms) = (follow profile r).shift ms := by
  unfold follow
  rw [shift_time, Polyline.value?_shift]
  cases profile.value? r.time <;> rfl

theorem clean_shift (s : AltitudeProfile α) (reports : List (Report α ρ)) :
    s.clean (reports.map (shift ms)) = (s.clean reports).map (shift ms) := by
  unfold clean
  rw [List.head?_map, List.getLast?_map, measured?_shift]
  cases reports.head? with
  | none => rfl
  | some first =>
    cases reports.getLast? with
    | none => rfl
    | some last =>
      cases measured? reports with
      | none => rfl
      | some measured =>
        simp only [Option.map_some, shift_time, TimeSpan.between_shift, TimeSpan.duration_shift,
          smoothed_shift]
        split
        · rfl
        · simp only [List.map_map, Function.comp_def, follow_shift]

end AltitudeProfile

variable [Geodesy α] [TableInverse α]

theorem WorkStep.apply_shift (step : WorkStep α) (reports : List (Report α ρ)) :
    step.apply (reports.map (shift ms)) = (step.apply reports).map (List.map (shift ms)) := by
  cases step with
  | thinTimes s => exact congrArg some (s.clean_shift ms reports)
  | thinDistances s => exact congrArg some (s.clean_shift ms reports)
  | dropZeroAltitudes =>
    simp only [apply, List.map_map, Function.comp_def, MissingValues.dropZeroAltitude_shift,
      Option.map_some]
  | fillAltitudes => exact MissingValues.fillAltitudes_shift ms reports
  | fillSpeeds => exact MissingValues.fillSpeeds_shift ms reports
  | correctAltitudes test => exact congrArg some (test.correctAltitudes_shift ms reports)
  | dropPositionOutliers test => exact test.dropPositionOutliers_shift ms reports
  | dropOutageOutliers test => exact test.clean_shift ms reports
  | fitMotion s => exact s.clean_shift ms reports
  | smoothAltitudes s => exact congrArg some (s.clean_shift ms reports)
  | discard rule =>
    simp only [apply, DiscardRule.applies_shift]
    split <;> rfl

namespace TrackStep

theorem runWork_shift (plan : WorkPlan α) (track : Track α ρ) :
    runWork plan (track.shift ms) = (runWork plan track).map (Track.shift ms) := by
  unfold runWork
  rw [Chain.runAll_eq_through, Chain.runAll_eq_through, Track.shift_reports,
    Chain.through_map fun step _ reports => step.apply_shift ms reports]
  cases Chain.through WorkStep.apply (Chain.leavesAll plan) track.reports with
  | none => rfl
  | some out => exact Track.ofReports?_shift ms out

theorem apply_shift {step : TrackStep α ρ} (hstep : step.AsksPayload) (track : Track α ρ) :
    step.apply (track.shift ms) = (step.apply track).map (Track.shift ms) := by
  cases step with
  | dropCoasted isCoasted =>
    obtain ⟨flagged, rfl⟩ := hstep
    rw [apply, Track.shift_reports, List.filter_map]
    exact Track.ofReports?_shift ms _
  | dropCrowded s =>
    have flags := s.flags_shift ms (times track.reports)
    rw [← times_shift] at flags
    rw [apply, Crowding.clean, Track.shift_reports]
    change Track.ofReports? (dropFlagged (s.flags (times _)) _) = _
    rw [flags, dropFlagged_shift]
    exact Track.ofReports?_shift ms _
  | requireSize s =>
    have tooSmall : s.tooSmall (track.shift ms) = s.tooSmall track := by
      rw [TrackSize.tooSmall, Track.size_shift, TrackSize.tooSmall]
    simp only [apply, TrackSize.clean, tooSmall]
    split <;> rfl
  | discard rule =>
    simp only [apply, Track.shift_reports, DiscardRule.applies_shift]
    split <;> rfl
  | work plan => exact runWork_shift ms plan track
  | custom name clean => exact hstep.elim

end TrackStep

namespace CleaningPlan

theorem run_shift {plan : CleaningPlan α ρ}
    (hplan : ∀ step ∈ Chain.leavesAll plan, step.AsksPayload)
    (track : Track α ρ) : plan.run (track.shift ms) = (plan.run track).map (Track.shift ms) := by
  unfold run
  rw [Chain.runAll_eq_through, Chain.runAll_eq_through]
  exact Chain.through_map
    (fun step hstep track => TrackStep.apply_shift ms (hplan step hstep) track) track

end CleaningPlan
end AirTraffic
