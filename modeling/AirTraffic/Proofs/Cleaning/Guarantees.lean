import AirTraffic.Proofs.Geo.Pseudometric
import AirTraffic.Proofs.Cleaning.Spacing
import AirTraffic.Cleaning.Standard

/-!
# What a cleaned track guarantees

Each guarantee is brought about by one step and survives the steps after it: the spacing comes from
the thinning of times, the altitudes from the filling of gaps, speeds and courses from the fit, and
made-up reports are gone before the work begins.
-/
namespace AirTraffic

open Report

variable {α ρ : Type}

section Plan

variable [Scalar α] [Geodesy α] [TableInverse α]

theorem TrackStep.runWork_cases {plan : WorkPlan α} {track cleaned : Track α ρ}
    (h : runWork plan track = some cleaned) :
    ∃ out, Chain.through WorkStep.apply (Chain.leavesAll plan) track.reports = some out ∧
      cleaned.reports = Report.sort out := by
  unfold runWork at h
  rw [Chain.runAll_eq_through] at h
  obtain ⟨out, hout, htrack⟩ := Option.bind_eq_some_iff.mp h
  exact ⟨out, hout, Track.ofReports?_eq_some_iff.mp htrack⟩

theorem TrackStep.runWork_of_increase {plan : WorkPlan α} {track : Track α ρ}
    {out : List (Report α ρ)}
    (h : Chain.through WorkStep.apply (Chain.leavesAll plan) track.reports = some out)
    (hne : out ≠ []) (hincrease : (times out).Pairwise (· < ·)) :
    runWork plan track = some ⟨out, hne⟩ := by
  unfold runWork
  rw [Chain.runAll_eq_through, h]
  exact Track.ofReports?_reports ⟨out, hne⟩ hincrease

theorem CleaningPlan.withWork_cases {isCoasted : Report α ρ → Bool} {plan : WorkPlan α}
    {track cleaned : Track α ρ} (h : (withWork isCoasted plan).run track = some cleaned) :
    ∃ genuine : Track α ρ, (∀ r ∈ genuine.reports, isCoasted r = false) ∧
      TrackSize.standard.minimum ≤ genuine.size ∧
      TrackStep.runWork plan genuine = some cleaned := by
  unfold run at h
  rw [Chain.runAll_eq_through] at h
  simp only [withWork, Chain.leavesAll, Chain.leaves, List.append_nil, List.cons_append,
    List.nil_append, Chain.through_cons] at h
  obtain ⟨uncoasted, hcoasted, h⟩ := Option.bind_eq_some_iff.mp h
  obtain ⟨sparse, hsparse, h⟩ := Option.bind_eq_some_iff.mp h
  obtain ⟨large, hlarge, h⟩ := Option.bind_eq_some_iff.mp h
  obtain ⟨done, hdone, hend⟩ := Option.bind_eq_some_iff.mp h
  obtain rfl : done = cleaned := Option.some.inj hend
  obtain ⟨hsize, hsame⟩ := Option.ite_none_left_eq_some.mp hlarge
  obtain rfl : sparse = large := Option.some.inj hsame
  refine ⟨sparse, ?_, ?_, hdone⟩
  · intro r hr
    have hr := (dropFlagged_sublist _ _).mem (Track.mem_of_ofReports? hsparse hr)
    simpa using (List.mem_filter.mp (Track.mem_of_ofReports? hcoasted hr)).2
  · simpa [TrackSize.tooSmall] using hsize

theorem CleaningPlan.withWork_run_of_spaced {isCoasted : Report α ρ → Bool} (plan : WorkPlan α)
    {track : Track α ρ} (hgenuine : ∀ r ∈ track.reports, isCoasted r = false)
    (hspaced : Spaced Crowding.standard.minimumMs (times track.reports)) :
    (withWork isCoasted plan).run track =
      if track.size < TrackSize.standard.minimum then none else TrackStep.runWork plan track := by
  have same := Track.ofReports?_reports track (hspaced.increase Crowding.standard.positive)
  have uncoasted : (TrackStep.dropCoasted isCoasted).apply track = some track := by
    have kept : track.reports.filter (!isCoasted ·) = track.reports :=
      List.filter_eq_self.mpr fun r hr => congrArg not (hgenuine r hr)
    exact (congrArg Track.ofReports? kept).trans same
  have sparse : (TrackStep.dropCrowded .standard).apply track = some track := by
    have kept := Report.dropFlagged_of_unflagged (Crowding.flags_of_spaced hspaced) track.reports
    exact (congrArg Track.ofReports? kept).trans same
  unfold run
  rw [Chain.runAll_eq_through]
  simp only [withWork, Chain.leavesAll, Chain.leaves, List.append_nil, List.cons_append,
    List.nil_append, Chain.through_cons, uncoasted, sparse, Option.bind_some]
  simp only [TrackStep.apply, TrackSize.clean, TrackSize.tooSmall, decide_eq_true_eq]
  split
  · rfl
  · exact Option.bind_fun_some _

theorem CleaningPlan.exists_withWork_run {isCoasted : Report α ρ → Bool} {plan : WorkPlan α}
    {track : Track α ρ} (hgenuine : ∀ r ∈ track.reports, isCoasted r = false)
    (hspaced : Spaced Crowding.standard.minimumMs (times track.reports))
    (hsize : TrackSize.standard.minimum ≤ track.size) {left : List Int}
    (hwork : (Chain.through WorkStep.apply (Chain.leavesAll plan) track.reports).map times =
      some left) (hne : left ≠ []) (hincrease : left.Pairwise (· < ·)) :
    ∃ cleaned, (withWork isCoasted plan).run track = some cleaned ∧
      times cleaned.reports = left := by
  obtain ⟨out, hout, rfl⟩ := Option.map_eq_some_iff.mp hwork
  have hout_ne : out ≠ [] := fun h => hne (congrArg times h)
  refine ⟨⟨out, hout_ne⟩, ?_, rfl⟩
  rw [withWork_run_of_spaced plan hgenuine hspaced, if_neg (Nat.not_lt.mpr hsize)]
  exact TrackStep.runWork_of_increase hout hout_ne hincrease

theorem CleaningPlan.workSteps_spaced {before : List (WorkStep α)} {reports out : List (Report α ρ)}
    (h : Chain.through WorkStep.apply (before ++ Chain.leavesAll workSteps) reports = some out) :
    Spaced 4000 (times out) := by
  refine Chain.through_establishes (P := fun out => Spaced 4000 (times out)) ?_ ?_ h
  · intro x y hy
    exact Option.some.inj hy ▸ TimeThinning.standard.clean_spaced x
  · intro step _ x y hx hy
    exact hx.sublist (step.apply_edits hy).times_sublist

/-- Both standard procedures end with the same steps, and what these give is in order. -/
theorem CleaningPlan.run_standard_cases {isCoasted : Report α ρ → Bool} {plan : CleaningPlan α ρ}
    (hplan : plan = core isCoasted ∨ plan = outageAware isCoasted) {track cleaned : Track α ρ}
    (h : plan.run track = some cleaned) :
    ∃ (before : List (WorkStep α)) (genuine : Track α ρ),
      (∀ r ∈ genuine.reports, isCoasted r = false) ∧
      Chain.through WorkStep.apply (before ++ Chain.leavesAll workSteps) genuine.reports =
        some cleaned.reports := by
  obtain ⟨before, rfl⟩ : ∃ before, plan = withWork isCoasted (before ++ workSteps) := by
    rcases hplan with rfl | rfl
    · exact ⟨[], rfl⟩
    · exact ⟨outageSteps, rfl⟩
  obtain ⟨genuine, hgenuine, -, hrun⟩ := withWork_cases h
  obtain ⟨out, hwork, hsort⟩ := TrackStep.runWork_cases hrun
  rw [Chain.leavesAll_append] at hwork
  have spaced := workSteps_spaced hwork
  rw [Report.sort_of_increase (spaced.increase (by decide))] at hsort
  exact ⟨Chain.leavesAll before, genuine, hgenuine, hsort ▸ hwork⟩

theorem CleaningPlan.run_standard_spaced {isCoasted : Report α ρ → Bool} {plan : CleaningPlan α ρ}
    (hplan : plan = core isCoasted ∨ plan = outageAware isCoasted) {track cleaned : Track α ρ}
    (h : plan.run track = some cleaned) : Spaced 4000 (times cleaned.reports) := by
  obtain ⟨before, genuine, -, hwork⟩ := run_standard_cases hplan h
  exact workSteps_spaced hwork

theorem CleaningPlan.run_standard_genuine {flagged : ρ → Bool} {plan : CleaningPlan α ρ}
    (hplan : plan = core (flagged ·.payload) ∨ plan = outageAware (flagged ·.payload))
    {track cleaned : Track α ρ} (h : plan.run track = some cleaned) :
    ∀ r ∈ cleaned.reports, flagged r.payload = false := by
  intro r hr
  obtain ⟨before, genuine, hgenuine, hwork⟩ := run_standard_cases hplan h
  obtain ⟨q, hq, he⟩ := exists_edited (WorkStep.run_edits hwork) hr
  rw [he.payload]
  exact hgenuine q hq

end Plan

section Exact

variable {α : Type} [ExactScalar α]

theorem Report.withAltitude_eq (r : Report α ρ) (altitude : Option α) :
    r.withAltitude altitude = { r with altitude := altitude } := by
  cases altitude <;> simp [withAltitude]

@[simp] theorem Report.withAltitude_altitude (r : Report α ρ) (altitude : Option α) :
    (r.withAltitude altitude).altitude = altitude := by
  rw [withAltitude_eq]

theorem Report.withAltitude_self {r : Report α ρ} {altitude : Option α}
    (h : r.altitude = altitude) :
    r.withAltitude altitude = r := by
  rw [withAltitude_eq, ← h]

@[simp] theorem Report.withSpeed_speed (r : Report α ρ) (speed : Option α) :
    (r.withSpeed speed).speed = speed := by
  cases speed <;> simp [withSpeed]

@[simp] theorem Report.withCourse_course (r : Report α ρ) (course : Option α) :
    (r.withCourse course).course = course.map Angle.compass := by
  cases course <;> simp [withCourse]

namespace MissingValues

theorem estimate?_isSome {before after : Option (Int × α)} (t : Int)
    (h : before.isSome ∨ after.isSome) : (estimate? before after t).isSome := by
  cases before with
  | some p => cases after <;> rfl
  | none =>
    cases after with
    | some q => rfl
    | none => simp at h

theorem fillAltitudesFrom_known (before : Option (Int × α)) (reports : List (Report α ρ))
    (h : before.isSome ∨ ∃ r ∈ reports, r.altitude.isSome) :
    ∀ r ∈ fillAltitudesFrom before reports, r.altitude.isSome := by
  fun_induction fillAltitudesFrom before reports with
  | case1 => exact List.forall_mem_nil _
  | case2 before r rest p hp ih =>
    have hr : r.altitude.isSome := by
      obtain ⟨altitude, ha, -⟩ := Option.map_eq_some_iff.mp hp
      exact Option.isSome_of_eq_some ha
    exact List.forall_mem_cons.mpr ⟨hr, ih (Or.inl rfl)⟩
  | case3 before r rest hr ih =>
    have hrest : before.isSome ∨ ∃ q ∈ rest, q.altitude.isSome := by
      refine h.imp_right ?_
      rintro ⟨q, hq, ha⟩
      rcases List.mem_cons.mp hq with rfl | hq
      · rw [Option.map_eq_none_iff.mp hr] at ha
        cases ha
      · exact ⟨q, hq, ha⟩
    refine List.forall_mem_cons.mpr ⟨?_, ih hrest⟩
    rw [Report.withAltitude_altitude]
    refine estimate?_isSome r.time (hrest.imp_right ?_)
    rintro ⟨q, hq, ha⟩
    rw [List.findSome?_isSome_iff]
    exact ⟨q, hq, by rwa [known?, Option.isSome_map]⟩

theorem fillAltitudes_known {reports out : List (Report α ρ)}
    (h : fillAltitudes reports = some out) : ∀ r ∈ out, r.altitude.isSome := by
  obtain ⟨hany, hout⟩ := Option.ite_none_right_eq_some.mp h
  obtain rfl := Option.some.inj hout
  exact fillAltitudesFrom_known none reports (Or.inr (List.any_eq_true.mp hany))

end MissingValues

theorem TrendTest.correctAltitudes_known (test : TrendTest α) {reports : List (Report α ρ)}
    (h : ∀ r ∈ reports, r.altitude.isSome) :
    ∀ r ∈ test.correctAltitudes reports, r.altitude.isSome := by
  intro r hr
  obtain ⟨⟨q, i⟩, hq, rfl⟩ := List.mem_map.mp hr
  cases hc : test.correctedAltitude? reports i with
  | some altitude => simp [hc]
  | none =>
    simp only [hc]
    exact h q (List.fst_mem_of_mem_zipIdx hq)

namespace MotionFit

variable [TableInverse α] {s : MotionFit} {reports out : List (Report α ρ)}

theorem clean_cases (h : s.clean reports = some out) :
    (∃ r, reports = [r] ∧ out = [r.withSpeed (some Scalar.zero)]) ∨
      ∀ r ∈ out, ∃ q ∈ reports, ∃ m, s.motion? reports q = some m ∧ r = move m q := by
  unfold clean at h
  split at h
  · exact Or.inl ⟨_, rfl, (Option.some.inj h).symm⟩
  · obtain ⟨-, hout⟩ := Option.ite_none_left_eq_some.mp h
    obtain rfl := Option.some.inj hout
    right
    intro r hr
    obtain ⟨q, hq, hm⟩ := List.mem_filterMap.mp hr
    obtain ⟨m, hfit, rfl⟩ := Option.map_eq_some_iff.mp hm
    exact ⟨q, hq, m, hfit, rfl⟩

theorem clean_altitudes (h : s.clean reports = some out)
    (known : ∀ r ∈ reports, r.altitude.isSome) : ∀ r ∈ out, r.altitude.isSome := by
  intro r hr
  rcases clean_cases h with ⟨q, rfl, rfl⟩ | hmoved
  · rw [List.mem_singleton.mp hr]
    exact known q List.mem_cons_self
  · obtain ⟨q, hq, m, -, rfl⟩ := hmoved r hr
    exact known q hq

theorem clean_speeds (h : s.clean reports = some out) : ∀ r ∈ out, r.speed.isSome := by
  intro r hr
  rcases clean_cases h with ⟨q, rfl, rfl⟩ | hmoved
  · simp [List.mem_singleton.mp hr]
  · obtain ⟨q, -, m, -, rfl⟩ := hmoved r hr
    simp [move, Report.withCourse, Report.withSpeed]

theorem clean_courses (h : s.clean reports = some out) (hsize : 2 ≤ out.length) :
    ∀ r ∈ out, r.course.isSome := by
  intro r hr
  rcases clean_cases h with ⟨q, rfl, rfl⟩ | hmoved
  · exact absurd hsize (by simp)
  · obtain ⟨q, -, m, -, rfl⟩ := hmoved r hr
    simp [move]

end MotionFit

section Work

variable [Geodesy α] [TableInverse α] {before : List (WorkStep α)} {reports out : List (Report α ρ)}
  (h : Chain.through WorkStep.apply (before ++ Chain.leavesAll CleaningPlan.workSteps) reports =
    some out)

include h

namespace CleaningPlan

theorem workSteps_altitudes : ∀ r ∈ out, r.altitude.isSome := by
  rw [show before ++ Chain.leavesAll workSteps = before ++ (Chain.leavesAll workSteps).take 5 ++
    .fillAltitudes :: [.correctAltitudes .altitudes, .dropPositionOutliers .positions,
      .fitMotion .standard] by rw [List.append_assoc]; rfl] at h
  refine Chain.through_establishes (P := fun out => ∀ r ∈ out, r.altitude.isSome) ?_ ?_ h
  · exact fun _ _ => MissingValues.fillAltitudes_known
  · intro step hstep x y hx hy
    simp only [List.mem_cons, List.not_mem_nil, or_false] at hstep
    rcases hstep with rfl | rfl | rfl
    · exact Option.some.inj hy ▸ TrendTest.correctAltitudes_known _ hx
    · obtain ⟨-, hkept⟩ := Option.ite_none_left_eq_some.mp hy
      obtain rfl := Option.some.inj hkept
      exact fun r hr => hx r ((dropFlagged_sublist _ _).mem hr)
    · exact MotionFit.clean_altitudes hy hx

theorem workSteps_motions :
    (∀ r ∈ out, r.speed.isSome) ∧ (2 ≤ out.length → ∀ r ∈ out, r.course.isSome) := by
  rw [show before ++ Chain.leavesAll workSteps = before ++ (Chain.leavesAll workSteps).take 8 ++
    .fitMotion .standard :: [] by rw [List.append_assoc]; rfl] at h
  refine Chain.through_establishes (P := fun out => (∀ r ∈ out, r.speed.isSome) ∧
    (2 ≤ out.length → ∀ r ∈ out, r.course.isSome)) ?_
    (fun _ hs => absurd hs List.not_mem_nil) h
  exact fun _ _ hy => ⟨MotionFit.clean_speeds hy, MotionFit.clean_courses hy⟩

end CleaningPlan

end Work

structure Track.Clean (flagged : ρ → Bool) (track : Track α ρ) : Prop where
  spaced : track.reports.IsChain fun r q => 4000 ≤ q.time - r.time
  altitudes : ∀ r ∈ track.reports, r.altitude.isSome
  speeds : ∀ r ∈ track.reports, r.speed.isSome
  courses : 2 ≤ track.size → ∀ r ∈ track.reports, r.course.isSome
  genuine : ∀ r ∈ track.reports, flagged r.payload = false

namespace CleaningPlan

variable [Geodesy α] [TableInverse α]

/-- Whatever a procedure gives back is clean, whatever track it was given. -/
theorem cleaned_track_is_clean (flagged : ρ → Bool) {plan : CleaningPlan α ρ}
    (hplan : plan = core (flagged ·.payload) ∨ plan = outageAware (flagged ·.payload))
    {track cleaned : Track α ρ} (h : plan.run track = some cleaned) : cleaned.Clean flagged := by
  obtain ⟨before, genuine, -, hwork⟩ := run_standard_cases hplan h
  obtain ⟨speeds, courses⟩ := workSteps_motions hwork
  have spaced := List.pairwise_map.mp (run_standard_spaced hplan h)
  constructor
  · refine (spaced.imp ?_).isChain
    intro r q hle
    omega
  · exact workSteps_altitudes hwork
  · exact speeds
  · exact courses
  · exact run_standard_genuine hplan h

end CleaningPlan

end Exact

def climbingAt (time : Int) : Report ℚ Bool where
  time := time
  position := ⟨time / 100000, 0⟩
  altitude := if time = 8000 then none else some (3000 + time / 100)
  speed := none
  course := none
  curvature := none
  alongTrackDistance := none
  trackId := none
  payload := false

def nineClimbing : Track ℚ Bool where
  reports := [0, 4000, 8000, 12000, 16000, 20000, 24000, 28000, 32000].map climbingAt
  reports_ne_nil := by simp

instance : TableInverse ℚ := TableInverse.standard

theorem nineClimbing_run : ∃ cleaned,
    (CleaningPlan.core (·.payload)).run nineClimbing = some cleaned ∧
      times cleaned.reports = times nineClimbing.reports :=
  CleaningPlan.exists_withWork_run (by decide) (by unfold Spaced; decide) (by decide)
    (by decide +kernel) (by decide) (by decide)

theorem nineClimbing_clean : ∃ cleaned,
    (CleaningPlan.core (·.payload)).run nineClimbing = some cleaned ∧
      times cleaned.reports = times nineClimbing.reports ∧ cleaned.Clean id := by
  obtain ⟨cleaned, hrun, htimes⟩ := nineClimbing_run
  exact ⟨cleaned, hrun, htimes, CleaningPlan.cleaned_track_is_clean id (Or.inl rfl) hrun⟩

end AirTraffic
