import AirTraffic.Proofs.Track.Reading
import AirTraffic.Proofs.Encounter.Minimum

/-!
# Gaps in one of two tracks

A track that has a gap says nothing of the instants in it, and why it says nothing does not get
through to the question about two tracks: the instant is said to be outside the overlap, though it
is not. From a series of samples no other instant is ever said to be outside, and neither a series
nor a forecast says that two reports are too far apart.
-/
namespace AirTraffic

open Scalar

variable {α ρ β γ : Type}

namespace TrackPair

/-- The only instants that the error may call outside are those of the overlap at which one of the
tracks has a gap. -/
structure OnlyGaps [Scalar α] (p : TrackPair α ρ) (e : SeparationError α) : Prop where
  unsaid : ∀ cause, e ≠ .blend cause
  outside : ∀ u start stop, e = .outsideSpan u start stop → ∃ span, p.overlap = .ok span ∧
    span.start = start ∧ span.stop = stop ∧ span.contains u ∧ (p.first.Gap u ∨ p.second.Gap u)

def FailsInGaps [Scalar α] (p : TrackPair α ρ) (x : Except (SeparationError α) β) : Prop :=
  ∀ e, x = .error e → p.OnlyGaps e

section Computations

variable [Scalar α] {p : TrackPair α ρ} {x : Except (SeparationError α) β}
  {f : β → Except (SeparationError α) γ}

theorem FailsInGaps.of_ok (h : ∃ b, x = .ok b) : p.FailsInGaps x := by
  obtain ⟨b, rfl⟩ := h
  intro e he
  cases he

theorem FailsInGaps.pure (b : β) : p.FailsInGaps (.ok b) := .of_ok ⟨b, rfl⟩

theorem FailsInGaps.error {e : SeparationError α} (unsaid : ∀ cause, e ≠ .blend cause)
    (inSpan : ∀ u start stop, e ≠ .outsideSpan u start stop) :
    p.FailsInGaps (.error e : Except _ β) := by
  intro e' he
  obtain rfl := Except.error.inj he
  exact ⟨unsaid, fun u start stop same => absurd same (inSpan u start stop)⟩

theorem FailsInGaps.bind (hx : p.FailsInGaps x) (hf : ∀ b, x = .ok b → p.FailsInGaps (f b)) :
    p.FailsInGaps (x >>= f) := by
  intro e he
  rcases error_of_bind he with he | ⟨b, hb, he⟩
  · exact hx e he
  · exact hf b hb e he

theorem FailsInGaps.mapM {f : β → Except (SeparationError α) γ} {xs : List β}
    (each : ∀ b ∈ xs, p.FailsInGaps (f b)) : p.FailsInGaps (xs.mapM f) := by
  induction xs with
  | nil => exact .pure []
  | cons b xs ih =>
    obtain ⟨first, rest⟩ := List.forall_mem_cons.mp each
    rw [List.mapM_cons]
    exact first.bind fun c _ => (ih rest).bind fun cs _ => .pure (c :: cs)

theorem overlap_fails : p.FailsInGaps p.overlap := by
  unfold overlap
  cases p.overlap? with
  | none => exact .error (by simp) (by simp)
  | some span => exact .pure span

theorem required_fails (r : Report α ρ) (field : ReportField) (value : Option α) :
    p.FailsInGaps (Instant.required r field value) := by
  cases value with
  | none => exact .error (by simp) (by simp)
  | some v => exact .pure v

theorem altitudeDelta_fails (instant : Instant α ρ) : p.FailsInGaps instant.altitudeDelta :=
  (required_fails _ _ _).bind fun _ _ => (required_fails _ _ _).bind fun _ _ => .pure _

theorem velocity_fails (r : Report α ρ) : p.FailsInGaps (Instant.velocity r) :=
  (required_fails _ _ _).bind fun _ _ => (required_fails _ _ _).bind fun _ _ => .pure _

theorem closestApproach_fails [Geodesy α] (instant : Instant α ρ) :
    p.FailsInGaps instant.closestApproach := by
  unfold Instant.closestApproach
  split
  · exact .error (by simp) (by simp)
  · refine (velocity_fails _).bind fun v _ => (velocity_fails _).bind fun u _ => ?_
    dsimp only
    split
    · exact .pure _
    · exact .pure _

theorem ofSamples_fails (samples : List (Separation α)) :
    p.FailsInGaps (SeparationProfile.ofSamples samples) := by
  rcases samples with _ | ⟨first, _ | ⟨second, rest⟩⟩
  · exact .error (by simp) (by simp)
  · exact .error (by simp) (by simp)
  · rw [SeparationProfile.ofSamples]
    split
    · exact .pure _
    · exact .error (by simp) (by simp)

theorem extrapolate_fails {profile : SeparationProfile α} {time : Int}
    (inside : profile.span.contains time) (axis : Axis) (stepMs : Int) :
    p.FailsInGaps (profile.extrapolate (profile.line axis) time stepMs) := by
  by_cases back : stepMs < 0
  · rw [SeparationProfile.extrapolate_back back]
    exact .error (by simp) (by simp)
  · exact .of_ok (SeparationProfile.exists_extrapolate inside (Int.not_lt.mp back) axis)

end Computations

theorem overlap_cases (p : TrackPair α ρ) :
    p.overlap (α := α) = .error .noOverlap ∨ ∃ span, p.overlap (α := α) = .ok span := by
  unfold overlap
  cases p.overlap? with
  | none => exact Or.inl rfl
  | some span => exact Or.inr ⟨span, rfl⟩

section Questions

variable [ExactScalar α] [Geodesy α] {p : TrackPair α ρ} {span : TimeSpan} {time : Int}
  (hfirst : p.first.Ordered) (hsecond : p.second.Ordered)
  (vfirst : ∀ r ∈ p.first.reports, r.Valid) (vsecond : ∀ r ∈ p.second.reports, r.Valid)

omit [ExactScalar α] [Geodesy α] in
theorem contains_overlap_iff (hoverlap : p.overlap (α := α) = .ok span) : span.contains time ↔
    p.first.span.contains time ∧ p.second.span.contains time := by
  obtain ⟨hstart, hstop⟩ := bounds_of_overlap hoverlap
  simp only [TimeSpan.contains_iff, hstart, hstop]
  omega

include hfirst hsecond vfirst vsecond

theorem instantAt_eq_error_iff (hoverlap : p.overlap = .ok span) {e : SeparationError α} :
    p.instantAt time = .error e ↔
      (¬span.contains time ∨ p.first.Gap time ∨ p.second.Gap time) ∧
        e = .outsideSpan time span.start span.stop := by
  have both : span.contains time ↔ _ := contains_overlap_iff hoverlap
  have first : p.first.at? time = none ↔ _ := Track.at?_eq_none_iff hfirst vfirst
  have second : p.second.at? time = none ↔ _ := Track.at?_eq_none_iff hsecond vsecond
  have unread : p.first.at? time = none ∨ p.second.at? time = none ↔
      ¬span.contains time ∨ p.first.Gap time ∨ p.second.Gap time := by
    rw [first, second, both, not_and_or]
    exact or_or_or_comm
  rcases instantAt_cases hoverlap time with ⟨r, q, hr, hq, known⟩ | ⟨none, failed⟩
  · rw [known, ← unread, hr, hq]
    simp
  · rw [failed, ← unread, and_iff_right none, Except.error.injEq]
    exact eq_comm

theorem instantAt_fails (hoverlap : p.overlap = .ok span) (inside : span.contains time) :
    p.FailsInGaps (p.instantAt time) := by
  intro e he
  obtain ⟨outside | gap, rfl⟩ :=
    (instantAt_eq_error_iff hfirst hsecond vfirst vsecond hoverlap).mp he
  · exact absurd inside outside
  · refine ⟨by simp, fun u start stop same => ?_⟩
    obtain ⟨rfl, rfl, rfl⟩ := (SeparationError.outsideSpan.injEq ..).mp same
    exact ⟨span, hoverlap, rfl, rfl, inside, gap⟩

theorem separationAt_fails (hoverlap : p.overlap = .ok span) (inside : span.contains time) :
    p.FailsInGaps (p.separationAt time) :=
  (instantAt_fails hfirst hsecond vfirst vsecond hoverlap inside).bind fun instant _ =>
    (altitudeDelta_fails instant).bind fun _ _ => .pure _

theorem profileOfStep_fails (stepMs : Int) : p.FailsInGaps (p.profileOfStep stepMs) := by
  unfold profileOfStep
  by_cases standing : stepMs ≤ 0
  · rw [if_pos standing]
    exact .error (by simp) (by simp)
  · rw [if_neg standing]
    refine FailsInGaps.bind ?_ fun samples _ => ofSamples_fails samples
    refine .mapM fun time htime => ?_
    unfold overlapSteps at htime
    cases hspan : p.overlap? with
    | none =>
      rw [hspan] at htime
      cases htime
    | some span =>
      rw [hspan] at htime
      have hoverlap : p.overlap = .ok span := by rw [overlap, hspan]
      have inside := TimeSpan.contains_iff.mpr (span.steps_within (Int.not_le.mp standing) htime)
      exact separationAt_fails hfirst hsecond vfirst vsecond hoverlap inside

theorem finelySampled_fails : p.FailsInGaps p.finelySampled := by
  refine overlap_fails.bind fun span hoverlap => ?_
  refine FailsInGaps.bind ?_ fun samples _ => ofSamples_fails samples
  intro e he
  have begun : p.Sampled span (min span.start span.stop) := by
    rw [Int.min_eq_left span.start_le_stop]
    exact .start
  obtain ⟨u, reached, failed⟩ := exists_sampled_of_error begun he
  exact separationAt_fails hfirst hsecond vfirst vsecond hoverlap
    (TimeSpan.contains_iff.mpr reached.inside) e failed

theorem profile_fails : p.FailsInGaps p.profile := by
  unfold profile
  cases p.fixedProfile with
  | none => exact finelySampled_fails hfirst hsecond vfirst vsecond
  | some profile => exact .pure profile

theorem everFurther_fails (nm : α) : p.FailsInGaps (p.everFurther nm) := by
  refine overlap_fails.bind fun span hoverlap => ?_
  have inside (u) (hu : u ∈ span.steps scanStepMs) :=
    TimeSpan.contains_iff.mpr (span.steps_within (show 0 < scanStepMs by decide) hu)
  generalize span.steps scanStepMs = times at inside
  induction times with
  | nil => exact .pure false
  | cons u times ih =>
    obtain ⟨here, later⟩ := List.forall_mem_cons.mp inside
    refine (instantAt_fails hfirst hsecond vfirst vsecond hoverlap here).bind fun instant _ => ?_
    split
    · exact .pure true
    · exact ih later

theorem forecast_fails (made : p.Made) (hoverlap : p.overlap = .ok span)
    (inside : span.contains time) : p.FailsInGaps (p.forecast time) := by
  refine (instantAt_fails hfirst hsecond vfirst vsecond hoverlap inside).bind fun instant _ => ?_
  refine (closestApproach_fails instant).bind fun closest _ => ?_
  refine (profile_fails hfirst hsecond vfirst vsecond).bind fun profile hprofile => ?_
  have spanned : p.overlap = .ok profile.span := made.overlap_of_profile hprofile
  obtain rfl := Except.ok.inj (hoverlap.symm.trans spanned)
  obtain ⟨rate, hrate⟩ := SeparationProfile.exists_closureAt_of_contains inside .vertical
  have vertical : ∃ fps, profile.verticalClosure time = .ok fps := ⟨_, bind_of_ok hrate rfl⟩
  obtain ⟨rate', hrate'⟩ := SeparationProfile.exists_closureAt_of_contains inside .horizontal
  have lateral : ∃ knots, profile.horizontalClosure time = .ok knots := ⟨_, bind_of_ok hrate' rfl⟩
  refine (extrapolate_fails inside .vertical _).bind fun _ _ => ?_
  refine (altitudeDelta_fails instant).bind fun _ _ => ?_
  exact (FailsInGaps.of_ok vertical).bind fun _ _ =>
    (FailsInGaps.of_ok lateral).bind fun _ _ => .pure _

/-- Where two tracks of valid reports are asked about an instant of a gap, they say that it is
outside their overlap. They say so of every instant that really is, and of no other. A series never
asks about an instant outside, so what it calls outside is always in a gap, and a forecast does
likewise if its own instant is inside. None of them says that reports are too far apart. -/
theorem gaps_are_said_to_be_outside (made : p.Made) :
    (∀ time e, p.instantAt time = .error e ↔
      p.overlap = .error .noOverlap ∧ e = .noOverlap ∨
      ∃ span, p.overlap = .ok span ∧
        (¬span.contains time ∨ p.first.Gap time ∨ p.second.Gap time) ∧
        e = .outsideSpan time span.start span.stop) ∧
    p.FailsInGaps p.profile ∧
    (∀ stepMs, p.FailsInGaps (p.profileOfStep stepMs)) ∧
    (∀ nm, p.FailsInGaps (p.everFurther nm)) ∧
    (∀ nm, p.FailsInGaps (p.comesWithin nm)) ∧
    (∀ nm ft, p.FailsInGaps (p.comesWithinBoth nm ft)) ∧
    ∀ span time, p.overlap = .ok span →
      (¬span.contains time → p.forecast time = .error (.outsideSpan time span.start span.stop)) ∧
      (span.contains time → p.FailsInGaps (p.forecast time)) := by
  have sampled := profile_fails hfirst hsecond vfirst vsecond
  refine ⟨fun time e => ?_, sampled, profileOfStep_fails hfirst hsecond vfirst vsecond,
    everFurther_fails hfirst hsecond vfirst vsecond, fun nm => ?_, fun nm ft => ?_,
    fun span time hoverlap => ⟨fun outside => ?_, fun inside => ?_⟩⟩
  · rcases overlap_cases p with failed | ⟨span, hoverlap⟩
    · have unread : p.instantAt time = .error .noOverlap := by
        rw [instantAt, failed]
        rfl
      rw [unread, Except.error.injEq, eq_comm]
      simp [failed]
    · rw [instantAt_eq_error_iff hfirst hsecond vfirst vsecond hoverlap]
      simp [hoverlap]
  · exact sampled.bind fun profile _ => .pure _
  · exact sampled.bind fun profile _ => .pure _
  · have failed := (instantAt_eq_error_iff hfirst hsecond vfirst vsecond hoverlap).mpr
      ⟨Or.inl outside, rfl⟩
    rw [forecast, failed]
    rfl
  · exact forecast_fails hfirst hsecond vfirst vsecond made hoverlap inside

end Questions

def eastbound : Track ℚ Unit :=
  ⟨[(0, 179, none), (10000, -179, none)].map Track.equatorAt, by simp⟩

def following : Track ℚ Unit :=
  ⟨[(0, 178, none), (10000, 178.5, none)].map Track.equatorAt, by simp⟩

theorem eastbound_gap : eastbound.Neighbours 5000 (Track.equatorAt (0, 179, none))
    (Track.equatorAt (10000, -179, none)) :=
  Track.neighbours_of_split (by decide) (List.nil_append _).symm (by simp) (by decide) (by decide)

/-- Half way across, an instant in the middle of the overlap is said to be outside it, and not that
the reports around it are too far apart. -/
theorem crossing_said_to_be_outside : eastbound.Ordered ∧ following.Ordered ∧
    (∀ r ∈ eastbound.reports, r.Valid) ∧ (∀ r ∈ following.reports, r.Valid) ∧
    (TrackPair.of eastbound following).overlapContains 5000 ∧
    (∃ p q, eastbound.Neighbours 5000 p q ∧ ¬p.Near q ∧
      p.blend q 5000 = .error (.tooFarApart 0 358)) ∧
    (TrackPair.of eastbound following).instantAt 5000 = .error (.outsideSpan 5000 0 10000) := by
  have first : eastbound.Ordered := by decide
  have second : following.Ordered := by decide
  have vfirst : ∀ r ∈ eastbound.reports, r.Valid := Track.equatorAt_valid (by decide +kernel)
  have vsecond : ∀ r ∈ following.reports, r.Valid := Track.equatorAt_valid (by decide +kernel)
  have far : ¬(Track.equatorAt (0, 179, none)).Near (Track.equatorAt (10000, -179, none)) := by
    intro near
    have := near.longitudes
    norm_num [Track.equatorAt] at this
  have refused : Report.blend _ _ 5000 = _ := Report.blend_of_not_near far (by decide) (by decide)
  have gap : eastbound.Gap 5000 := ⟨_, _, eastbound_gap, far⟩
  have overlap : (TrackPair.of eastbound following).overlap = .ok ⟨0, 10000, by decide⟩ := rfl
  refine ⟨first, second, vfirst, vsecond, by decide, ⟨_, _, eastbound_gap, far, ?_⟩, ?_⟩
  · rw [refused]
    norm_num [Track.equatorAt]
  · exact (instantAt_eq_error_iff first second vfirst vsecond overlap).mpr
      ⟨Or.inr (Or.inl gap), rfl⟩

/-- The series of the two stops in the gap. -/
theorem eastbound_series_fails_in_gap : ∃ e, (TrackPair.of eastbound following).profile = .error e ∧
    (TrackPair.of eastbound following).OnlyGaps e := by
  have questions :=
    gaps_are_said_to_be_outside (p := .of eastbound following) (by decide) (by decide)
    (Track.equatorAt_valid (by decide +kernel)) (Track.equatorAt_valid (by decide +kernel))
    (.of eastbound following)
  cases hprofile : (TrackPair.of eastbound following).profile with
  | error e => exact ⟨e, rfl, questions.2.1 e hprofile⟩
  | ok profile =>
    have failed : (TrackPair.of eastbound following).profile.isOk = false := by decide +kernel
    rw [hprofile] at failed
    cases failed

end TrackPair
end AirTraffic
