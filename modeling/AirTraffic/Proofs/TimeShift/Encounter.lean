import AirTraffic.Proofs.Cleaning.Guarantees
import AirTraffic.Proofs.TimeShift.Cleaning
import AirTraffic.Proofs.TimeShift.Pairing
import AirTraffic.Encounter.Summary

/-!
# Encounters at another time

The separation of two shifted tracks is read from the same geometry: every computation gives the
same values at the shifted times, and stops with the same error where it stops. An error that names
a time names the shifted one.
-/
namespace AirTraffic

variable {α ρ β γ δ ε : Type} (ms : Int)

def BlendError.shift : BlendError α → BlendError α
  | outOfOrder first second => outOfOrder (first + ms) (second + ms)
  | outsideSpan time start stop => outsideSpan (time + ms) (start + ms) (stop + ms)
  | tooFarApart latitudes longitudes => tooFarApart latitudes longitudes

def SeparationError.shift : SeparationError α → SeparationError α
  | missing time field => missing (time + ms) field
  | differentTimes first second => differentTimes (first + ms) (second + ms)
  | outsideSpan time start stop => outsideSpan (time + ms) (start + ms) (stop + ms)
  | blend cause => blend (cause.shift ms)
  | noOverlap => noOverlap
  | tooFewSamples count => tooFewSamples count
  | unequalLengths => unequalLengths
  | timesNotIncreasing => timesNotIncreasing
  | stepNotPositive step => stepNotPositive step
  | stepNegative step => stepNegative step

/-- The second computation stops where the first does, and otherwise gives its result moved by `g`.
-/
def Moves (g : β → γ) (x : Except (SeparationError α) β) (y : Except (SeparationError α) γ) :
    Prop :=
  y = (x.map g).mapError (SeparationError.shift ms)

namespace Moves

variable {ms} {g : β → γ} {k : δ → ε}

theorem ok (b : β) : Moves (α := α) ms g (.ok b) (.ok (g b)) := rfl

theorem same {x : Except (SeparationError α) β} (h : ∃ b, x = .ok b) : Moves ms id x x := by
  obtain ⟨b, rfl⟩ := h
  rfl

theorem bind {x : Except (SeparationError α) β} {y : Except (SeparationError α) γ}
    {f : β → Except (SeparationError α) δ} {f' : γ → Except (SeparationError α) ε}
    (hx : Moves ms g x y) (hf : ∀ b, Moves ms k (f b) (f' (g b))) :
    Moves ms k (x >>= f) (y >>= f') := by
  obtain rfl := hx
  cases x with
  | error e => rfl
  | ok b => exact hf b

end Moves

@[simps] def Instant.shift (p : Instant α ρ) : Instant α ρ := ⟨p.first.shift ms, p.second.shift ms⟩

namespace Instant

variable (r : Report α ρ) (p : Instant α ρ)

theorem required_moves (field : ReportField) (value : Option α) :
    Moves ms id (required r field value) (required (r.shift ms) field value) := by
  cases value <;> rfl

theorem altitude_moves : Moves ms id (altitude r) (altitude (r.shift ms)) :=
  required_moves ms r .altitude r.altitude

theorem speed_moves : Moves ms id (speed r) (speed (r.shift ms)) :=
  required_moves ms r .speed r.speed

theorem course_moves : Moves ms id (course r) (course (r.shift ms)) :=
  required_moves ms r .course r.course

@[simp] theorem lateral_shift [Geodesy α] : (p.shift ms).lateral = p.lateral := rfl

variable [Scalar α]

theorem velocity_moves : Moves ms id (velocity r) (velocity (r.shift ms)) :=
  (speed_moves ms r).bind fun _ => (course_moves ms r).bind fun _ => .ok _

theorem altitudeDelta_moves : Moves ms id p.altitudeDelta (p.shift ms).altitudeDelta :=
  (altitude_moves ms p.first).bind fun _ => (altitude_moves ms p.second).bind fun _ => .ok _

variable [Geodesy α]

@[simp] theorem offset_shift : (p.shift ms).offset = p.offset := rfl

theorem closestApproach_moves : Moves ms id p.closestApproach (p.shift ms).closestApproach := by
  unfold closestApproach
  simp only [shift_first, shift_second, Report.shift_time, ne_eq, Int.add_left_inj, lateral_shift,
    offset_shift]
  by_cases together : p.first.time = p.second.time
  · rw [if_neg (not_not.mpr together), if_neg (not_not.mpr together)]
    refine (velocity_moves ms p.second).bind fun v => (velocity_moves ms p.first).bind fun u => ?_
    refine .same ?_
    split <;> exact ⟨_, rfl⟩
  · rw [if_pos together, if_pos together]
    rfl

end Instant

@[simps time] def ReportDraft.shift (d : ReportDraft α ρ) : ReportDraft α ρ :=
  { d with time := d.time.map (· + ms) }

section Blend

variable [Scalar α]

theorem ReportDraft.build_shift (d : ReportDraft α ρ) :
    (d.shift ms).build = Report.shift ms <$> d.build := by
  have time : (required .time (d.shift ms).time : Except (ReportError α) Int) =
      (· + ms) <$> required .time d.time := by
    rw [shift_time]
    cases d.time <;> rfl
  simp only [build, time, map_bind, bind_map_left, map_pure]
  rfl

variable [Geodesy α] (p q : Report α ρ) (time : Int)

theorem Report.blendDraft_shift (fraction : α) :
    (p.shift ms).blendDraft (q.shift ms) (time + ms) fraction =
      (p.blendDraft q time fraction).shift ms := by
  unfold blendDraft
  by_cases nearFirst : fraction < Scalar.ofDecimal 5 1
  · simp only [nearFirst, if_true]
    rfl
  · simp only [nearFirst, if_false]
    rfl

theorem Report.blend_shift :
    (p.shift ms).blend (q.shift ms) (time + ms) =
      ((p.blend q time).map (shift ms)).mapError (BlendError.shift ms) := by
  unfold blend
  simp only [shift_time, shift_position, Int.add_lt_add_iff_right, Int.add_left_inj,
    Int.add_sub_add_right, blendDraft_shift, ReportDraft.build_shift]
  split
  · rfl
  split
  · rfl
  split
  · rfl
  split
  · rfl
  split
  · rfl
  · cases (p.blendDraft q time _).build <;> rfl

end Blend

theorem Track.at?_shift [Scalar α] [Geodesy α] (t : Track α ρ) (time : Int) :
    (t.shift ms).at? (time + ms) = (t.at? time).map (Report.shift ms) := by
  have earlier : (fun r : Report α ρ => decide (r.time < time + ms)) ∘ Report.shift ms =
      fun r => decide (r.time < time) := by
    funext r
    simp
  unfold at?
  simp only [span_shift, TimeSpan.contains_shift, shift_reports, List.takeWhile_map,
    List.dropWhile_map, earlier, List.getLast?_map]
  by_cases inside : t.span.contains time
  · simp only [inside, Bool.not_true, Bool.false_eq_true, if_false]
    cases t.reports.dropWhile (·.time < time) with
    | nil => rfl
    | cons after _ =>
      cases (t.reports.takeWhile (·.time < time)).getLast? with
      | none => rfl
      | some before =>
        simp only [Option.map_some, List.map_cons, Report.shift_time, Int.add_left_inj]
        split
        · rfl
        · rw [Report.blend_shift]
          cases before.blend after time <;> rfl
  · simp only [inside, Bool.not_false, if_true]
    rfl

@[simps] def Separation.shift (s : Separation α) : Separation α := { s with time := s.time + ms }

theorem timesIncrease_shift (samples : List (Separation α)) :
    timesIncrease (samples.map (Separation.shift ms)) ↔ timesIncrease samples := by
  simp [timesIncrease, List.pairwise_map]

namespace SeparationProfile

@[simps] def shift (p : SeparationProfile α) : SeparationProfile α where
  first := p.first.shift ms
  rest := p.rest.map (Separation.shift ms)
  rest_ne_nil := mt List.map_eq_nil_iff.mp p.rest_ne_nil
  increasing := (timesIncrease_shift ms (p.first :: p.rest)).mpr p.increasing

theorem ofSamples_moves (samples : List (Separation α)) :
    Moves ms (shift ms) (ofSamples samples) (ofSamples (samples.map (Separation.shift ms))) := by
  rcases samples with _ | ⟨first, _ | ⟨second, rest⟩⟩
  · rfl
  · rfl
  · have same := timesIncrease_shift ms (first :: second :: rest)
    simp only [List.map_cons, ofSamples] at same ⊢
    by_cases increase : timesIncrease (first :: second :: rest)
    · rw [dif_pos increase, dif_pos (same.mpr increase)]
      rfl
    · rw [dif_neg increase, dif_neg (mt same.mp increase)]
      rfl

variable (p : SeparationProfile α)

theorem last_shift : (p.shift ms).last = p.last.shift ms := List.getLast_map ..

theorem span_shift : (p.shift ms).span = p.span.shift ms := by
  rw [span, last_shift]
  exact TimeSpan.between_shift ..

theorem horizontal_shift : (p.shift ms).horizontal = p.horizontal.map (Prod.map (· + ms) id) := by
  simp [horizontal, samples, Function.comp_def]

theorem vertical_shift : (p.shift ms).vertical = p.vertical.map (Prod.map (· + ms) id) := by
  simp [vertical, samples, Function.comp_def]

theorem inSpan_moves (time : Int) (value : Option β) :
    Moves ms id (p.inSpan time value) ((p.shift ms).inSpan (time + ms) value) := by
  cases value with
  | none =>
    rw [inSpan, inSpan, span_shift]
    rfl
  | some v => rfl

variable [Scalar α]

theorem valueAt_moves (line : Polyline α) (time : Int) :
    Moves ms id (p.valueAt line time)
      ((p.shift ms).valueAt (line.map (Prod.map (· + ms) id)) (time + ms)) := by
  rw [valueAt, valueAt, Polyline.value?_shift]
  exact inSpan_moves ms p time _

theorem closureAt_moves (line : Polyline α) (time : Int) :
    Moves ms id (p.closureAt line time)
      ((p.shift ms).closureAt (line.map (Prod.map (· + ms) id)) (time + ms)) := by
  rw [closureAt, closureAt, Polyline.descent?_shift]
  exact inSpan_moves ms p time _

theorem extrapolate_moves (line : Polyline α) (time stepMs : Int) :
    Moves ms id (p.extrapolate line time stepMs)
      ((p.shift ms).extrapolate (line.map (Prod.map (· + ms) id)) (time + ms) stepMs) := by
  unfold extrapolate
  split
  · rfl
  · exact (closureAt_moves ms p line time).bind fun _ =>
      (valueAt_moves ms p line time).bind fun _ => .ok _

theorem verticalAt_moves (time : Int) :
    Moves ms id (p.verticalAt time) ((p.shift ms).verticalAt (time + ms)) := by
  rw [verticalAt, verticalAt, vertical_shift]
  exact valueAt_moves ms p _ time

theorem verticalAfter_moves (time stepMs : Int) :
    Moves ms id (p.verticalAfter time stepMs) ((p.shift ms).verticalAfter (time + ms) stepMs) := by
  rw [verticalAfter, verticalAfter, vertical_shift]
  exact extrapolate_moves ms p _ time stepMs

theorem verticalClosure_moves (time : Int) :
    Moves ms id (p.verticalClosure time) ((p.shift ms).verticalClosure (time + ms)) := by
  rw [verticalClosure, verticalClosure, vertical_shift]
  exact (closureAt_moves ms p _ time).bind fun _ => .ok _

theorem horizontalClosure_moves (time : Int) :
    Moves ms id (p.horizontalClosure time) ((p.shift ms).horizontalClosure (time + ms)) := by
  rw [horizontalClosure, horizontalClosure, horizontal_shift]
  exact (closureAt_moves ms p _ time).bind fun _ => .ok _

theorem closest_shift : (p.shift ms).closest = p.closest.shift ms := by
  simp only [closest, shift_first, shift_rest, List.foldl_map]
  refine List.foldl_hom (Separation.shift ms) fun best s => ?_
  rw [apply_ite (Separation.shift ms)]
  rfl

end SeparationProfile

def Forecast.shift (f : Forecast α) : Forecast α := { f with time := f.time + ms }

def Encounter.shift (e : Encounter α) : Encounter α :=
  { e with
    overlap := e.overlap.shift ms
    closest := e.closest.shift ms
    forecast := e.forecast.shift ms }

namespace TrackPair

@[simps] def shift (p : TrackPair α ρ) : TrackPair α ρ where
  first := p.first.shift ms
  second := p.second.shift ms
  fixedProfile := p.fixedProfile.map (SeparationProfile.shift ms)

variable (p : TrackPair α ρ)

theorem overlap_moves : Moves ms (TimeSpan.shift ms) p.overlap (p.shift ms).overlap := by
  have same : (p.shift ms).overlap? = p.overlap?.map (TimeSpan.shift ms) := by
    simp only [overlap?, shift_first, shift_second, Track.span_shift, TimeSpan.overlap?_shift]
  rw [overlap, overlap, same]
  cases p.overlap? <;> rfl

variable [Scalar α] [Geodesy α]

theorem instantAt_moves (time : Int) :
    Moves ms (Instant.shift ms) (p.instantAt time) ((p.shift ms).instantAt (time + ms)) := by
  refine (overlap_moves ms p).bind fun overlap => ?_
  simp only [shift_first, shift_second, Track.at?_shift]
  cases p.first.at? time with
  | none => rfl
  | some r => cases p.second.at? time <;> rfl

theorem separationAt_moves (time : Int) :
    Moves ms (Separation.shift ms) (p.separationAt time) ((p.shift ms).separationAt (time + ms)) :=
  (instantAt_moves ms p time).bind fun instant =>
    (instant.altitudeDelta_moves ms).bind fun _ => .ok _

theorem sampleFrom_moves (stop time : Int) :
    Moves ms (List.map (Separation.shift ms)) (p.sampleFrom stop time)
      ((p.shift ms).sampleFrom (stop + ms) (time + ms)) := by
  fun_induction sampleFrom p stop time with
  | case1 time before ih =>
    rw [sampleFrom, if_pos (Int.add_lt_add_right before ms)]
    refine (separationAt_moves ms p time).bind fun sample => Moves.bind ?_ fun _ => .ok _
    have later := ih sample
    rwa [Int.add_right_comm] at later
  | case2 time after =>
    rw [sampleFrom, if_neg (mt (Int.add_lt_add_iff_right ms).mp after)]
    exact (separationAt_moves ms p stop).bind fun _ => .ok _

theorem profile_moves : Moves ms (SeparationProfile.shift ms) p.profile (p.shift ms).profile := by
  unfold profile
  rw [shift_fixedProfile]
  cases p.fixedProfile with
  | none =>
    refine (overlap_moves ms p).bind fun overlap => ?_
    refine (sampleFrom_moves ms p overlap.stop overlap.start).bind fun samples => ?_
    exact SeparationProfile.ofSamples_moves ms samples
  | some profile => rfl

theorem forecast_moves (time : Int) :
    Moves ms (Forecast.shift ms) (p.forecast time) ((p.shift ms).forecast (time + ms)) := by
  refine (instantAt_moves ms p time).bind fun instant => ?_
  refine (instant.closestApproach_moves ms).bind fun closest => ?_
  refine (profile_moves ms p).bind fun profile => ?_
  refine (profile.verticalAfter_moves ms time closest.untilMs).bind fun verticalAtClosest => ?_
  refine (instant.altitudeDelta_moves ms).bind fun vertical => ?_
  refine (profile.verticalClosure_moves ms time).bind fun verticalClosure => ?_
  refine (profile.horizontalClosure_moves ms time).bind fun lateralClosure => ?_
  exact .ok _

theorem encounter_moves : Moves ms (Encounter.shift ms) p.encounter (p.shift ms).encounter := by
  refine (overlap_moves ms p).bind fun overlap => ?_
  refine (profile_moves ms p).bind fun profile => ?_
  simp only [SeparationProfile.closest_shift, shift_first, shift_second, Track.id?_shift]
  refine (profile.verticalAt_moves ms profile.closest.time).bind fun vertical => ?_
  refine (forecast_moves ms p overlap.start).bind fun forecast => ?_
  exact .ok _

end TrackPair

section Program

variable [Scalar α] [Geodesy α] [TableInverse α]

theorem time_shift_equivariance :
    (∀ (step : WorkStep α) (reports : List (Report α ρ)),
      step.apply (reports.map (Report.shift ms)) =
        (step.apply reports).map (List.map (Report.shift ms))) ∧
    (∀ step : TrackStep α ρ, step.AsksPayload → ∀ track : Track α ρ,
      step.apply (track.shift ms) = (step.apply track).map (Track.shift ms)) ∧
    (∀ flagged : ρ → Bool,
      ∀ plan ∈
        [CleaningPlan.core (flagged ·.payload), CleaningPlan.outageAware (flagged ·.payload)],
      ∀ track : Track α ρ, plan.run (track.shift ms) = (plan.run track).map (Track.shift ms)) ∧
    (∀ (order : RebuildOrder (Entry (Report α ρ))) (tracks : List (Track α ρ))
      (criteria : PairingCriteria α),
      Association.WindowFits criteria.windowMs (tracks.flatMap (·.reports)) →
      Association.WindowFits criteria.windowMs
        ((tracks.map (Track.shift ms)).flatMap (·.reports)) →
      Association.candidates (order.shift ms) (tracks.map (Track.shift ms)) criteria =
        Association.candidates order tracks criteria) ∧
    ∀ pair : TrackPair α ρ, (pair.shift ms).encounter =
      (pair.encounter.map (Encounter.shift ms)).mapError (SeparationError.shift ms) := by
  refine ⟨fun step reports => step.apply_shift ms reports,
    fun step hstep track => TrackStep.apply_shift ms hstep track, ?_,
    fun order tracks criteria fits shifted =>
      Association.candidates_shift ms order fits shifted,
    fun pair => pair.encounter_moves ms⟩
  intro flagged plan hplan track
  obtain ⟨work, rfl⟩ : ∃ work, plan = CleaningPlan.withWork (flagged ·.payload) work := by
    rcases List.mem_pair.mp hplan with rfl | rfl
    · exact ⟨_, rfl⟩
    · exact ⟨_, rfl⟩
  exact CleaningPlan.run_shift ms (CleaningPlan.withWork_asksPayload flagged work) track

end Program

/-- The nine climbing reports, and three tracks to associate, in milliseconds of the epoch. -/
theorem nineClimbing_in_epoch :
    (TrackStep.dropCoasted (·.payload) : TrackStep ℚ Bool).AsksPayload ∧
    (TrackStep.dropCoasted (·.payload)).apply (nineClimbing.shift 1700000000000) =
      ((TrackStep.dropCoasted (·.payload)).apply nineClimbing).map (Track.shift 1700000000000) ∧
    (∃ cleaned, (CleaningPlan.core (·.payload)).run (nineClimbing.shift 1700000000000) =
        some cleaned ∧
      Report.times cleaned.reports =
        (Report.times nineClimbing.reports).map (· + 1700000000000)) ∧
    Association.candidates (RebuildOrder.arrival.shift 1700000000000)
        (Association.threeTracks.map (Track.shift 1700000000000)) .standard =
      Association.candidates .arrival Association.threeTracks .standard := by
  have asks : (TrackStep.dropCoasted (·.payload) : TrackStep ℚ Bool).AsksPayload := ⟨id, rfl⟩
  obtain ⟨-, steps, plans, -⟩ := time_shift_equivariance (α := ℚ) (ρ := Bool) 1700000000000
  obtain ⟨-, -, -, association, -⟩ := time_shift_equivariance (α := ℚ) (ρ := Unit) 1700000000000
  obtain ⟨cleaned, hrun, htimes⟩ := nineClimbing_run
  refine ⟨asks, steps _ asks nineClimbing, ⟨cleaned.shift 1700000000000, ?_, ?_⟩,
    association .arrival Association.threeTracks .standard ?_ ?_⟩
  · exact (plans id _ List.mem_cons_self nineClimbing).trans (congrArg (Option.map _) hrun)
  · rw [Track.shift_reports, Report.times_shift, htimes]
  · unfold Association.WindowFits WindowBefore WindowAfter
    decide +kernel
  · unfold Association.WindowFits WindowBefore WindowAfter
    decide +kernel

end AirTraffic
