import AirTraffic.Proofs.Encounter.Closest
import AirTraffic.Proofs.Encounter.Sampling
import AirTraffic.Proofs.Polyline
import AirTraffic.Encounter.Summary

/-!
# Encounters of complete tracks

Two complete tracks that share some time always have an encounter. What it records of the least
separation, the present and the closest point of approach fits together, though it is read off
samples, off the tracks themselves and off their motion.
-/
namespace AirTraffic

open Scalar

variable {α ρ : Type}

namespace SeparationProfile

theorem increase (profile : SeparationProfile α) (value : Separation α → α) :
    (profile.samples.map fun s => (s.time, value s)).Pairwise (·.1 < ·.1) :=
  List.pairwise_map.mpr profile.increasing

section Read

variable [Scalar α] (profile : SeparationProfile α)

theorem valueAt_sample (value : Separation α → α) {s : Separation α} (hs : s ∈ profile.samples) :
    profile.valueAt (profile.samples.map fun s => (s.time, value s)) s.time = .ok (value s) := by
  have read := Polyline.value?_of_mem (profile.increase value) (List.mem_map_of_mem hs)
  rw [valueAt, read]
  rfl

theorem exists_closureAt (value : Separation α → α) : ∃ rate,
    profile.closureAt (profile.samples.map fun s => (s.time, value s)) profile.first.time =
      .ok rate := by
  obtain ⟨next, rest, hrest⟩ := List.exists_cons_of_ne_nil profile.rest_ne_nil
  have increase := profile.increase value
  rw [samples, hrest, List.map_cons, List.map_cons] at increase ⊢
  have first : profile.first.time < next.time :=
    (List.pairwise_cons.mp increase).1 _ List.mem_cons_self
  exact ⟨_, congrArg (profile.inSpan profile.first.time) (Polyline.descent?_head _ first)⟩

end Read

section Least

variable [ExactScalar α]

/-- A scan that changes only for something nearer keeps the first of the nearest. -/
theorem foldl_first_least {pick : Separation α → Separation α → Separation α}
    (nearer : ∀ best s, pick best s = s ∧ s.horizontalNm < best.horizontalNm ∨
      pick best s = best ∧ best.horizontalNm ≤ s.horizontalNm)
    (best : Separation α) (rest : List (Separation α)) :
    ∃ earlier later, best :: rest = earlier ++ rest.foldl pick best :: later ∧
      (∀ s ∈ earlier, (rest.foldl pick best).horizontalNm < s.horizontalNm) ∧
      ∀ s ∈ later, (rest.foldl pick best).horizontalNm ≤ s.horizontalNm := by
  induction rest generalizing best with
  | nil => exact ⟨[], [], rfl, List.forall_mem_nil _, List.forall_mem_nil _⟩
  | cons s rest ih =>
    obtain ⟨earlier, later, split, before, after⟩ := ih (pick best s)
    rw [List.foldl_cons]
    rcases nearer best s with ⟨picked, closer⟩ | ⟨picked, further⟩
    · rw [picked] at split before after ⊢
      have beyond : (rest.foldl pick s).horizontalNm < best.horizontalNm := by
        cases earlier with
        | nil =>
          rw [← (List.cons.inj split).1]
          exact closer
        | cons first earlier =>
          obtain rfl := (List.cons.inj split).1
          exact (before s List.mem_cons_self).trans closer
      exact ⟨best :: earlier, later, congrArg (best :: ·) split,
        List.forall_mem_cons.mpr ⟨beyond, before⟩, after⟩
    · rw [picked] at split before after ⊢
      cases earlier with
      | nil =>
        obtain ⟨found, rfl⟩ := List.cons.inj split
        refine ⟨[], s :: rest, by rw [← found]; rfl, List.forall_mem_nil _, ?_⟩
        exact List.forall_mem_cons.mpr ⟨by rw [← found]; exact further, after⟩
      | cons first earlier =>
        obtain ⟨rfl, tail⟩ := List.cons.inj split
        obtain ⟨below, others⟩ := List.forall_mem_cons.mp before
        refine ⟨best :: s :: earlier, later,
          congrArg (fun rest => best :: s :: rest) tail, ?_, after⟩
        exact List.forall_mem_cons.mpr
          ⟨below, List.forall_mem_cons.mpr ⟨below.trans_le further, others⟩⟩

theorem closest_split (profile : SeparationProfile α) :
    ∃ earlier later, profile.samples = earlier ++ profile.closest :: later ∧
      (∀ s ∈ earlier, profile.closest.horizontalNm < s.horizontalNm) ∧
      ∀ s ∈ later, profile.closest.horizontalNm ≤ s.horizontalNm := by
  unfold closest samples
  refine foldl_first_least ?_ profile.first profile.rest
  intro best s
  split
  case isTrue nearer => exact Or.inl ⟨rfl, nearer⟩
  case isFalse notNearer => exact Or.inr ⟨rfl, not_lt.mp notNearer⟩

theorem closest_spec (profile : SeparationProfile α) : profile.closest ∈ profile.samples ∧
    ∀ s ∈ profile.samples, profile.closest.horizontalNm ≤ s.horizontalNm := by
  obtain ⟨earlier, later, split, before, after⟩ := profile.closest_split
  rw [split]
  refine ⟨List.mem_append_right _ List.mem_cons_self, List.forall_mem_append.mpr ⟨?_, ?_⟩⟩
  · exact fun s hs => (before s hs).le
  · exact List.forall_mem_cons.mpr ⟨le_rfl, after⟩

end Least

end SeparationProfile

/-- Read off the two tracks themselves. -/
def Separation.ReadOff [Scalar α] [Geodesy α] (first second : Track α ρ) (s : Separation α) :
    Prop :=
  ∃ r q a b, first.at? s.time = some r ∧ second.at? s.time = some q ∧ r.altitude = some a ∧
    q.altitude = some b ∧ s.horizontalNm = r.distanceTo q ∧ s.verticalFt = Scalar.abs (a - b)

namespace TrackPair

variable {first second : Track α ρ}

theorem exists_overlap (shared : max first.span.start second.span.start <
    min first.span.stop second.span.stop) :
    ∃ span, (TrackPair.of first second).overlap = .ok span := by
  have overlap : (TrackPair.of first second).overlap? =
      some ⟨_, _, Int.le_of_lt shared⟩ := dif_pos (Int.le_of_lt shared)
  refine ⟨⟨_, _, Int.le_of_lt shared⟩, ?_⟩
  rw [TrackPair.overlap, overlap]

section Known

variable [ExactScalar α] [Geodesy α] (hfirst : first.Complete) (hsecond : second.Complete)
  {span : TimeSpan} (hoverlap : (TrackPair.of first second).overlap = .ok span)

include hfirst hsecond hoverlap

theorem exists_instantAt {time : Int} (after : span.start ≤ time) (before : time ≤ span.stop) :
    ∃ r q, (TrackPair.of first second).instantAt time = .ok ⟨r, q⟩ ∧
      (first.at? time = some r ∧ r.time = time ∧ r.Complete) ∧
      second.at? time = some q ∧ q.time = time ∧ q.Complete := by
  obtain ⟨hstart, hstop⟩ := bounds_of_overlap hoverlap
  simp only [TrackPair.of] at hstart hstop
  have inFirst : first.span.contains time := by
    simp [TimeSpan.contains]
    omega
  have inSecond : second.span.contains time := by
    simp [TimeSpan.contains]
    omega
  obtain ⟨r, hr, known⟩ := hfirst.exists_at inFirst
  obtain ⟨q, hq, known'⟩ := hsecond.exists_at inSecond
  refine ⟨r, q, bind_of_ok hoverlap ?_, ⟨hr, known⟩, hq, known'⟩
  simp only [TrackPair.of, hr, hq]
  rfl

theorem exists_separationAt {time : Int} (after : span.start ≤ time) (before : time ≤ span.stop) :
    ∃ s, (TrackPair.of first second).separationAt time = .ok s ∧ s.ReadOff first second := by
  obtain ⟨r, q, hinstant, ⟨hr, -, known⟩, hq, -, known'⟩ :=
    exists_instantAt hfirst hsecond hoverlap after before
  obtain ⟨a, b, ha, hb, hdelta⟩ := Instant.exists_altitudeDelta (p := ⟨r, q⟩) known known'
  exact ⟨⟨time, r.distanceTo q, Scalar.abs (a - b)⟩, bind_of_ok hinstant (bind_of_ok hdelta rfl),
    r, q, a, b, hr, hq, ha, hb, rfl, rfl⟩

theorem exists_profile (long : span.start < span.stop) : ∃ profile,
    (TrackPair.of first second).profile = .ok profile ∧
      (TrackPair.of first second).Samples span profile := by
  refine exists_finelySampled hoverlap long fun time after before => ?_
  obtain ⟨s, hs, -⟩ := exists_separationAt hfirst hsecond hoverlap after before
  exact ⟨s, hs⟩

end Known

end TrackPair

/-- What an encounter says of least separation, present and closest point of approach fits together
and fits the tracks. -/
structure Encounter.Consistent [Scalar α] [Geodesy α] (first second : Track α ρ) (e : Encounter α) :
    Prop where
  start : e.overlap.start = max first.span.start second.span.start
  stop : e.overlap.stop = min first.span.stop second.span.stop
  closest_inside : e.overlap.start ≤ e.closest.time ∧ e.closest.time ≤ e.overlap.stop
  closest_read : e.closest.ReadOff first second
  closest_le : e.closest.horizontalNm ≤ e.forecast.lateralNm
  approach_le : e.forecast.closest.distanceNm ≤ e.forecast.lateralNm
  approach_later : 0 ≤ e.forecast.closest.untilMs

namespace TrackPair

variable {first second : Track ℝ ρ} (hfirst : first.Complete) (hsecond : second.Complete)

include hfirst hsecond

theorem exists_forecast {span : TimeSpan}
    (hoverlap : (TrackPair.of first second).overlap = .ok span)
    {profile : SeparationProfile ℝ} (hprofile : (TrackPair.of first second).profile = .ok profile)
    (samples : (TrackPair.of first second).Samples span profile) :
    ∃ f, (TrackPair.of first second).forecast span.start = .ok f ∧
      f.lateralNm = profile.first.horizontalNm ∧ f.closest.distanceNm ≤ f.lateralNm ∧
      0 ≤ f.closest.untilMs := by
  obtain ⟨r, q, hinstant, ⟨-, hr, known⟩, -, hq, known'⟩ :=
    exists_instantAt hfirst hsecond hoverlap (Int.le_refl _) span.start_le_stop
  let instant : Instant ℝ ρ := ⟨r, q⟩
  obtain ⟨a, b, -, -, hdelta⟩ := Instant.exists_altitudeDelta (p := instant) known known'
  obtain ⟨closest, hclosest, later, nearer⟩ :=
    Instant.exists_closestApproach (p := instant) known known' (hr.trans hq.symm)
  have present : profile.first.horizontalNm = instant.lateral := by
    have hseparation := samples.known profile.first List.mem_cons_self
    rw [samples.first] at hseparation
    obtain ⟨other, hother, h⟩ := exists_of_bind hseparation
    obtain ⟨vertical, -, h⟩ := exists_of_bind h
    obtain rfl : other = instant := Except.ok.inj (hother.symm.trans hinstant)
    exact (congrArg Separation.horizontalNm (Except.ok.inj h)).symm
  obtain ⟨verticalRate, hvertical⟩ := profile.exists_closureAt (·.verticalFt)
  obtain ⟨lateralRate, hlateral⟩ := profile.exists_closureAt (·.horizontalNm)
  have value := profile.valueAt_sample (·.verticalFt) (s := profile.first) List.mem_cons_self
  rw [samples.first] at hvertical hlateral value
  let verticalFt := Scalar.abs
    (profile.first.verticalFt - verticalRate * ofInt closest.untilMs)
  have after : profile.verticalAfter span.start closest.untilMs = .ok verticalFt := by
    unfold SeparationProfile.verticalAfter SeparationProfile.extrapolate
    rw [if_neg (Int.not_lt.mpr later)]
    exact bind_of_ok hvertical (bind_of_ok value rfl)
  refine ⟨⟨span.start, closest, verticalFt, instant.lateral, Scalar.abs (a - b),
    verticalRate * Units.msPerSecond, lateralRate * Units.msPerHour⟩, ?_, present.symm,
    nearer, later⟩
  refine bind_of_ok hinstant ?_
  refine bind_of_ok hclosest ?_
  refine bind_of_ok hprofile ?_
  refine bind_of_ok after ?_
  refine bind_of_ok hdelta ?_
  refine bind_of_ok (bind_of_ok hvertical rfl) ?_
  exact bind_of_ok (bind_of_ok hlateral rfl) rfl

/-- No question about a complete pair is refused. -/
theorem complete_pair_has_consistent_encounter (shared : max first.span.start second.span.start <
    min first.span.stop second.span.stop) :
    ∃ e, (TrackPair.of first second).encounter = .ok e ∧ e.Consistent first second := by
  obtain ⟨span, hoverlap⟩ := exists_overlap shared
  obtain ⟨hstart, hstop⟩ := bounds_of_overlap hoverlap
  simp only [TrackPair.of] at hstart hstop
  obtain ⟨profile, hprofile, samples⟩ := exists_profile hfirst hsecond hoverlap (by omega)
  obtain ⟨forecast, hforecast, present, nearer, later⟩ :=
    exists_forecast hfirst hsecond hoverlap hprofile samples
  obtain ⟨sampled, least⟩ := profile.closest_spec
  have inside := samples.inside _ sampled
  have value := profile.valueAt_sample (·.verticalFt) sampled
  have read : profile.closest.ReadOff first second := by
    obtain ⟨s, hs, read⟩ := exists_separationAt hfirst hsecond hoverlap inside.1 inside.2
    rwa [Except.ok.inj ((samples.known _ sampled).symm.trans hs)]
  refine ⟨⟨first.id?, second.id?, span, profile.closest, forecast⟩, ?_, ?_⟩
  · refine bind_of_ok hoverlap ?_
    refine bind_of_ok hprofile ?_
    refine bind_of_ok value ?_
    exact bind_of_ok hforecast rfl
  · refine ⟨hstart, hstop, inside, read, ?_, nearer, later⟩
    exact present ▸ least profile.first List.mem_cons_self

end TrackPair

def passingAt (course : ℝ) (p : Int × ℝ) : Report ℝ Unit where
  time := p.1
  position := ⟨p.2, -75⟩
  altitude := some 5000
  speed := some 300
  course := some course
  curvature := none
  alongTrackDistance := none
  trackId := none
  payload := ()

def northbound : Track ℝ Unit := ⟨[(0, 40), (60000, 41)].map (passingAt 0), by simp⟩

def southbound : Track ℝ Unit := ⟨[(30000, 41), (90000, 40)].map (passingAt 180), by simp⟩

theorem passingAt_valid {course : ℝ} {p : Int × ℝ} (hcourse : 0 ≤ course ∧ course < 360)
    (hlatitude : -90 ≤ p.2 ∧ p.2 ≤ 90) : (passingAt course p).Valid where
  toNearlyValid := by
    refine .of_angles (by norm_num [passingAt]) fun c hc => ?_
    obtain rfl := Option.some.inj hc
    exact hcourse
  latitude := by simpa [passingAt] using hlatitude

theorem passing_complete {course : ℝ} {p q : Int × ℝ} (hcourse : 0 ≤ course ∧ course < 360)
    (htimes : p.1 ≤ q.1) (hp : 40 ≤ p.2 ∧ p.2 ≤ 41) (hq : 40 ≤ q.2 ∧ q.2 ≤ 41) :
    Track.Complete ⟨[p, q].map (passingAt course), by simp⟩ where
  ordered := List.pairwise_pair.mpr htimes
  valid := by
    refine List.forall_mem_map.mpr (List.forall_mem_cons.mpr ⟨?_, List.forall_mem_singleton.mpr ?_⟩)
    · exact passingAt_valid hcourse ⟨by linarith, by linarith⟩
    · exact passingAt_valid hcourse ⟨by linarith, by linarith⟩
  complete := List.forall_mem_map.mpr fun p _ => ⟨rfl, rfl, rfl⟩
  near := by
    have apart : |q.2 - p.2| ≤ 90 := abs_le.mpr ⟨by linarith, by linarith⟩
    exact List.isChain_pair.mpr ⟨by simpa [passingAt] using apart, by simp [passingAt]⟩

theorem passing_encounter : ∃ e, (TrackPair.of northbound southbound).encounter = .ok e ∧
    e.Consistent northbound southbound :=
  TrackPair.complete_pair_has_consistent_encounter
    (passing_complete (by norm_num) (by norm_num) (by norm_num) (by norm_num))
    (passing_complete (by norm_num) (by norm_num) (by norm_num) (by norm_num)) (by decide)

end AirTraffic
