import AirTraffic.Proofs.Encounter.Coverage
import AirTraffic.Proofs.TimeSpan

/-!
# The least separation

Between two samples a line stays above the lower of the two. The closest sample is therefore the
least horizontal separation of the whole span, and it is not reached sooner. So the samples alone
decide how close two tracks come.
-/
namespace AirTraffic

open Scalar

variable {α ρ : Type}

namespace SeparationProfile

variable [ExactScalar α] {p : SeparationProfile α} {s : Separation α} {t : Int}

theorem closest_lt_of_earlier (hs : s ∈ p.samples) (earlier : s.time < p.closest.time) :
    p.closest.horizontalNm < s.horizontalNm := by
  obtain ⟨init, rest, split, before, -⟩ := p.closest_split
  have increase : timesIncrease p.samples := p.increasing
  rw [split] at hs increase
  rcases List.mem_append.mp hs with hs | hs
  · exact before s hs
  · have later : p.closest.time ≤ s.time := by
      rcases List.mem_cons.mp hs with rfl | hs
      · exact Int.le_refl _
      · have rest := (List.pairwise_append.mp increase).2.1
        exact Int.le_of_lt ((List.pairwise_cons.mp rest).1 s hs)
    exact absurd earlier (Int.not_lt.mpr later)

theorem horizontalAt_closest (p : SeparationProfile α) :
    p.horizontalAt p.closest.time = .ok p.closest.horizontalNm :=
  p.valueAt_sample (·.horizontalNm) p.closest_spec.1

theorem exists_horizontalAt (inside : p.span.contains t) :
    ∃ nm, p.horizontalAt t = .ok nm ∧ p.closest.horizontalNm ≤ nm ∧
      (t < p.closest.time → p.closest.horizontalNm < nm) := by
  obtain ⟨earlier, s, q, later, cut, after, before, ending⟩ := exists_segment inside
  obtain ⟨sampled, least⟩ := p.closest_spec
  have hs := start_mem cut
  have hq := stop_mem cut
  have step := neighbours_lt cut
  refine ⟨_, valueAt_between cut after before .horizontal, ?_, fun sooner => ?_⟩
  · exact Polyline.le_between step after before (least s hs) (least q hq)
  · have open_end : t < q.time := by
      rcases ending with early | ended
      · exact early
      · have last := p.getLast?_samples
        rw [cut, ended] at last
        have hlast : q = p.last := by simpa using last
        have := (contains_iff.mp (contains_of_mem sampled)).2
        rw [← hlast] at this
        omega
    exact Polyline.lt_between step after open_end
      (closest_lt_of_earlier hs (Int.lt_of_le_of_lt after sooner)) (least q hq)

theorem any_within_iff (nm : α) :
    (p.samples.any fun s => s.horizontalNm ≤ nm) = true ↔ p.closest.horizontalNm ≤ nm := by
  obtain ⟨sampled, least⟩ := p.closest_spec
  rw [List.any_eq_true]
  constructor
  · rintro ⟨s, hs, within⟩
    exact (least s hs).trans (of_decide_eq_true within)
  · intro within
    exact ⟨p.closest, sampled, decide_eq_true within⟩

theorem exists_within_iff (nm : α) : (∃ t, p.span.contains t ∧
    ∃ h, p.horizontalAt t = .ok h ∧ h ≤ nm) ↔ p.closest.horizontalNm ≤ nm := by
  constructor
  · rintro ⟨t, inside, h, read, within⟩
    obtain ⟨h', read', least, -⟩ := exists_horizontalAt inside
    obtain rfl : h = h' := Except.ok.inj (read.symm.trans read')
    exact least.trans within
  · intro within
    exact ⟨p.closest.time, contains_of_mem p.closest_spec.1, _, p.horizontalAt_closest, within⟩

end SeparationProfile

namespace TrackPair

theorem overlap_of_ends {p : TrackPair α ρ} {span : TimeSpan} {profile : SeparationProfile α}
    (hoverlap : p.overlap = .ok span) (first : profile.first.time = span.start)
    (last : profile.last.time = span.stop) : p.overlap = .ok profile.span := by
  obtain ⟨start, stop, le⟩ := span
  have hstart := profile.span_start.trans first
  have hstop := profile.span_stop.trans last
  rw [hoverlap, Except.ok.injEq, TimeSpan.mk.injEq]
  exact ⟨hstart.symm, hstop.symm⟩

variable [Scalar α] [Geodesy α] {p : TrackPair α ρ} {profile : SeparationProfile α}

/-- A pair is made of two tracks, and may then be given samples at even steps. -/
inductive Made : TrackPair α ρ → Prop where
  | of (first second : Track α ρ) : Made (.of first second)
  | withStep {p q : TrackPair α ρ} {stepMs : Int} (made : Made p)
      (stepped : p.withStep stepMs = .ok q) : Made q

theorem times_of_mapM {times : List Int} {samples : List (Separation α)}
    (h : times.mapM p.separationAt = .ok samples) : samples.map (·.time) = times := by
  induction times generalizing samples with
  | nil =>
    obtain rfl := Except.ok.inj h
    rfl
  | cons time times ih =>
    rw [List.mapM_cons] at h
    obtain ⟨s, hs, h⟩ := exists_of_bind h
    obtain ⟨rest, hrest, h⟩ := exists_of_bind h
    obtain rfl := Except.ok.inj h
    rw [List.map_cons, time_of_separationAt hs, ih hrest]

theorem overlap_of_profileOfStep {stepMs : Int} (h : p.profileOfStep stepMs = .ok profile) :
    p.overlap = .ok profile.span := by
  unfold profileOfStep at h
  by_cases standing : stepMs ≤ 0
  · rw [if_pos standing] at h
    cases h
  · rw [if_neg standing] at h
    obtain ⟨samples, hsamples, h⟩ := exists_of_bind h
    obtain rfl := SeparationProfile.samples_of_ofSamples h
    have times := times_of_mapM hsamples
    unfold overlapSteps at times
    cases hoverlap : p.overlap? with
    | none =>
      rw [hoverlap] at times
      exact absurd times (List.cons_ne_nil _ _)
    | some span =>
      rw [hoverlap] at times
      have forward := Int.not_le.mp standing
      have first := (congrArg List.head? times).trans (span.head?_steps forward)
      have last := (congrArg List.getLast? times).trans (span.getLast?_steps forward)
      rw [List.getLast?_map, SeparationProfile.getLast?_samples] at last
      have overlap : p.overlap = .ok span := by rw [TrackPair.overlap, hoverlap]
      exact overlap_of_ends overlap (Option.some.inj first) (Option.some.inj last)

theorem overlap_of_finelySampled (h : p.finelySampled = .ok profile) :
    p.overlap = .ok profile.span := by
  obtain ⟨span, hoverlap, -⟩ := exists_of_bind h
  have covered := covered_of_finelySampled hoverlap h
  exact overlap_of_ends hoverlap covered.first covered.last

theorem Made.overlap_of_profile (made : p.Made) (h : p.profile = .ok profile) :
    p.overlap = .ok profile.span := by
  cases made with
  | of first second => exact overlap_of_finelySampled h
  | withStep made stepped =>
    obtain ⟨profile', hprofile, stepped⟩ := exists_of_bind stepped
    obtain rfl := Except.ok.inj stepped
    obtain rfl := Except.ok.inj h
    exact overlap_of_profileOfStep hprofile

end TrackPair

namespace SeparationProfile

/-- The closest sample is where the tracks come closest, and it tells of every limit whether they
come within it at some instant of their overlap. -/
theorem closest_sample_is_least [ExactScalar α] (profile : SeparationProfile α) :
    profile.horizontalAt profile.closest.time = .ok profile.closest.horizontalNm ∧
    (∀ t, profile.span.contains t → ∃ nm, profile.horizontalAt t = .ok nm ∧
      profile.closest.horizontalNm ≤ nm ∧
      (t < profile.closest.time → profile.closest.horizontalNm < nm)) ∧
    ∀ {ρ : Type} [Geodesy α] (p : TrackPair α ρ), p.Made → p.profile = .ok profile →
      ∃ overlap, p.overlap = .ok overlap ∧ ∀ limit, ∃ within, p.comesWithin limit = .ok within ∧
        (within = true ↔ profile.closest.horizontalNm ≤ limit) ∧
        (within = true ↔ ∃ t, overlap.contains t ∧
          ∃ nm, profile.horizontalAt t = .ok nm ∧ nm ≤ limit) := by
  refine ⟨profile.horizontalAt_closest, fun t inside => exists_horizontalAt inside, ?_⟩
  intro ρ _ p made hprofile
  refine ⟨profile.span, made.overlap_of_profile hprofile, fun limit => ?_⟩
  exact ⟨_, bind_of_ok hprofile rfl, any_within_iff limit,
    (any_within_iff limit).trans (exists_within_iff limit).symm⟩

end SeparationProfile

/-- The level aircraft and the descending one. -/
theorem TrackPair.descent_least : ∃ overlap profile,
    (TrackPair.of level descending).overlap = .ok overlap ∧
    (TrackPair.of level descending).profile = .ok profile ∧
    ∀ limit : ℚ, ∃ within, (TrackPair.of level descending).comesWithin limit = .ok within ∧
      (within = true ↔ profile.closest.horizontalNm ≤ limit) ∧
      (within = true ↔ ∃ t, overlap.contains t ∧
        ∃ nm, profile.horizontalAt t = .ok nm ∧ nm ≤ limit) := by
  obtain ⟨profile, hprofile⟩ : ∃ profile, (TrackPair.of level descending).profile = .ok profile :=
    exists_of_isOk (by decide +kernel)
  obtain ⟨-, -, each⟩ := SeparationProfile.closest_sample_is_least profile
  obtain ⟨overlap, hoverlap, limits⟩ := each _ (.of level descending) hprofile
  exact ⟨overlap, profile, hoverlap, hprofile, limits⟩

end AirTraffic
