import AirTraffic.Proofs.Basic
import AirTraffic.Proofs.Track.Order
import AirTraffic.Encounter.Forecast

/-!
# Samples of the separation

What is known of a list of samples from the way it was made: each is the separation at its time, the
first is taken at the start, and the times increase from there to the end. Where the separation is
known throughout, so is the list.
-/
namespace AirTraffic

variable {α ρ β γ ε : Type}

namespace SeparationProfile

theorem samples_of_ofSamples {samples : List (Separation α)} {profile : SeparationProfile α}
    (h : ofSamples samples = .ok profile) : profile.samples = samples := by
  rcases samples with _ | ⟨first, _ | ⟨second, rest⟩⟩
  · cases h
  · cases h
  · rw [ofSamples] at h
    split at h
    · obtain rfl := Except.ok.inj h
      rfl
    · cases h

theorem exists_of_increasing {first second : Separation α} {rest : List (Separation α)}
    (h : timesIncrease (first :: second :: rest)) :
    ∃ profile, ofSamples (first :: second :: rest) = .ok profile :=
  ⟨_, dif_pos h⟩

end SeparationProfile

namespace TrackPair

theorem bounds_of_overlap {p : TrackPair α ρ} {u : TimeSpan} (h : p.overlap = .ok u) :
    u.start = max p.first.span.start p.second.span.start ∧
      u.stop = min p.first.span.stop p.second.span.stop := by
  unfold overlap overlap? TimeSpan.overlap? at h
  by_cases common : max p.first.span.start p.second.span.start ≤
      min p.first.span.stop p.second.span.stop
  · rw [dif_pos common] at h
    obtain rfl := Except.ok.inj h
    exact ⟨rfl, rfl⟩
  · rw [dif_neg common] at h
    cases h

variable [Scalar α]

theorem sampleStepMs_le (nm : α) : sampleStepMs nm ≤ 20000 := by
  unfold sampleStepMs
  repeat' split
  all_goals decide

variable [Geodesy α] {p : TrackPair α ρ} {stop time : Int}

theorem time_of_separationAt {s : Separation α} (h : p.separationAt time = .ok s) :
    s.time = time := by
  obtain ⟨instant, -, h⟩ := exists_of_bind h
  obtain ⟨vertical, -, h⟩ := exists_of_bind h
  exact (Except.ok.inj h) ▸ rfl

theorem sampleFrom_cases {samples : List (Separation α)}
    (h : p.sampleFrom stop time = .ok samples) :
    ∃ s rest, samples = s :: rest ∧ p.separationAt (min time stop) = .ok s ∧
      (stop ≤ time ∧ rest = [] ∨
        time < stop ∧ p.sampleFrom stop (time + sampleStepMs s.horizontalNm) = .ok rest) := by
  rw [sampleFrom] at h
  by_cases before : time < stop
  · rw [if_pos before] at h
    obtain ⟨s, hs, h⟩ := exists_of_bind h
    obtain ⟨rest, hrest, h⟩ := exists_of_bind h
    refine ⟨s, rest, (Except.ok.inj h).symm, ?_, Or.inr ⟨before, hrest⟩⟩
    rwa [Int.min_eq_left (by omega)]
  · rw [if_neg before] at h
    obtain ⟨s, hs, h⟩ := exists_of_bind h
    refine ⟨s, [], (Except.ok.inj h).symm, ?_, Or.inl ⟨by omega, rfl⟩⟩
    rwa [Int.min_eq_right (by omega)]

theorem exists_sampleFrom {start : Int} (hstart : start ≤ stop)
    (known : ∀ u, start ≤ u → u ≤ stop → ∃ s, p.separationAt u = .ok s) (htime : start ≤ time) :
    ∃ samples, p.sampleFrom stop time = .ok samples := by
  fun_induction sampleFrom p stop time with
  | case1 time before ih =>
    obtain ⟨s, hs⟩ := known time htime (by omega)
    obtain ⟨rest, hrest⟩ := ih s (by omega)
    exact ⟨s :: rest, bind_of_ok hs (bind_of_ok hrest rfl)⟩
  | case2 time after =>
    obtain ⟨s, hs⟩ := known stop hstart (Int.le_refl stop)
    exact ⟨[s], bind_of_ok hs rfl⟩

theorem sampleFrom_spec {samples : List (Separation α)} (h : p.sampleFrom stop time = .ok samples) :
    timesIncrease samples ∧ ∀ s ∈ samples, p.separationAt s.time = .ok s ∧
      min time stop ≤ s.time ∧ s.time ≤ stop := by
  fun_induction sampleFrom p stop time generalizing samples with
  | case1 time before ih =>
    obtain ⟨s, hs, h⟩ := exists_of_bind h
    obtain ⟨rest, hrest, h⟩ := exists_of_bind h
    obtain rfl := Except.ok.inj h
    obtain ⟨increase, later⟩ := ih s hrest
    have htime := time_of_separationAt hs
    have hstep := sampleStepMs_pos s.horizontalNm
    constructor
    · refine List.pairwise_cons.mpr ⟨fun q hq => ?_, increase⟩
      have := (later q hq).2
      omega
    · refine List.forall_mem_cons.mpr ⟨⟨htime ▸ hs, by omega, by omega⟩, fun q hq => ?_⟩
      obtain ⟨hq, _, _⟩ := later q hq
      exact ⟨hq, by omega, by omega⟩
  | case2 time after =>
    obtain ⟨s, hs, h⟩ := exists_of_bind h
    obtain rfl := Except.ok.inj h
    have htime := time_of_separationAt hs
    refine ⟨List.pairwise_singleton _ _, List.forall_mem_singleton.mpr ?_⟩
    exact ⟨htime ▸ hs, by omega, by omega⟩

theorem ofSamples_of_sampleFrom (before : time < stop) {samples : List (Separation α)}
    (h : p.sampleFrom stop time = .ok samples) :
    ∃ profile, SeparationProfile.ofSamples samples = .ok profile := by
  obtain ⟨increase, -⟩ := sampleFrom_spec h
  obtain ⟨first, rest, rfl, -, more⟩ := sampleFrom_cases h
  obtain ⟨-, hrest⟩ := more.resolve_left (by omega)
  obtain ⟨second, rest, rfl, -, -⟩ := sampleFrom_cases hrest
  exact SeparationProfile.exists_of_increasing increase

/-- The samples are separations at instants of a span, of which the first is its start. -/
structure Samples (p : TrackPair α ρ) (span : TimeSpan) (profile : SeparationProfile α) : Prop where
  first : profile.first.time = span.start
  known : ∀ s ∈ profile.samples, p.separationAt s.time = .ok s
  inside : ∀ s ∈ profile.samples, span.start ≤ s.time ∧ s.time ≤ span.stop

theorem exists_finelySampled {span : TimeSpan} (hoverlap : p.overlap = .ok span)
    (long : span.start < span.stop)
    (known : ∀ u, span.start ≤ u → u ≤ span.stop → ∃ s, p.separationAt u = .ok s) :
    ∃ profile, p.finelySampled = .ok profile ∧ p.Samples span profile := by
  obtain ⟨samples, hsamples⟩ :=
    exists_sampleFrom span.start_le_stop known (Int.le_refl span.start)
  obtain ⟨-, each⟩ := sampleFrom_spec hsamples
  obtain ⟨first, rest, rfl, hfirst, -⟩ := sampleFrom_cases hsamples
  obtain ⟨profile, hprofile⟩ := ofSamples_of_sampleFrom long hsamples
  have same := SeparationProfile.samples_of_ofSamples hprofile
  refine ⟨profile, bind_of_ok hoverlap (bind_of_ok hsamples hprofile), ?_, ?_, ?_⟩
  · rw [(List.cons.inj same).1, time_of_separationAt hfirst]
    omega
  · rw [same]
    exact fun s hs => (each s hs).1
  · rw [same]
    intro s hs
    have := (each s hs).2
    omega

end TrackPair
end AirTraffic
