import AirTraffic.Proofs.Encounter.Foresight
import AirTraffic.Proofs.Encounter.Reading

/-!
# Fine samples of an overlap

The samples of two tracks stand at the start of their overlap, at its end, and between the two each
a step after the one before. Nothing but an instant at which the tracks cannot be compared keeps an
overlap from being sampled.
-/
namespace AirTraffic

open Scalar

variable {α ρ : Type}

namespace TrackPair

variable [Scalar α] [Geodesy α]

/-- The instants that sampling comes to: the start of the span, and after each sample before its end
the next. -/
inductive Sampled (p : TrackPair α ρ) (span : TimeSpan) : Int → Prop where
  | start : Sampled p span span.start
  | next {time : Int} {s : Separation α} (sampled : Sampled p span time) (before : time < span.stop)
      (known : p.separationAt time = .ok s) :
      Sampled p span (min (time + sampleStepMs s.horizontalNm) span.stop)

/-- Why the tracks cannot be compared at an instant. -/
inductive Unknown (p : TrackPair α ρ) (span : TimeSpan) (time : Int) :
    SeparationError α → Prop where
  | position (unread : p.first.at? time = none ∨ p.second.at? time = none) :
      Unknown p span time (.outsideSpan time span.start span.stop)
  | altitude {r : Report α ρ} (read : p.first.at? time = some r ∨ p.second.at? time = some r)
      (absent : r.altitude = none) : Unknown p span time (.missing r.time .altitude)

/-- Samples all over a span. -/
structure Covered (p : TrackPair α ρ) (span : TimeSpan) (profile : SeparationProfile α) : Prop where
  first : profile.first.time = span.start
  last : profile.last.time = span.stop
  increase : timesIncrease profile.samples
  read : ∀ s ∈ profile.samples, s.ReadOff p.first p.second
  step : ∀ s q, [s, q] <:+: profile.samples →
    q.time = min (s.time + sampleStepMs s.horizontalNm) span.stop

variable {p : TrackPair α ρ} {span : TimeSpan} {stop time : Int} {s : Separation α}
  {samples : List (Separation α)} {e : SeparationError α}

theorem Sampled.inside (h : p.Sampled span time) : span.start ≤ time ∧ time ≤ span.stop := by
  have := span.start_le_stop
  induction h with
  | start => exact ⟨Int.le_refl _, this⟩
  | @next time s _ before _ ih =>
    have := sampleStepMs_pos s.horizontalNm
    omega

omit [Scalar α] [Geodesy α] in
theorem altitude_cases {r : Report α ρ} : (∃ a, r.altitude = some a ∧ Instant.altitude r = .ok a) ∨
    r.altitude = none ∧ Instant.altitude r = .error (.missing r.time .altitude) := by
  unfold Instant.altitude
  cases r.altitude with
  | none => exact Or.inr ⟨rfl, rfl⟩
  | some a => exact Or.inl ⟨a, rfl, rfl⟩

theorem instantAt_cases (hoverlap : p.overlap = .ok span) (time : Int) :
    (∃ r q, p.first.at? time = some r ∧ p.second.at? time = some q ∧
      p.instantAt time = .ok ⟨r, q⟩) ∨
    (p.first.at? time = none ∨ p.second.at? time = none) ∧
      p.instantAt time = .error (.outsideSpan time span.start span.stop) := by
  unfold instantAt
  rw [hoverlap]
  cases p.first.at? time with
  | none => exact Or.inr ⟨Or.inl rfl, rfl⟩
  | some r =>
    cases p.second.at? time with
    | none => exact Or.inr ⟨Or.inr rfl, rfl⟩
    | some q => exact Or.inl ⟨r, q, rfl, rfl, rfl⟩

theorem separationAt_cases (hoverlap : p.overlap = .ok span) (time : Int) :
    (∃ s, p.separationAt time = .ok s ∧ s.ReadOff p.first p.second) ∨
      ∃ e, p.separationAt time = .error e ∧ p.Unknown span time e := by
  unfold separationAt
  rcases instantAt_cases hoverlap time with ⟨r, q, hr, hq, hinstant⟩ | ⟨unread, hinstant⟩
  · rw [hinstant]
    rcases altitude_cases (r := r) with ⟨a, ha, hfirst⟩ | ⟨absent, hfirst⟩
    · rcases altitude_cases (r := q) with ⟨b, hb, hsecond⟩ | ⟨absent, hsecond⟩
      · have delta : Instant.altitudeDelta ⟨r, q⟩ = .ok (Scalar.abs (a - b)) :=
          bind_of_ok hfirst (bind_of_ok hsecond rfl)
        refine Or.inl ⟨⟨time, r.distanceTo q, Scalar.abs (a - b)⟩, ?_, r, q, a, b, hr, hq, ha, hb,
          rfl, rfl⟩
        exact bind_of_ok rfl (bind_of_ok delta rfl)
      · refine Or.inr ⟨_, ?_, .altitude (Or.inr hq) absent⟩
        simp only [bind, Except.bind, Instant.altitudeDelta, hfirst, hsecond]
    · refine Or.inr ⟨_, ?_, .altitude (Or.inl hr) absent⟩
      simp only [bind, Except.bind, Instant.altitudeDelta, hfirst]
  · rw [hinstant]
    exact Or.inr ⟨_, rfl, .position unread⟩

/-- Where sampling fails, it does so at an instant that it has come to. -/
theorem exists_sampled_of_error (reached : p.Sampled span (min time span.stop))
    (h : p.sampleFrom span.stop time = .error e) :
    ∃ u, p.Sampled span u ∧ p.separationAt u = .error e := by
  fun_induction sampleFrom p span.stop time with
  | case1 time before ih =>
    rw [Int.min_eq_left (Int.le_of_lt before)] at reached
    rcases error_of_bind h with failed | ⟨s, hs, h⟩
    · exact ⟨time, reached, failed⟩
    · rcases error_of_bind h with failed | ⟨rest, -, h⟩
      · exact ih s (.next reached before hs) failed
      · cases h
  | case2 time after =>
    rw [Int.min_eq_right (by omega)] at reached
    rcases error_of_bind h with failed | ⟨s, -, h⟩
    · exact ⟨span.stop, reached, failed⟩
    · cases h

theorem sampleFrom_chain (h : p.sampleFrom stop time = .ok samples) :
    samples.IsChain (fun s q : Separation α =>
      q.time = min (s.time + sampleStepMs s.horizontalNm) stop) ∧
      ∃ s, samples.getLast? = some s ∧ s.time = stop := by
  induction samples generalizing time with
  | nil =>
    obtain ⟨s, rest, same, -⟩ := sampleFrom_cases h
    cases same
  | cons s samples ih =>
    obtain ⟨s', rest, same, hs, more⟩ := sampleFrom_cases h
    obtain ⟨rfl, rfl⟩ := List.cons.inj same
    have htime := time_of_separationAt hs
    rcases more with ⟨after, rfl⟩ | ⟨before, hrest⟩
    · exact ⟨.singleton s, s, rfl, by omega⟩
    · obtain ⟨chain, last⟩ := ih hrest
      obtain ⟨q, rest, rfl, hq, -⟩ := sampleFrom_cases hrest
      have hstep : q.time = min (s.time + sampleStepMs s.horizontalNm) stop := by
        rw [time_of_separationAt hq, htime, Int.min_eq_left (Int.le_of_lt before)]
      refine ⟨.cons_cons hstep chain, ?_⟩
      rwa [List.getLast?_cons_cons]

theorem finelySampled_of_instant (hoverlap : p.overlap = .ok span) (short : span.start = span.stop)
    (known : p.separationAt span.start = .ok s) : p.finelySampled = .error (.tooFewSamples 1) := by
  have samples : p.sampleFrom span.stop span.start = .ok [s] := by
    rw [sampleFrom, if_neg (by omega), ← short, known]
    rfl
  unfold finelySampled
  rw [hoverlap]
  dsimp only [bind, Except.bind]
  rw [samples]
  rfl

theorem covered_of_finelySampled (hoverlap : p.overlap = .ok span) {profile : SeparationProfile α}
    (h : p.finelySampled = .ok profile) : p.Covered span profile := by
  obtain ⟨span', hspan, h⟩ := exists_of_bind h
  obtain rfl : span' = span := Except.ok.inj (hspan.symm.trans hoverlap)
  obtain ⟨samples, hsamples, h⟩ := exists_of_bind h
  obtain rfl := SeparationProfile.samples_of_ofSamples h
  obtain ⟨chain, last, hlast, hstop⟩ := sampleFrom_chain hsamples
  obtain ⟨-, each⟩ := sampleFrom_spec hsamples
  refine ⟨?_, ?_, profile.increasing, fun s hs => ?_, fun s q neighbours => ?_⟩
  · obtain ⟨first, rest, same, hfirst, -⟩ := sampleFrom_cases hsamples
    obtain ⟨rfl, -⟩ := List.cons.inj same
    rw [time_of_separationAt hfirst, Int.min_eq_left span'.start_le_stop]
  · rw [SeparationProfile.getLast?_samples] at hlast
    rw [Option.some.inj hlast, hstop]
  · rcases separationAt_cases hoverlap s.time with ⟨s', known, read⟩ | ⟨e, failed, -⟩
    · rwa [Except.ok.inj ((each s hs).1.symm.trans known)]
    · exact absurd ((each s hs).1.symm.trans failed) (by simp)
  · have pair := chain.infix neighbours
    rwa [List.isChain_pair] at pair

theorem exists_unknown_of_finelySampled (hoverlap : p.overlap = .ok span)
    (long : span.start < span.stop) (h : p.finelySampled = .error e) :
    ∃ u, p.Sampled span u ∧ p.Unknown span u e := by
  rcases error_of_bind h with failed | ⟨span', hspan, h⟩
  · exact absurd (failed.symm.trans hoverlap) (by simp)
  · obtain rfl : span' = span := Except.ok.inj (hspan.symm.trans hoverlap)
    rcases error_of_bind h with failed | ⟨samples, hsamples, h⟩
    · have begun : p.Sampled span' (min span'.start span'.stop) := by
        rw [Int.min_eq_left (Int.le_of_lt long)]
        exact .start
      obtain ⟨u, reached, failed⟩ := exists_sampled_of_error begun failed
      rcases separationAt_cases hoverlap u with ⟨s, known, -⟩ | ⟨e', failed', unknown⟩
      · exact absurd (failed.symm.trans known) (by simp)
      · exact ⟨u, reached, Except.error.inj (failed.symm.trans failed') ▸ unknown⟩
    · obtain ⟨profile, hprofile⟩ := ofSamples_of_sampleFrom long hsamples
      exact absurd (h.symm.trans hprofile) (by simp)

end TrackPair

/-- The parts of samples, each in a list of its own. -/
structure SampleLists (α : Type) where
  times : List Int
  vertical : List α
  horizontal : List α

namespace SampleLists

def ofSamples (samples : List (Separation α)) : SampleLists α where
  times := samples.map (·.time)
  vertical := samples.map (·.verticalFt)
  horizontal := samples.map (·.horizontalNm)

def toProfile (lists : SampleLists α) : Except (SeparationError α) (SeparationProfile α) :=
  SeparationProfile.ofLists lists.times lists.vertical lists.horizontal

theorem toProfile_ofSamples (samples : List (Separation α)) :
    (ofSamples samples).toProfile = SeparationProfile.ofSamples samples := by
  rcases samples with _ | ⟨first, _ | ⟨second, rest⟩⟩
  · rfl
  · rfl
  · have several : ¬(first :: second :: rest).length < 2 := by simp
    have together (samples : List (Separation α)) : ((ofSamples samples).times.zip
        ((ofSamples samples).horizontal.zip (ofSamples samples).vertical)).map
          (fun s => (⟨s.1, s.2.1, s.2.2⟩ : Separation α)) = samples := by
      unfold ofSamples
      rw [List.zip_map', List.zip_map', List.map_map]
      exact List.map_id _
    unfold toProfile SeparationProfile.ofLists
    rw [together]
    simp only [ofSamples, List.length_map, if_neg several, ne_eq, not_true_eq_false, or_self,
      if_false]

end SampleLists

namespace TrackPair

variable [Scalar α] [Geodesy α]

/-- One more sample, and its lateral distance. The time is listed before the altitudes are known, so
a sample that fails for want of one leaves lists of different lengths. -/
def listSample (p : TrackPair α ρ) (lists : SampleLists α) (time : Int) :
    SampleLists α × Except (SeparationError α) α :=
  match p.instantAt time with
  | .error e => (lists, .error e)
  | .ok instant =>
    match instant.altitudeDelta with
    | .error e => ({ lists with times := lists.times ++ [time] }, .error e)
    | .ok vertical =>
      ({ times := lists.times ++ [time]
         vertical := lists.vertical ++ [vertical]
         horizontal := lists.horizontal ++ [instant.lateral] }, .ok instant.lateral)

def listFrom (p : TrackPair α ρ) (stop time : Int) (lists : SampleLists α) :
    SampleLists α × Except (SeparationError α) Unit :=
  if time < stop then
    match p.listSample lists time with
    | (lists, .error e) => (lists, .error e)
    | (lists, .ok lateral) => p.listFrom stop (time + sampleStepMs lateral) lists
  else
    match p.listSample lists stop with
    | (lists, .error e) => (lists, .error e)
    | (lists, .ok _) => (lists, .ok ())
termination_by (stop - time).toNat
decreasing_by
  have := sampleStepMs_pos lateral
  omega

/-- Fine samples, gathered in lists. -/
def finelyListed (p : TrackPair α ρ) : Except (SeparationError α) (SeparationProfile α) := do
  let overlap ← p.overlap
  match p.listFrom overlap.stop overlap.start (.ofSamples []) with
  | (_, .error e) => .error e
  | (lists, .ok ()) => lists.toProfile

variable {p : TrackPair α ρ} {span : TimeSpan} {stop time : Int} {s : Separation α}
  {samples : List (Separation α)} {e : SeparationError α}

theorem listSample_of_ok (h : p.separationAt time = .ok s) (before : List (Separation α)) :
    p.listSample (.ofSamples before) time = (.ofSamples (before ++ [s]), .ok s.horizontalNm) := by
  obtain ⟨instant, hinstant, h⟩ := exists_of_bind h
  obtain ⟨vertical, hvertical, h⟩ := exists_of_bind h
  obtain rfl := Except.ok.inj h
  unfold listSample
  rw [hinstant]
  dsimp only
  rw [hvertical]
  simp only [SampleLists.ofSamples, List.map_append, List.map_cons, List.map_nil]

theorem listSample_of_error (h : p.separationAt time = .error e) (lists : SampleLists α) :
    ∃ left, p.listSample lists time = (left, .error e) := by
  unfold listSample
  rcases error_of_bind h with failed | ⟨instant, hinstant, h⟩
  · rw [failed]
    exact ⟨lists, rfl⟩
  · rw [hinstant]
    rcases error_of_bind h with failed | ⟨vertical, -, h⟩
    · dsimp only
      rw [failed]
      exact ⟨_, rfl⟩
    · cases h

theorem listFrom_of_ok (h : p.sampleFrom stop time = .ok samples) (before : List (Separation α)) :
    p.listFrom stop time (.ofSamples before) = (.ofSamples (before ++ samples), .ok ()) := by
  induction samples generalizing time before with
  | nil =>
    obtain ⟨s, rest, same, -⟩ := sampleFrom_cases h
    cases same
  | cons s samples ih =>
    obtain ⟨s', rest, same, hs, more⟩ := sampleFrom_cases h
    obtain ⟨rfl, rfl⟩ := List.cons.inj same
    rw [listFrom]
    rcases more with ⟨after, rfl⟩ | ⟨early, hrest⟩
    · rw [Int.min_eq_right after] at hs
      rw [if_neg (Int.not_lt.mpr after), listSample_of_ok hs]
    · rw [Int.min_eq_left (Int.le_of_lt early)] at hs
      rw [if_pos early, listSample_of_ok hs]
      dsimp only
      rw [ih hrest, List.append_assoc]
      rfl

theorem listFrom_of_error (h : p.sampleFrom stop time = .error e) (before : List (Separation α)) :
    ∃ left, p.listFrom stop time (.ofSamples before) = (left, .error e) := by
  fun_induction sampleFrom p stop time generalizing before with
  | case1 time early ih =>
    rw [listFrom, if_pos early]
    rcases error_of_bind h with failed | ⟨s, hs, h⟩
    · obtain ⟨left, hleft⟩ := listSample_of_error failed (.ofSamples before)
      rw [hleft]
      exact ⟨left, rfl⟩
    · rw [listSample_of_ok hs]
      rcases error_of_bind h with failed | ⟨rest, -, h⟩
      · exact ih s failed (before ++ [s])
      · cases h
  | case2 time after =>
    rw [listFrom, if_neg after]
    rcases error_of_bind h with failed | ⟨s, -, h⟩
    · obtain ⟨left, hleft⟩ := listSample_of_error failed (.ofSamples before)
      rw [hleft]
      exact ⟨left, rfl⟩
    · cases h

theorem finelyListed_eq (p : TrackPair α ρ) : p.finelyListed = p.finelySampled := by
  unfold finelyListed finelySampled
  cases p.overlap with
  | error e => rfl
  | ok span =>
    dsimp only [bind, Except.bind]
    cases hsamples : p.sampleFrom span.stop span.start with
    | error e =>
      obtain ⟨left, hleft⟩ := listFrom_of_error hsamples []
      rw [hleft]
    | ok samples =>
      rw [listFrom_of_ok hsamples, List.nil_append]
      exact SampleLists.toProfile_ofSamples samples

/-- A sampled overlap is covered from end to end. One that lasts is not sampled only if at some
instant that sampling has come to a track has no position or no altitude, and one that is a single
instant gives a single sample. -/
theorem fine_samples_cover_overlap (hoverlap : p.overlap = .ok span) :
    (∀ profile, p.finelySampled = .ok profile → p.Covered span profile) ∧
    (span.start < span.stop → ∀ e, p.finelySampled = .error e →
      ∃ u, p.Sampled span u ∧ span.start ≤ u ∧ u ≤ span.stop ∧ p.Unknown span u e) ∧
    (span.start = span.stop → ∀ s, p.separationAt span.start = .ok s →
      p.finelySampled = .error (.tooFewSamples 1)) ∧
    p.finelyListed = p.finelySampled := by
  refine ⟨fun profile => covered_of_finelySampled hoverlap, fun long e failed => ?_,
    fun short s known => finelySampled_of_instant hoverlap short known, p.finelyListed_eq⟩
  obtain ⟨u, reached, unknown⟩ := exists_unknown_of_finelySampled hoverlap long failed
  exact ⟨u, reached, reached.inside.1, reached.inside.2, unknown⟩

/-- The level aircraft and the descending one are some fifty miles apart, so they are sampled every
ten seconds or twenty. -/
theorem descent_covered : ∃ span profile, (TrackPair.of level descending).overlap = .ok span ∧
    (TrackPair.of level descending).finelySampled = .ok profile ∧
    (TrackPair.of level descending).Covered span profile := by
  have hoverlap : (TrackPair.of level descending).overlap = .ok ⟨0, 40000, by decide⟩ := rfl
  obtain ⟨profile, hprofile⟩ :
      ∃ profile, (TrackPair.of level descending).finelySampled = .ok profile :=
    exists_of_isOk (by decide +kernel)
  exact ⟨_, profile, hoverlap, hprofile,
    (fine_samples_cover_overlap hoverlap).1 profile hprofile⟩

end TrackPair
end AirTraffic
