import AirTraffic.Proofs.Geo.Pseudometric
import AirTraffic.Proofs.Encounter.Sampling
import AirTraffic.Proofs.Polyline

/-!
# Forecasts know nothing of the future

Two pairs of tracks that agree up to some instant are sampled alike up to it, since where the next
sample is taken depends on the separation at the last one. A forecast reads the samples on either
side of its own instant, and these are at most twenty seconds apart. Where both pairs can be
forecast at all, the forecasts are the same.
-/
namespace AirTraffic

variable {α ρ β γ δ ε η : Type}

def Together (R : β → γ → Prop) (x : Except ε β) (y : Except ε γ) : Prop :=
  ∀ b c, x = .ok b → y = .ok c → R b c

namespace Together

theorem same (x : Except ε β) : Together Eq x x := fun _ _ hb hc => Except.ok.inj (hb.symm.trans hc)

theorem bind {R : β → γ → Prop} {S : δ → η → Prop} {x : Except ε β} {y : Except ε γ}
    {f : β → Except ε δ} {g : γ → Except ε η} (hx : Together R x y)
    (hf : ∀ b c, R b c → Together S (f b) (g c)) : Together S (x >>= f) (y >>= g) := by
  intro d e hd he
  obtain ⟨b, hb, hd⟩ := exists_of_bind hd
  obtain ⟨c, hc, he⟩ := exists_of_bind he
  exact hf b c (hx b c hb hc) d e hd he

end Together

/-- The two lists begin alike, and go on so beyond an instant. -/
def CommonBeyond (t : Int) (samples samples' : List (Separation α)) : Prop :=
  ∃ common more more', samples = common ++ more ∧ samples' = common ++ more' ∧
    ∃ s ∈ common, t < s.time

namespace CommonBeyond

variable {t : Int} {s : Separation α} {rest rest' : List (Separation α)}

theorem reached (h : t < s.time) : CommonBeyond t (s :: rest) (s :: rest') :=
  ⟨[s], rest, rest', rfl, rfl, s, List.mem_singleton_self s, h⟩

theorem cons (h : CommonBeyond t rest rest') : CommonBeyond t (s :: rest) (s :: rest') := by
  obtain ⟨common, more, more', rfl, rfl, q, hq, ht⟩ := h
  exact ⟨s :: common, more, more', rfl, rfl, q, List.mem_cons_of_mem s hq, ht⟩

theorem readings [Scalar α] (h : CommonBeyond t rest rest') (value : Separation α → α) :
    let line := rest.map fun s => (s.time, value s)
    let line' := rest'.map fun s => (s.time, value s)
    Polyline.value? line t = Polyline.value? line' t ∧
      Polyline.descent? line t = Polyline.descent? line' t := by
  obtain ⟨common, more, more', rfl, rfl, q, hq, ht⟩ := h
  have beyond : ∃ p ∈ common.map fun s => (s.time, value s), t < p.1 :=
    ⟨_, List.mem_map_of_mem hq, ht⟩
  simp only [List.map_append]
  constructor
  · rw [Polyline.value?_append beyond, Polyline.value?_append beyond]
  · rw [Polyline.descent?_append beyond, Polyline.descent?_append beyond]

end CommonBeyond

namespace SeparationProfile

variable {a b : SeparationProfile α} {t : Int}

theorem inSpan_together (v : Option β) : Together Eq (a.inSpan t v) (b.inSpan t v) := by
  cases v with
  | none => exact fun _ _ h => absurd h (by simp [inSpan])
  | some v => exact fun _ _ h h' => (Except.ok.inj h).symm.trans (Except.ok.inj h')

variable [Scalar α] (h : CommonBeyond t a.samples b.samples)

include h

theorem closureAt_together (value : Separation α → α) :
    Together Eq (a.closureAt (a.samples.map fun s => (s.time, value s)) t)
      (b.closureAt (b.samples.map fun s => (s.time, value s)) t) := by
  unfold closureAt
  rw [(h.readings value).2]
  exact inSpan_together _

theorem verticalAfter_together (ms : Int) :
    Together Eq (a.verticalAfter t ms) (b.verticalAfter t ms) := by
  unfold verticalAfter extrapolate
  split
  · exact fun _ _ h => absurd h (by simp)
  · refine (closureAt_together h (·.verticalFt)).bind fun rate _ same => ?_
    obtain rfl := same
    unfold vertical valueAt
    rw [(h.readings (·.verticalFt)).1]
    refine (inSpan_together _).bind fun value _ same => ?_
    obtain rfl := same
    exact .same _

theorem verticalClosure_together :
    Together Eq (a.verticalClosure t) (b.verticalClosure t) := by
  refine (closureAt_together h (·.verticalFt)).bind fun rate _ same => ?_
  obtain rfl := same
  exact .same _

theorem horizontalClosure_together :
    Together Eq (a.horizontalClosure t) (b.horizontalClosure t) := by
  refine (closureAt_together h (·.horizontalNm)).bind fun rate _ same => ?_
  obtain rfl := same
  exact .same _

end SeparationProfile

namespace Track

/-- The same reports up to an instant, at which there is one. -/
structure SamePast (time : Int) (s t : Track α ρ) : Prop where
  past : s.reports.filter (·.time ≤ time) = t.reports.filter (·.time ≤ time)
  present : ∃ r ∈ s.reports, r.time = time

namespace SamePast

variable {s t : Track α ρ} {now time : Int} (h : s.SamePast now t) (hs : s.Ordered) (ht : t.Ordered)

include h hs ht

theorem exists_past : ∃ past : Track α ρ, past.Ordered ∧ past.reports <+: s.reports ∧
    past.reports <+: t.reports ∧ ∃ r ∈ past.reports, r.time = now := by
  obtain ⟨r, hr, hnow⟩ := h.present
  have mem : r ∈ s.reports.filter (·.time ≤ now) := List.mem_filter.mpr ⟨hr, by simp [hnow]⟩
  have inS := Report.InOrder.filter_isPrefix hs now
  have inT := Report.InOrder.filter_isPrefix ht now
  rw [← h.past] at inT
  refine ⟨⟨s.reports.filter (·.time ≤ now), List.ne_nil_of_mem mem⟩, ?_, inS, inT, r, mem, hnow⟩
  exact List.Pairwise.sublist (inS.sublist.map _) hs

theorem start_eq : s.span.start = t.span.start := by
  obtain ⟨past, -, inS, inT, -⟩ := h.exists_past hs ht
  rw [hs.span_start, ht.span_start, first_of_isPrefix inS, first_of_isPrefix inT]

omit ht in
theorem start_le : s.span.start ≤ now := by
  obtain ⟨r, hr, rfl⟩ := h.present
  rw [hs.span_start]
  exact hs.first_le hr

theorem le_stop : now ≤ s.span.stop ∧ now ≤ t.span.stop := by
  obtain ⟨past, -, inS, inT, r, hr, rfl⟩ := h.exists_past hs ht
  rw [hs.span_stop, ht.span_stop]
  exact ⟨hs.le_last (inS.mem hr), ht.le_last (inT.mem hr)⟩

theorem at?_eq [Scalar α] [Geodesy α] (hle : time ≤ now) : s.at? time = t.at? time := by
  obtain ⟨past, hpast, inS, inT, r, hr, rfl⟩ := h.exists_past hs ht
  exact (at?_of_isPrefix hs hpast inS hr hle).trans (at?_of_isPrefix ht hpast inT hr hle).symm

end SamePast
end Track

namespace TrackPair

/-- What two pairs of tracks with the same past up to an instant have in common. -/
structure AgreeUntil [Scalar α] [Geodesy α] (now : Int) (p q : TrackPair α ρ) : Prop where
  first : ∀ time ≤ now, p.first.at? time = q.first.at? time
  second : ∀ time ≤ now, p.second.at? time = q.second.at? time
  overlap : Together (fun u v : TimeSpan => u.start = v.start ∧ u.start ≤ now ∧ now ≤ u.stop ∧
    now ≤ v.stop) p.overlap q.overlap

variable [Scalar α] [Geodesy α] {p q : TrackPair α ρ} {now t time : Int}

namespace AgreeUntil

variable (h : AgreeUntil now p q)

include h

theorem instantAt (hle : time ≤ now) : Together Eq (p.instantAt time) (q.instantAt time) := by
  refine h.overlap.bind fun u v _ => ?_
  rw [h.first time hle, h.second time hle]
  cases q.first.at? time with
  | none => exact fun _ _ h => absurd h (by simp [throw, throwThe, MonadExceptOf.throw])
  | some r =>
    cases q.second.at? time with
    | none => exact fun _ _ h => absurd h (by simp [throw, throwThe, MonadExceptOf.throw])
    | some s => exact .same _

theorem separationAt (hle : time ≤ now) :
    Together Eq (p.separationAt time) (q.separationAt time) := by
  refine (h.instantAt hle).bind fun instant _ same => ?_
  obtain rfl := same
  exact .same _

theorem sampleFrom (hnow : t + 20000 ≤ now) {stop stop' : Int} (hstop : now ≤ stop)
    (hstop' : now ≤ stop') (hle : time ≤ now) :
    Together (CommonBeyond t) (p.sampleFrom stop time) (q.sampleFrom stop' time) := by
  intro samples samples' hp hq
  induction hleft : (now - time).toNat using Nat.strong_induction_on
    generalizing time samples samples' with
  | _ left ih =>
    obtain ⟨s, rest, rfl, hs, more⟩ := sampleFrom_cases hp
    obtain ⟨s', rest', rfl, hs', more'⟩ := sampleFrom_cases hq
    rw [Int.min_eq_left (by omega)] at hs hs'
    obtain rfl : s = s' := h.separationAt (by omega) s s' hs hs'
    by_cases reached : t < time
    · exact .reached (by rwa [time_of_separationAt hs])
    · have hstep : 0 < sampleStepMs s.horizontalNm ∧ sampleStepMs s.horizontalNm ≤ 20000 :=
        ⟨sampleStepMs_pos _, sampleStepMs_le _⟩
      obtain ⟨_, hrest⟩ := more.resolve_left (by omega)
      obtain ⟨_, hrest'⟩ := more'.resolve_left (by omega)
      exact .cons (ih _ (by omega) (by omega) rest rest' hrest hrest' rfl)

theorem profile (hnow : t + 20000 ≤ now) (hp : p.fixedProfile = none)
    (hq : q.fixedProfile = none) :
    Together (fun a b => CommonBeyond t a.samples b.samples) p.profile q.profile := by
  unfold TrackPair.profile
  rw [hp, hq]
  refine h.overlap.bind fun u v ⟨start, hstart, hu, hv⟩ => ?_
  rw [← start]
  refine (h.sampleFrom hnow hu hv hstart).bind fun samples samples' common => ?_
  intro a b ha hb
  rwa [SeparationProfile.samples_of_ofSamples ha, SeparationProfile.samples_of_ofSamples hb]

theorem forecast (hnow : t + 20000 ≤ now) (hp : p.fixedProfile = none)
    (hq : q.fixedProfile = none) : Together Eq (p.forecast t) (q.forecast t) := by
  refine (h.instantAt (by omega)).bind fun instant _ same => ?_
  obtain rfl := same
  refine (Together.same instant.closestApproach).bind fun closest _ same => ?_
  obtain rfl := same
  refine (h.profile hnow hp hq).bind fun a b common => ?_
  refine (SeparationProfile.verticalAfter_together common closest.untilMs).bind
    fun verticalAtClosest _ same => ?_
  obtain rfl := same
  refine (Together.same instant.altitudeDelta).bind fun vertical _ same => ?_
  obtain rfl := same
  refine (SeparationProfile.verticalClosure_together common).bind fun verticalClosure _ same => ?_
  obtain rfl := same
  refine (SeparationProfile.horizontalClosure_together common).bind fun lateralClosure _ same => ?_
  obtain rfl := same
  exact .same _

end AgreeUntil

/-- Whatever the tracks do more than twenty seconds later, a forecast does not depend on it. -/
theorem forecast_ignores_future {first first' second second' : Track α ρ} {now time : Int}
    (hfirst : first.Ordered) (hfirst' : first'.Ordered) (hsecond : second.Ordered)
    (hsecond' : second'.Ordered) (past : first.SamePast now first')
    (past' : second.SamePast now second') (hnow : time + 20000 ≤ now) {f f' : Forecast α}
    (h : (TrackPair.of first second).forecast time = .ok f)
    (h' : (TrackPair.of first' second').forecast time = .ok f') : f = f' := by
  have agree : AgreeUntil now (TrackPair.of first second) (TrackPair.of first' second') := by
    refine ⟨fun u hu => past.at?_eq hfirst hfirst' hu, fun u hu => past'.at?_eq hsecond hsecond' hu,
      ?_⟩
    intro u v hu hv
    have := past.start_eq hfirst hfirst'
    have := past'.start_eq hsecond hsecond'
    have := past.start_le hfirst
    have := past'.start_le hsecond
    have := past.le_stop hfirst hfirst'
    have := past'.le_stop hsecond hsecond'
    have hu := bounds_of_overlap hu
    have hv := bounds_of_overlap hv
    simp only [TrackPair.of] at hu hv
    omega
  exact agree.forecast hnow rfl rfl f f' h h'

def levelAt (time : Int) : Report ℚ Unit where
  time := time
  position := ⟨40, 0⟩
  altitude := some 5000
  speed := some 0
  course := some 0
  curvature := none
  alongTrackDistance := none
  trackId := none
  payload := ()

def descendingAt (time : Int) (altitude : ℚ) : Report ℚ Unit :=
  { levelAt time with
    position := ⟨41 - time / 100000, 0⟩
    altitude := some altitude
    speed := some 200
    course := some 180 }

def level : Track ℚ Unit := ⟨[0, 20000, 40000].map levelAt, by simp⟩

def descending : Track ℚ Unit :=
  ⟨[descendingAt 0 8000, descendingAt 20000 7000, descendingAt 40000 6000], by simp⟩

def levelOff : Track ℚ Unit :=
  ⟨[descendingAt 0 8000, descendingAt 20000 7000, descendingAt 40000 7000], by simp⟩

/-- The descent is the same for twenty seconds, and so is what is forecast at its beginning. -/
theorem forecast_before_level_off : ∃ f f',
    (TrackPair.of level descending).forecast 0 = .ok f ∧
      (TrackPair.of level levelOff).forecast 0 = .ok f' ∧ f = f' ∧
      (levelOff.at? 40000).map (·.altitude) ≠ (descending.at? 40000).map (·.altitude) := by
  obtain ⟨f, hf⟩ : ∃ f, (TrackPair.of level descending).forecast 0 = .ok f :=
    exists_of_isOk (by decide +kernel)
  obtain ⟨f', hf'⟩ : ∃ f', (TrackPair.of level levelOff).forecast 0 = .ok f' :=
    exists_of_isOk (by decide +kernel)
  have past : level.SamePast 20000 level := ⟨rfl, levelAt 20000, by simp [level], rfl⟩
  have past' : descending.SamePast 20000 levelOff :=
    ⟨rfl, descendingAt 20000 7000, by simp [descending], rfl⟩
  exact ⟨f, f', hf, hf', forecast_ignores_future (by decide) (by decide) (by decide) (by decide)
    past past' (by decide) hf hf', by decide +kernel⟩

end TrackPair
end AirTraffic
