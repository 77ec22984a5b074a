import AirTraffic.Cleaning.AltitudeProfile
import AirTraffic.Proofs.InPlace.MovingWindow
import AirTraffic.Proofs.Polyline
import AirTraffic.Proofs.TimeSpan
import AirTraffic.Proofs.Track.Order

/-!
# Altitude profiles resampled in place

Times and values are two arrays of one length: those of the measurements, which are read at the
sample times, and those of the smooth samples, which are read back at the times of the reports.
-/
namespace AirTraffic

open Scalar Report

variable {α ρ : Type}

namespace InPlace

/-- The search stops at the first sample from an instant on. -/
theorem partitionPoint_append_cons {before rest : Polyline α} {q : Int × α} {t : Int}
    (hbefore : ∀ p ∈ before, p.1 < t) (hrest : ∀ p ∈ q :: rest, t ≤ p.1) :
    partitionPoint (· < t) ((before ++ q :: rest).map (·.1)) 0
      ((before ++ q :: rest).map (·.1)).length = .ok before.length := by
  have early : ∀ time ∈ before.map (·.1), decide (time < t) := by
    intro time ht
    obtain ⟨p, hp, rfl⟩ := List.mem_map.mp ht
    exact decide_eq_true (hbefore p hp)
  have late : ∀ time ∈ (q :: rest).map (·.1), ¬decide (time < t) := by
    intro time ht
    obtain ⟨p, hp, rfl⟩ := List.mem_map.mp ht
    simpa using hrest p hp
  rw [List.map_append]
  refine (partitionPoint_append early late (Nat.zero_le _) ?_ (Nat.le_refl _)).trans ?_
  · rw [List.length_append]
    exact Nat.le_add_right _ _
  · rw [List.length_map]

variable [Scalar α]

def interpolateAt (times : List Int) (values : List α) (t : Int) : Checked (Option α) := do
  match times.head?, times.getLast? with
  | some first, some last =>
    if t < first ∨ last < t then return none
    else
      let hi ← partitionPoint (· < t) times 0 times.length
      let time ← read times hi
      let value ← read values hi
      if time = t then return some value
      else
        let lo ← difference hi 1
        return some (Polyline.between (← read times lo, ← read values lo) (time, value) t)
  | _, _ => return none

def sampleTimes (stepMs : Int) (span : TimeSpan) : Checked (List Int) := do
  let partialStep ← remainder span.duration stepMs
  return if partialStep = 0 then span.steps stepMs else (span.steps stepMs).dropLast

def follow (fixed : List Int) (smoothed : List α) (r : Report α ρ) : Checked (Report α ρ) := do
  match ← interpolateAt fixed smoothed r.time with
  | some altitude => return r.withAltitude (some altitude)
  | none => return r

def followSmoothed (s : AltitudeProfile α) (span : TimeSpan) (reports : List (Report α ρ))
    (altitudes : List α) : Checked (List (Report α ρ)) := do
  let fixed ← sampleTimes s.stepMs span
  let raw ← fixed.mapM (interpolateAt (reports.map (·.time)) altitudes)
  let smoothed ← smooth s.filter (raw.filterMap id)
  reports.mapM (follow fixed smoothed)

def profileAltitudes (s : AltitudeProfile α) (reports : List (Report α ρ)) :
    Checked (List (Report α ρ)) := do
  if reports.isEmpty then return reports
  else
    let first ← read reports 0
    let last ← read reports (← difference reports.length 1)
    let span := TimeSpan.between first.time last.time
    if span.duration < 2 * s.stepMs then return reports
    else
      match reports.mapM (·.altitude) with
      | none => return reports
      | some altitudes => followSmoothed s span reports altitudes

theorem read_map_append_cons {β γ : Type} (f : β → γ) (before rest : List β) (x : β) :
    read ((before ++ x :: rest).map f) before.length = .ok (f x) := by
  have inside : before.length < ((before ++ x :: rest).map f).length := by simp
  rw [read_of_lt inside, List.getElem_map, List.getElem_append_right (Nat.le_refl _)]
  simp only [Nat.sub_self, List.getElem_cons_zero]

section Interpolate

variable {line before rest : Polyline α} {p q : Int × α} {t : Int}

theorem interpolateAt_of_outside {times : List Int} {first last : Int}
    (hfirst : times.head? = some first) (hlast : times.getLast? = some last)
    (outside : t < first ∨ last < t) (values : List α) :
    interpolateAt times values t = .ok none := by
  unfold interpolateAt
  rw [hfirst, hlast]
  exact if_pos outside

theorem interpolateAt_append_cons {first last : Int}
    (hfirst : ((before ++ q :: rest).map (·.1)).head? = some first)
    (hlast : ((before ++ q :: rest).map (·.1)).getLast? = some last)
    (hbefore : ∀ p ∈ before, p.1 < t) (hrest : ∀ p ∈ q :: rest, t ≤ p.1)
    (inside : ¬(t < first ∨ last < t)) :
    interpolateAt ((before ++ q :: rest).map (·.1)) ((before ++ q :: rest).map (·.2)) t =
      .ok (if q.1 = t then some q.2 else before.getLast?.map (Polyline.between · q t)) := by
  unfold interpolateAt
  rw [hfirst, hlast]
  dsimp only
  rw [if_neg inside, partitionPoint_append_cons hbefore hrest, ok_bind, read_map_append_cons,
    ok_bind, read_map_append_cons, ok_bind]
  by_cases here : q.1 = t
  · rw [if_pos here, if_pos here]
    rfl
  · rw [if_neg here, if_neg here]
    rcases List.eq_nil_or_concat' before with rfl | ⟨init, p, rfl⟩
    · have first_eq : q.1 = first := Option.some.inj hfirst
      have := hrest q List.mem_cons_self
      omega
    · have last_before : (init ++ [p]).length - 1 = init.length := by
        rw [List.length_append, List.length_singleton, Nat.add_sub_cancel]
      rw [difference_of_le (by simp), ok_bind, last_before, List.append_assoc,
        List.singleton_append, read_map_append_cons, ok_bind, read_map_append_cons, ok_bind,
        List.getLast?_append]
      rfl

theorem interpolateAt_map (order : line.Pairwise fun p r => p.1 ≤ r.1) (t : Int) :
    interpolateAt (line.map (·.1)) (line.map (·.2)) t = .ok (Polyline.value? line t) := by
  rcases List.eq_nil_or_concat' line with rfl | ⟨init, z, hz⟩
  · rfl
  have hz' : z ∈ line := by
    rw [hz]
    exact List.mem_concat_self
  obtain ⟨a, tail, ha⟩ := List.exists_cons_of_ne_nil (List.ne_nil_of_mem hz')
  have hfirst : (line.map (·.1)).head? = some a.1 := by
    rw [ha]
    rfl
  have hlast : (line.map (·.1)).getLast? = some z.1 := by
    rw [hz, List.map_append, List.getLast?_append]
    rfl
  by_cases early : t < a.1
  · rw [interpolateAt_of_outside hfirst hlast (.inl early), ha,
      Polyline.value?_of_le_head (Int.le_of_lt early), if_neg (by omega)]
  by_cases late : z.1 < t
  · have before : ∀ p ∈ line, p.1 < t := by
      rw [hz] at order ⊢
      obtain ⟨-, -, up⟩ := List.pairwise_append.mp order
      refine List.forall_mem_append.mpr ⟨fun p hp => ?_, List.forall_mem_singleton.mpr late⟩
      exact Int.lt_of_le_of_lt (up p hp z List.mem_cons_self) late
    rw [interpolateAt_of_outside hfirst hlast (.inr late), Polyline.value?_of_all_before before]
  · obtain ⟨before, q, rest, cut, hbefore, hrest⟩ :=
      Polyline.exists_cut order hz' (Int.not_lt.mp late)
    rw [cut] at hfirst hlast ⊢
    rw [interpolateAt_append_cons hfirst hlast hbefore hrest (by omega),
      Polyline.value?_append_cons hbefore (hrest q List.mem_cons_self)]

end Interpolate

end InPlace

namespace AltitudeProfile

open InPlace

section Measured

variable {reports : List (Report α ρ)} {measured : Polyline α}

theorem altitudes_eq (reports : List (Report α ρ)) :
    reports.mapM (·.altitude) = (measured? reports).map (List.map Prod.snd) := by
  unfold measured?
  induction reports with
  | nil => rfl
  | cons r reports ih =>
    rw [List.mapM_cons, List.mapM_cons, ih]
    cases r.altitude with
    | none => rfl
    | some altitude =>
      cases reports.mapM fun r => r.altitude.map (r.time, ·) with
      | none => rfl
      | some rest => rfl

theorem measured_times (h : measured? reports = some measured) :
    measured.map Prod.fst = times reports := by
  unfold measured? at h
  induction reports generalizing measured with
  | nil =>
    cases h
    rfl
  | cons r reports ih =>
    rw [List.mapM_cons] at h
    obtain ⟨sample, hsample, h⟩ := Option.bind_eq_some_iff.mp h
    obtain ⟨rest, hrest, h⟩ := Option.bind_eq_some_iff.mp h
    obtain ⟨altitude, -, rfl⟩ := Option.map_eq_some_iff.mp hsample
    cases h
    rw [List.map_cons, ih hrest]
    rfl

theorem measured_order (order : InOrder reports) (h : measured? reports = some measured) :
    measured.Pairwise fun p q => p.1 ≤ q.1 := by
  rw [← List.pairwise_map, measured_times h]
  exact order

end Measured

variable {stepMs : Int}

theorem sampleTimes_sublist (stepMs : Int) (span : TimeSpan) :
    (sampleTimes stepMs span).Sublist (span.steps stepMs) := by
  unfold sampleTimes
  dsimp only
  split
  · exact List.Sublist.refl _
  · exact List.dropLast_sublist _

theorem sampleTimes_eq (hstep : 0 < stepMs) (span : TimeSpan) :
    InPlace.sampleTimes stepMs span = .ok (sampleTimes stepMs span) := by
  unfold InPlace.sampleTimes InPlace.remainder
  rw [if_neg (Int.ne_of_gt hstep)]
  rfl

variable [Scalar α] {reports : List (Report α ρ)} {measured : Polyline α} {first last : Report α ρ}

theorem length_resampled (hstep : 0 < stepMs) (order : InOrder reports)
    (hmeasured : measured? reports = some measured)
    (hfirst : reports.head? = some first) (hlast : reports.getLast? = some last) :
    ((sampleTimes stepMs (.between first.time last.time)).filterMap measured.value?).length =
      (sampleTimes stepMs (.between first.time last.time)).length := by
  refine List.filterMap_length_eq_length.mpr fun t ht => ?_
  have within := TimeSpan.steps_within _ hstep ((sampleTimes_sublist _ _).mem ht)
  have htimes := measured_times hmeasured
  have head : (measured.map Prod.fst).head? = some first.time := by
    rw [htimes, times, List.head?_map, hfirst]
    rfl
  have tail : (measured.map Prod.fst).getLast? = some last.time := by
    rw [htimes, times, List.getLast?_map, hlast]
    rfl
  rw [List.head?_map] at head
  rw [List.getLast?_map] at tail
  obtain ⟨a, ha, hat⟩ := Option.map_eq_some_iff.mp head
  obtain ⟨z, hz, hzt⟩ := Option.map_eq_some_iff.mp tail
  have upward := order.head_le hfirst last (List.mem_of_getLast? hlast)
  have span : (TimeSpan.between first.time last.time).start = first.time ∧
      (TimeSpan.between first.time last.time).stop = last.time :=
    ⟨Int.min_eq_left upward, Int.max_eq_right upward⟩
  exact Polyline.value?_isSome (measured_order order hmeasured) ha (List.mem_of_getLast? hz)
    (by omega) (by omega)

theorem length_smoothed {s : AltitudeProfile α} (shaped : s.filter.Shaped) (order : InOrder reports)
    (hmeasured : measured? reports = some measured) (hfirst : reports.head? = some first)
    (hlast : reports.getLast? = some last) :
    (s.filter.smooth ((sampleTimes s.stepMs (.between first.time last.time)).filterMap
      measured.value?)).length = (sampleTimes s.stepMs (.between first.time last.time)).length :=
  (shaped.length_smooth _).trans (length_resampled s.positive order hmeasured hfirst hlast)

theorem resample_eq (order : InOrder reports)
    (hmeasured : measured? reports = some measured) (fixed : List Int) :
    fixed.mapM (interpolateAt (reports.map (·.time)) (measured.map Prod.snd)) =
      .ok (fixed.map measured.value?) := by
  have htimes : reports.map (·.time) = measured.map Prod.fst := (measured_times hmeasured).symm
  rw [htimes]
  refine mapM_ok fun t _ => ?_
  exact interpolateAt_map (measured_order order hmeasured) t

theorem follow_eq {fixed : List Int} {smooth : List α} (length : smooth.length = fixed.length)
    (increase : fixed.Pairwise (· < ·)) (r : Report α ρ) :
    InPlace.follow fixed smooth r = .ok (follow (fixed.zip smooth) r) := by
  have order : (fixed.zip smooth).Pairwise fun p q => p.1 ≤ q.1 := by
    rw [← List.pairwise_map, List.map_fst_zip (Nat.le_of_eq length.symm)]
    exact increase.imp Int.le_of_lt
  have found := interpolateAt_map order r.time
  rw [List.map_fst_zip (Nat.le_of_eq length.symm), List.map_snd_zip (Nat.le_of_eq length)] at found
  unfold InPlace.follow follow
  rw [found, ok_bind]
  cases Polyline.value? (fixed.zip smooth) r.time with
  | none => rfl
  | some altitude => rfl

theorem followSmoothed_eq {s : AltitudeProfile α} (shaped : s.filter.Shaped)
    (order : InOrder reports) (hmeasured : measured? reports = some measured)
    (hfirst : reports.head? = some first) (hlast : reports.getLast? = some last) :
    followSmoothed s (.between first.time last.time) reports (measured.map Prod.snd) =
      .ok (reports.map (follow (s.smoothed (.between first.time last.time) measured))) := by
  let span := TimeSpan.between first.time last.time
  have increase : (sampleTimes s.stepMs span).Pairwise (· < ·) :=
    (span.steps_increase s.positive).sublist (sampleTimes_sublist s.stepMs span)
  have length := length_smoothed shaped order hmeasured hfirst hlast
  unfold followSmoothed
  rw [sampleTimes_eq s.positive, ok_bind, resample_eq order hmeasured, ok_bind,
    List.filterMap_map, Function.id_comp, shaped.smooth_eq, ok_bind]
  exact mapM_ok fun r _ => follow_eq length increase r

theorem clean_eq {s : AltitudeProfile α} (shaped : s.filter.Shaped) (order : InOrder reports) :
    profileAltitudes s reports = .ok (s.clean reports) := by
  rcases List.eq_nil_or_concat' reports with rfl | ⟨init, last, hlast⟩
  · rfl
  have hlast : reports.getLast? = some last := by rw [hlast, List.getLast?_concat]
  cases reports with
  | nil => cases hlast
  | cons first rest =>
    have read_last : read (first :: rest) rest.length = .ok last := by
      refine read_of_getElem? ?_
      rw [List.getLast?_eq_getElem?] at hlast
      exact hlast
    have one : 1 ≤ (first :: rest).length := Nat.succ_pos _
    have read_first : read (first :: rest) 0 = .ok first := read_of_getElem? rfl
    unfold profileAltitudes
    rw [List.isEmpty_cons, if_neg Bool.false_ne_true, read_first, ok_bind,
      difference_of_le one, ok_bind, List.length_cons, Nat.add_sub_cancel, read_last, ok_bind,
      altitudes_eq]
    unfold clean
    rw [List.head?_cons, hlast]
    cases hmeasured : measured? (first :: rest) with
    | none =>
      dsimp only [Option.map_none]
      split <;> rfl
    | some measured =>
      dsimp only [Option.map_some]
      by_cases short : (TimeSpan.between first.time last.time).duration < 2 * s.stepMs
      · rw [if_pos short, if_pos short]
        rfl
      · rw [if_neg short, if_neg short]
        exact followSmoothed_eq shaped order hmeasured rfl hlast

end AltitudeProfile

end AirTraffic
