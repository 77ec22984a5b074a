import AirTraffic.Proofs.InPlace.Spacing
import AirTraffic.Proofs.Track.Reading

/-!
# Crowded reports

A report stays if there is time enough both since the one before it and until the one after it.
Those that stay are spaced, also where whole crowds have gone between them, so nothing is crowded
any more.
-/
namespace AirTraffic.Crowding

open Report

variable {α ρ : Type} (c : Crowding)

/-- Long enough after the time before and before the time after, where there are such. -/
def Apart (times : List Int) (j : Nat) : Prop :=
  ∀ t ∈ times[j]?, (∀ u ∈ (times.take j).getLast?, c.minimumMs ≤ t - u) ∧
    ∀ u ∈ times[j + 1]?, c.minimumMs ≤ u - t

instance (times : List Int) (j : Nat) : Decidable (c.Apart times j) :=
  inferInstanceAs (Decidable (∀ t ∈ times[j]?,
    (∀ u ∈ (times.take j).getLast?, c.minimumMs ≤ t - u) ∧
      ∀ u ∈ times[j + 1]?, c.minimumMs ≤ u - t))

variable {c}

theorem closeAt_zero (times : List Int) : c.closeAt times 0 = false := by
  rcases times with _ | ⟨t, _ | ⟨u, rest⟩⟩ <;> rfl

theorem closeAt_succ_eq_false_iff {times : List Int} {k : Nat} :
    c.closeAt times (k + 1) = false ↔
      ∀ t ∈ times[k]?, ∀ u ∈ times[k + 1]?, c.minimumMs ≤ u - t := by
  by_cases inside : k + 1 < times.length
  · have here := List.getElem?_eq_getElem (Nat.lt_of_succ_lt inside)
    have next := List.getElem?_eq_getElem inside
    simp [closeAt_of_lt c inside, here, next]
  · have beyond := Nat.not_lt.mp inside
    simp [closeAt_of_ge c beyond, List.getElem?_eq_none beyond]

theorem apart_iff {times : List Int} {j : Nat} (inside : j < times.length) :
    c.Apart times j ↔ c.closeAt times j = false ∧ c.closeAt times (j + 1) = false := by
  have later : c.closeAt times (j + 1) = false ↔
      ∀ t ∈ times[j]?, ∀ u ∈ times[j + 1]?, c.minimumMs ≤ u - t := closeAt_succ_eq_false_iff
  have earlier : c.closeAt times j = false ↔
      ∀ t ∈ times[j]?, ∀ u ∈ (times.take j).getLast?, c.minimumMs ≤ t - u := by
    rcases j with _ | i
    · simp [closeAt_zero]
    · rw [closeAt_succ_eq_false_iff, getLast?_take_succ (Nat.lt_of_succ_lt inside)]
      constructor
      · intro far t ht u hu
        exact far u hu t ht
      · intro far u hu t ht
        exact far t ht u hu
  rw [earlier, later]
  constructor
  · intro apart
    exact ⟨fun t ht => (apart t ht).1, fun t ht => (apart t ht).2⟩
  · rintro ⟨since, ahead⟩ t ht
    exact ⟨since t ht, ahead t ht⟩

theorem flags_eq_map (times : List Int) :
    c.flags times = (List.range' 0 times.length).map fun j => !decide (c.Apart times j) := by
  rw [flags, flagsFrom_eq]
  refine List.ext_getElem (by simp) fun j hj _ => ?_
  rw [List.length_mapIdx] at hj
  have flag : (c.closeAt times j || c.closeAt times (j + 1)) = !decide (c.Apart times j) := by
    by_cases apart : c.Apart times j
    · simpa [apart] using (apart_iff hj).mp apart
    · have crowded := mt (apart_iff hj).mpr apart
      simpa [apart, imp_iff_not_or] using crowded
  simpa using flag

def apartIn (c : Crowding) (reports : List (Report α ρ)) : List (Report α ρ) :=
  (reports.zipIdx.filter fun p => c.Apart (times reports) p.2).map Prod.fst

theorem dropFlagged_flags (reports : List (Report α ρ)) :
    dropFlagged (c.flags (times reports)) reports = c.apartIn reports := by
  rw [flags_eq_map, times, List.length_map, dropFlagged_of_index]
  simp only [Bool.not_not]
  rfl

theorem Apart.spaced {times : List Int} (order : times.Pairwise (· ≤ ·)) {i j : Nat}
    (apart : c.Apart times i) (before : i < j) {t u : Int} (ht : times[i]? = some t)
    (hu : times[j]? = some u) : t + c.minimumMs ≤ u := by
  obtain ⟨inside, -⟩ := List.getElem?_eq_some_iff.mp hu
  have next := List.getElem?_eq_getElem (Nat.lt_of_le_of_lt before inside)
  have far := (apart t ht).2 _ next
  have onward := le_of_order order before next hu
  omega

theorem apartIn_spaced {reports : List (Report α ρ)} (order : InOrder reports) :
    Spaced c.minimumMs (times (c.apartIn reports)) := by
  rw [Spaced, times, apartIn, List.pairwise_map, List.pairwise_map, List.pairwise_filter,
    List.pairwise_iff_getElem]
  intro i j hi hj before
  rw [List.getElem_zipIdx, List.getElem_zipIdx, Nat.zero_add, Nat.zero_add, decide_eq_true_eq]
  intro apart _
  exact apart.spaced order before (getElem?_times (List.getElem?_eq_getElem _))
    (getElem?_times (List.getElem?_eq_getElem _))

variable [Scalar α]

/-- Of an ordered track, the reports far enough from both their neighbours are left, and there is no
track if there are none. Cleaned again it stays as it is. -/
theorem clean_keeps_apart (c : Crowding) {track : Track α ρ} (ordered : track.Ordered) :
    (c.clean track = none ↔ ∀ j < track.size, ¬c.Apart (times track.reports) j) ∧
    ∀ out, c.clean track = some out → out.reports = c.apartIn track.reports ∧
      Spaced c.minimumMs (times out.reports) ∧ c.clean out = some out := by
  have spaced := apartIn_spaced (c := c) ordered
  have sorted := Report.sort_of_increase (spaced.increase c.positive)
  have cleaned : c.clean track = Track.ofReports? (c.apartIn track.reports) :=
    congrArg Track.ofReports? (dropFlagged_flags track.reports)
  constructor
  · have empty : c.clean track = none ↔ c.apartIn track.reports = [] := by
      rw [cleaned, Track.ofReports?, sorted]
      simp
    rw [empty, apartIn, List.map_eq_nil_iff, List.filter_eq_nil_iff]
    constructor
    · intro crowded j hj
      have entry := List.mk_mem_zipIdx_iff_getElem?.mpr (List.getElem?_eq_getElem hj)
      simpa using crowded _ entry
    · rintro crowded ⟨r, j⟩ entry
      have inside := (List.getElem?_eq_some_iff.mp (List.mk_mem_zipIdx_iff_getElem?.mp entry)).1
      simpa using crowded j inside
  · intro out found
    have left : out.reports = c.apartIn track.reports := by
      rw [Track.ofReports?_eq_some_iff.mp (cleaned.symm.trans found), sorted]
    rw [← left] at spaced
    have again : c.clean out = some out := by
      have kept := dropFlagged_of_unflagged (flags_of_spaced spaced) out.reports
      exact (congrArg Track.ofReports? kept).trans
        (Track.ofReports?_reports out (spaced.increase c.positive))
    exact ⟨left, spaced, again⟩

def crowdedTwice : Track ℚ Unit :=
  ⟨[0, 4000, 4200, 8000, 12000, 12000, 16000].map fun time =>
    Track.equatorAt (time, time / 100000, none),
    by simp⟩

theorem crowdedTwice_spaced : crowdedTwice.Ordered ∧ ∃ out, standard.clean crowdedTwice = some out ∧
    times out.reports = [0, 8000, 16000] ∧ Spaced 500 (times out.reports) ∧
    standard.clean out = some out := by
  have ordered : crowdedTwice.Ordered := by decide
  obtain ⟨absent, present⟩ := clean_keeps_apart standard ordered
  have some : standard.clean crowdedTwice ≠ none := by
    intro none
    exact absurd (absent.mp none 0 (by decide)) (by decide)
  obtain ⟨out, found⟩ := Option.ne_none_iff_exists'.mp some
  obtain ⟨left, spaced, again⟩ := present out found
  have three : times (standard.apartIn crowdedTwice.reports) = [0, 8000, 16000] := by decide
  exact ⟨ordered, out, found, by rw [left, three], spaced, again⟩

end AirTraffic.Crowding
