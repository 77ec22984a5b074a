import AirTraffic.Proofs.Encounter.Segment
import AirTraffic.Proofs.InPlace.AltitudeProfile

/-!
# Readings by index

The samples of a separation as arrays, one for each part. A reading searches the times for an
instant by halving them, and takes the entries beside the place that it finds. In the span of the
samples it stays inside the arrays, and it reads what the broken line through the samples says.
-/
namespace AirTraffic

namespace InPlace

/-- Where an instant stands among times, or would stand. -/
inductive Place where
  | found (index : Nat)
  | missing (index : Nat)
  deriving DecidableEq, Repr

def search (times : List Int) (t : Int) (lo hi : Nat) : Checked Place :=
  if lo < hi then do
    let time ← read times ((lo + hi) / 2)
    if time < t then search times t ((lo + hi) / 2 + 1) hi
    else if t < time then search times t lo ((lo + hi) / 2)
    else return .found ((lo + hi) / 2)
  else return .missing lo
termination_by hi - lo

/-- The index at which the segment of an instant starts. -/
def Place.start : Place → Checked Nat
  | found index => return index
  | missing index => difference index 1

variable {α : Type}

section Read

variable [Scalar α]

def separationAt (times : List Int) (values : List α) (t : Int) : Checked α := do
  match ← search times t 0 times.length with
  | .found index => read values index
  | .missing index =>
    let start ← difference index 1
    let span := TimeSpan.between (← read times start) (← read times index)
    let value ← read values start
    return value + span.fraction t * ((← read values index) - value)

def closureAt (times : List Int) (values : List α) (t : Int) : Checked α := do
  let found ← (← search times t 0 times.length).start
  let start := min found (← difference times.length 2)
  let duration := (← read times (start + 1)) - (← read times start)
  return ((← read values start) - (← read values (start + 1))) / Scalar.ofInt duration

end Read

/-- The span is looked at first. -/
def inSpan (p : SeparationProfile α) (t : Int) (reading : Checked α) :
    Checked (Except (SeparationError α) α) :=
  if p.span.contains t then .ok <$> reading
  else return .error (.outsideSpan t p.span.start p.span.stop)

section Search

variable {before rest : List Int} {time t : Int}

/-- The place in question stays between the two indices until it is met, or none is left. -/
theorem search_append_cons (hbefore : ∀ u ∈ before, u < t) (ht : t ≤ time)
    (hrest : ∀ u ∈ rest, t < u) {lo hi : Nat} (hlo : lo ≤ before.length) (hhi : before.length ≤ hi)
    (hin : hi ≤ (before ++ time :: rest).length) (hfound : time = t → before.length < hi) :
    search (before ++ time :: rest) t lo hi =
      .ok (if time = t then .found before.length else .missing before.length) := by
  fun_induction search (before ++ time :: rest) t lo hi with
  | case1 lo hi hlt ihAbove ihBelow =>
    have inside : (lo + hi) / 2 < (before ++ time :: rest).length := by omega
    rw [read_of_lt inside, ok_bind]
    rcases Nat.lt_trichotomy ((lo + hi) / 2) before.length with early | here | late
    · have below : (before ++ time :: rest)[(lo + hi) / 2] < t := by
        rw [List.getElem_append_left early]
        exact hbefore _ (List.getElem_mem early)
      rw [if_pos below]
      exact ihAbove early hhi hin hfound
    · have met : (before ++ time :: rest)[(lo + hi) / 2] = time := by
        rw [List.getElem_append_right (Nat.le_of_eq here.symm)]
        simp only [here, Nat.sub_self, List.getElem_cons_zero]
      rw [met, if_neg (Int.not_lt.mpr ht)]
      by_cases same : time = t
      · rw [if_neg (by omega), if_pos same, here]
        rfl
      · rw [if_pos (by omega)]
        exact ihBelow hlo (Nat.le_of_eq here.symm) (Nat.le_of_lt inside) fun h => absurd h same
    · have above : t < (before ++ time :: rest)[(lo + hi) / 2] := by
        rw [List.getElem_append_right (Nat.le_of_lt late), List.getElem_cons, dif_neg (by omega)]
        exact hrest _ (List.getElem_mem _)
      rw [if_neg (by omega), if_pos above]
      exact ihBelow hlo (Nat.le_of_lt late) (Nat.le_of_lt inside) fun _ => late
  | case2 lo hi hge =>
    have passed : time ≠ t := fun h => by
      have := hfound h
      omega
    have ended : lo = before.length := by omega
    rw [if_neg passed, ended]
    rfl

theorem search_eq (hbefore : ∀ u ∈ before, u < t) (ht : t ≤ time) (hrest : ∀ u ∈ rest, t < u) :
    search (before ++ time :: rest) t 0 (before ++ time :: rest).length =
      .ok (if time = t then .found before.length else .missing before.length) := by
  have inside : before.length < (before ++ time :: rest).length := by simp
  exact search_append_cons hbefore ht hrest (Nat.zero_le _) (Nat.le_of_lt inside) (Nat.le_refl _)
    fun _ => inside

end Search

end InPlace

namespace SeparationProfile

open InPlace

def times (p : SeparationProfile α) : List Int := p.samples.map (·.time)

def values (p : SeparationProfile α) (axis : Axis) : List α := p.samples.map (·.on axis)

section Cut

variable {p : SeparationProfile α} {earlier later : List (Separation α)} {s q : Separation α}
  {t : Int} (cut : p.samples = earlier ++ s :: q :: later)

include cut

theorem read_start {β : Type} (part : Separation α → β) :
    read (p.samples.map part) earlier.length = .ok (part s) := by
  rw [cut]
  exact read_map_append_cons part earlier (q :: later) s

theorem read_stop {β : Type} (part : Separation α → β) :
    read (p.samples.map part) (earlier.length + 1) = .ok (part q) := by
  have further : p.samples = (earlier ++ [s]) ++ q :: later := by
    rw [cut, List.append_assoc]
    rfl
  have index : earlier.length + 1 = (earlier ++ [s]).length := by
    rw [List.length_append, List.length_singleton]
  rw [further, index]
  exact read_map_append_cons part (earlier ++ [s]) later q

theorem search_times (after : s.time ≤ t) (before : t ≤ q.time) :
    search p.times t 0 p.times.length = .ok (if s.time = t then .found earlier.length
      else if q.time = t then .found (earlier.length + 1) else .missing (earlier.length + 1)) := by
  have hearlier : ∀ u ∈ earlier.map (·.time), u < s.time := List.forall_mem_map.mpr (earlier_lt cut)
  have hlater : ∀ u ∈ later.map (·.time), q.time < u := List.forall_mem_map.mpr (later_lt cut)
  have step := neighbours_lt cut
  have whole : p.times = earlier.map (·.time) ++ s.time :: q.time :: later.map (·.time) := by
    rw [times, cut, List.map_append, List.map_cons, List.map_cons]
  by_cases start : s.time = t
  · have rest : ∀ u ∈ q.time :: later.map (·.time), t < u := by
      refine List.forall_mem_cons.mpr ⟨by omega, fun u hu => ?_⟩
      have := hlater u hu
      omega
    rw [whole, search_eq (fun u hu => start ▸ hearlier u hu) (Int.le_of_eq start.symm) rest,
      if_pos start, if_pos start, List.length_map]
  · have further : p.times = (earlier.map (·.time) ++ [s.time]) ++
        q.time :: later.map (·.time) := by
      rw [whole, List.append_assoc]
      rfl
    have init : ∀ u ∈ earlier.map (·.time) ++ [s.time], u < t := by
      refine List.forall_mem_append.mpr ⟨fun u hu => ?_, List.forall_mem_singleton.mpr (by omega)⟩
      exact Int.lt_of_lt_of_le (hearlier u hu) after
    have rest : ∀ u ∈ later.map (·.time), t < u :=
      fun u hu => Int.lt_of_le_of_lt before (hlater u hu)
    rw [further, search_eq init before rest, if_neg start, List.length_append, List.length_map,
      List.length_singleton]

theorem length_times : p.times.length = earlier.length + 2 + later.length := by
  rw [times, cut, List.length_map, List.length_append, List.length_cons, List.length_cons]
  omega

variable [Scalar α]

theorem separationAt_by_index (after : s.time ≤ t) (before : t ≤ q.time) (axis : Axis) :
    separationAt p.times (p.values axis) t =
      .ok (if s.time = t then s.on axis else if q.time = t then q.on axis
        else Polyline.between (s.time, s.on axis) (q.time, q.on axis) t) := by
  unfold separationAt
  rw [search_times cut after before, ok_bind]
  by_cases start : s.time = t
  · rw [if_pos start, if_pos start]
    exact read_start cut _
  · rw [if_neg start, if_neg start]
    by_cases stop : q.time = t
    · rw [if_pos stop, if_pos stop]
      exact read_stop cut _
    · have step := neighbours_lt cut
      have start_eq : min s.time q.time = s.time := Int.min_eq_left (Int.le_of_lt step)
      have stop_eq : max s.time q.time = q.time := Int.max_eq_right (Int.le_of_lt step)
      have share : (TimeSpan.between s.time q.time).fraction t =
          (Scalar.ofInt (t - s.time) / Scalar.ofInt (q.time - s.time) : α) := by
        have wide : q.time - s.time ≠ 0 := by omega
        simp only [TimeSpan.fraction, TimeSpan.duration, TimeSpan.between, start_eq, stop_eq,
          if_neg wide]
      rw [if_neg stop, if_neg stop]
      dsimp only
      rw [difference_of_le (Nat.le_add_left 1 _), ok_bind, Nat.add_sub_cancel, times, values,
        read_start cut, ok_bind, read_stop cut, ok_bind, read_start cut, ok_bind, read_stop cut,
        ok_bind, share]
      rfl

theorem closureAt_by_index (after : s.time ≤ t) (before : t ≤ q.time)
    (ending : t < q.time ∨ later = []) (axis : Axis) :
    InPlace.closureAt p.times (p.values axis) t =
      .ok (Polyline.descent (s.time, s.on axis) (q.time, q.on axis)) := by
  have length := length_times cut
  have least : difference p.times.length 2 = .ok (earlier.length + later.length) := by
    rw [difference_of_le (by omega)]
    exact congrArg Except.ok (by omega)
  have found : ∃ index, (search p.times t 0 p.times.length >>= Place.start) = .ok index ∧
      min index (earlier.length + later.length) = earlier.length := by
    rw [search_times cut after before, ok_bind]
    by_cases start : s.time = t
    · rw [if_pos start]
      exact ⟨_, rfl, Nat.min_eq_left (Nat.le_add_right _ _)⟩
    · rw [if_neg start]
      by_cases stop : q.time = t
      · have ended : later = [] := ending.resolve_left (by omega)
        rw [if_pos stop, ended]
        exact ⟨_, rfl, Nat.min_eq_right (Nat.le_succ _)⟩
      · rw [if_neg stop]
        refine ⟨earlier.length, difference_of_le (Nat.le_add_left 1 _), ?_⟩
        exact Nat.min_eq_left (Nat.le_add_right _ _)
  obtain ⟨index, hindex, hstart⟩ := found
  unfold InPlace.closureAt
  rw [← bind_assoc, hindex, ok_bind, least, ok_bind, hstart]
  dsimp only
  rw [times, values, read_stop cut, ok_bind, read_start cut, ok_bind, read_start cut, ok_bind,
    read_stop cut, ok_bind]
  rfl

end Cut

variable [Scalar α] (p : SeparationProfile α) (axis : Axis) (t : Int)

theorem inSpan_separationAt : InPlace.inSpan p t (separationAt p.times (p.values axis) t) =
    .ok (p.valueAt (p.line axis) t) := by
  unfold InPlace.inSpan
  by_cases inside : p.span.contains t
  · obtain ⟨earlier, s, q, later, cut, after, before, -⟩ := exists_segment inside
    rw [if_pos inside, separationAt_by_index cut after before, valueAt_of_cut cut after before]
    rfl
  · rw [if_neg inside, valueAt_of_outside inside]
    rfl

theorem inSpan_closureAt : InPlace.inSpan p t (InPlace.closureAt p.times (p.values axis) t) =
    .ok (p.closureAt (p.line axis) t) := by
  unfold InPlace.inSpan
  by_cases inside : p.span.contains t
  · obtain ⟨earlier, s, q, later, cut, after, before, ending⟩ := exists_segment inside
    rw [if_pos inside, closureAt_by_index cut after before ending,
      closureAt_of_cut cut after before ending]
    rfl
  · rw [if_neg inside, closureAt_of_outside inside]
    rfl

end SeparationProfile

end AirTraffic
