import AirTraffic.Proofs.Cleaning.AltitudeProfile

/-!
# The steps of a span, one after another

The steps are listed in a loop that stops short of the end, and the end follows. The states that the
loop comes to are those after so many rounds, which gives what it ends with: each end once, and even
gaps but for the last. Without the end, where that is not on a step, every step inside the span is
left.
-/
namespace AirTraffic

namespace TimeSpan

/-- How far the loop has come: the time it stands at, and those it has listed. -/
structure Listing where
  time : Int
  listed : List Int

section Listing

variable (w : TimeSpan) (step : Int)

/-- In a round a time before the end is listed, and the next one is a step on. From the end on there
are no more rounds. -/
def round? (s : Listing) : Option Listing :=
  if s.time < w.stop then some ⟨s.time + step, s.listed ++ [s.time]⟩ else none

inductive Reached : Listing → Prop where
  | start : Reached ⟨w.start, []⟩
  | round {s s'} : Reached s → w.round? step s = some s' → Reached s'

/-- The end follows, unless it comes last already. -/
def close (times : List Int) : List Int :=
  if times.getLast? = some w.stop then times else times ++ [w.stop]

/-- What the loop ends with. There is none for a step that does not lead forward. -/
inductive Lists : List Int → Prop where
  | forward {s} : 0 < step → w.Reached step s → w.round? step s = none → Lists (w.close s.listed)
  | still : ¬0 < step → Lists (w.close [w.start])

/-- The loop after so many rounds. -/
def after (n : Nat) : Listing :=
  ⟨w.start + n * step, (List.range n).map fun i : Nat => w.start + i * step⟩

theorem start_add_succ (n : Nat) :
    w.start + (n + 1 : Nat) * step = w.start + n * step + step := by
  rw [Int.natCast_succ, Int.add_mul, Int.one_mul, Int.add_assoc]

variable {w step}

theorem close_of_before {times : List Int} (before : ∀ t ∈ times, t < w.stop) :
    w.close times = times ++ [w.stop] := by
  refine if_neg fun last => ?_
  exact Int.lt_irrefl _ (before _ (List.mem_of_getLast? last))

variable (w) (hstep : 0 < step)

include hstep

theorem round?_after (n : Nat) : w.round? step (w.after step n) =
    if n < w.stepCount step then some (w.after step (n + 1)) else none := by
  have next : w.after step (n + 1) = ⟨(w.after step n).time + step,
      (w.after step n).listed ++ [(w.after step n).time]⟩ := by
    simp only [after, List.range_succ, List.map_append, List.map_singleton, w.start_add_succ step]
  have early : (w.after step n).time < w.stop ↔ n < w.stepCount step := w.lt_stop_iff hstep n
  simp only [round?, next, early]

theorem reached_iff {s : Listing} :
    w.Reached step s ↔ ∃ n ≤ w.stepCount step, s = w.after step n := by
  constructor
  · intro reached
    induction reached with
    | start => exact ⟨0, Nat.zero_le _, by simp [after]⟩
    | round _ round ih =>
      obtain ⟨n, -, rfl⟩ := ih
      rw [w.round?_after hstep] at round
      split at round
      · next more => exact ⟨n + 1, more, (Option.some.inj round).symm⟩
      · cases round
  · rintro ⟨n, within, rfl⟩
    induction n with
    | zero => simpa [after] using Reached.start
    | succ n ih =>
      refine .round (ih (Nat.le_of_lt within)) ?_
      exact (w.round?_after hstep n).trans (if_pos within)

theorem reached_last_iff {s : Listing} : w.Reached step s ∧ w.round? step s = none ↔
    s = w.after step (w.stepCount step) := by
  constructor
  · rintro ⟨reached, last⟩
    obtain ⟨n, within, rfl⟩ := (w.reached_iff hstep).mp reached
    rw [w.round?_after hstep] at last
    by_cases more : n < w.stepCount step
    · rw [if_pos more] at last
      cases last
    · rw [Nat.le_antisymm within (Nat.not_lt.mp more)]
  · rintro rfl
    refine ⟨(w.reached_iff hstep).mpr ⟨_, Nat.le_refl _, rfl⟩, ?_⟩
    rw [w.round?_after hstep, if_neg (Nat.lt_irrefl _)]

theorem reached_time {s : Listing} (reached : w.Reached step s) :
    w.start ≤ s.time ∧ s.time < w.stop + step := by
  obtain ⟨n, within, rfl⟩ := (w.reached_iff hstep).mp reached
  have onward := Int.mul_nonneg (Int.natCast_nonneg n) hstep.le
  change w.start ≤ w.start + n * step ∧ w.start + n * step < w.stop + step
  rcases n with _ | n
  · have ends := w.start_le_stop
    omega
  · have before := (w.lt_stop_iff hstep n).mpr within
    have past := w.start_add_succ step n
    omega

theorem close_after :
    w.close (w.after step (w.stepCount step)).listed = w.steps step := by
  rw [w.steps_of_pos hstep, after]
  refine close_of_before fun t ht => ?_
  obtain ⟨i, hi, rfl⟩ := List.mem_map.mp ht
  exact (w.lt_stop_iff hstep i).mpr (List.mem_range.mp hi)

end Listing

theorem steps_of_still (w : TimeSpan) {step : Int} (still : ¬0 < step) :
    w.steps step = if w.start = w.stop then [w.start] else [w.start, w.stop] := if_neg still

theorem close_start (w : TimeSpan) :
    w.close [w.start] = if w.start = w.stop then [w.start] else [w.start, w.stop] := by
  simp only [close, List.getLast?_singleton, Option.some.injEq, List.singleton_append]

theorem lists_iff (w : TimeSpan) (step : Int) {times : List Int} :
    w.Lists step times ↔ times = w.steps step := by
  by_cases hstep : 0 < step
  · constructor
    · intro lists
      cases lists with
      | forward _ reached last =>
        rw [(w.reached_last_iff hstep).mp ⟨reached, last⟩, w.close_after hstep]
      | still still => exact absurd hstep still
    · rintro rfl
      obtain ⟨reached, last⟩ := (w.reached_last_iff hstep).mpr rfl
      rw [← w.close_after hstep]
      exact .forward hstep reached last
  · rw [w.steps_of_still hstep, ← w.close_start]
    constructor
    · intro lists
      cases lists with
      | forward forward => exact absurd forward hstep
      | still => rfl
    · rintro rfl
      exact .still hstep

section Gaps

variable (w : TimeSpan) {step : Int} (hstep : 0 < step)

include hstep

theorem dropLast_steps : (w.steps step).dropLast =
    (List.range (w.stepCount step)).map fun i : Nat => w.start + i * step := by
  rw [w.steps_of_pos hstep, List.dropLast_concat]

theorem steps_even : (w.steps step).dropLast.IsChain fun t u => u - t = step := by
  rw [w.dropLast_steps hstep, List.isChain_map, List.isChain_range]
  intro i _
  rw [Nat.succ_eq_add_one, w.start_add_succ]
  omega

theorem last_gap {t : Int} (ht : t ∈ (w.steps step).dropLast.getLast?) :
    0 < w.stop - t ∧ w.stop - t ≤ step := by
  rw [w.dropLast_steps hstep] at ht
  rcases hcount : w.stepCount step with _ | n
  · rw [hcount] at ht
    cases ht
  · rw [hcount, List.range_succ, List.map_append, List.map_singleton, List.getLast?_concat,
      Option.mem_some_iff] at ht
    have before := (w.lt_stop_iff hstep n).mpr (by omega)
    have past := mt (w.lt_stop_iff hstep (n + 1)).mp (by omega)
    rw [w.start_add_succ] at past
    omega

end Gaps

end TimeSpan

theorem AltitudeProfile.mem_sampleTimes {stepMs : Int} (forward : 0 < stepMs) (span : TimeSpan)
    {t : Int} : t ∈ sampleTimes stepMs span ↔
      span.contains t ∧ ∃ k : Int, t = span.start + k * stepMs := by
  have long : span.duration = span.stop - span.start := rfl
  have whole : 0 ≤ span.duration / stepMs :=
    Int.ediv_nonneg (Int.sub_nonneg_of_le span.start_le_stop) forward.le
  have inside (k : Int) : k ≤ span.duration / stepMs ↔ k * stepMs ≤ span.duration :=
    Int.le_ediv_iff_mul_le forward
  rw [sampleTimes_eq_range forward, List.mem_map, TimeSpan.contains_iff]
  constructor
  · rintro ⟨i, hi, rfl⟩
    rw [List.mem_range] at hi
    have reach := (inside i).mp (by omega)
    have onward := Int.mul_nonneg (Int.natCast_nonneg i) forward.le
    exact ⟨by omega, i, rfl⟩
  · rintro ⟨within, k, rfl⟩
    have some : 0 ≤ k := Int.nonneg_of_mul_nonneg_left (by omega) forward
    have reach := (inside k).mpr (by omega)
    refine ⟨k.toNat, List.mem_range.mpr (by omega), ?_⟩
    rw [Int.toNat_of_nonneg some]

namespace TimeSpan

/-- Times from the start of a span to its end, a step apart but for the last gap. -/
structure Stepped (w : TimeSpan) (step : Int) (times : List Int) : Prop where
  /-- The loop ends, and with nothing else. -/
  listed : ∀ others, w.Lists step others ↔ others = times
  /-- Where `stop + step` is in the range of a machine word, so is every time on the way. -/
  reach : 0 < step → ∀ s, w.Reached step s → w.start ≤ s.time ∧ s.time < w.stop + step
  increase : times.Pairwise (· < ·)
  first : times.head? = some w.start
  last : times.getLast? = some w.stop
  even : 0 < step → times.dropLast.IsChain fun t u => u - t = step
  rest : 0 < step → ∀ t ∈ times.dropLast.getLast?, 0 < w.stop - t ∧ w.stop - t ≤ step
  ends : step ≤ 0 → times = if w.start = w.stop then [w.start] else [w.start, w.stop]

theorem stepped_forward (w : TimeSpan) {step : Int} (forward : 0 < step) :
    w.Stepped step (w.steps step) where
  listed _ := w.lists_iff step
  reach _ _ := w.reached_time forward
  increase := w.steps_increase forward
  first := w.head?_steps forward
  last := w.getLast?_steps forward
  even _ := w.steps_even forward
  rest _ _ := w.last_gap forward
  ends back := absurd forward (Int.not_lt.mpr back)

theorem stepped_still (w : TimeSpan) {step : Int} (still : ¬0 < step) :
    w.Stepped step (w.steps step) where
  listed _ := w.lists_iff step
  reach forward := absurd forward still
  increase := by
    rw [w.steps_of_still still]
    split
    · exact List.pairwise_singleton _ _
    · next apart => exact List.pairwise_pair.mpr (lt_of_le_of_ne w.start_le_stop apart)
  first := by
    rw [w.steps_of_still still]
    split <;> rfl
  last := by
    rw [w.steps_of_still still]
    split
    · next instant => exact congrArg some instant
    · rfl
  even forward := absurd forward still
  rest forward := absurd forward still
  ends _ := w.steps_of_still still

/-- However a span and a step divide, the steps are what the loop ends with, and cover the span from
its start to its end. The sample times are the instants of the span on a whole number of steps. -/
theorem steps_cover_span (w : TimeSpan) (step : Int) : w.Stepped step (w.steps step) ∧
    (0 < step → (AltitudeProfile.sampleTimes step w).Pairwise (· < ·) ∧
      ∀ t, t ∈ AltitudeProfile.sampleTimes step w ↔
        w.contains t ∧ ∃ k : Int, t = w.start + k * step) := by
  constructor
  · by_cases forward : 0 < step
    · exact w.stepped_forward forward
    · exact w.stepped_still forward
  · intro forward
    have increase := w.steps_increase forward
    exact ⟨increase.sublist (AltitudeProfile.sampleTimes_sublist step w),
      fun t => AltitudeProfile.mem_sampleTimes forward w⟩

/-- Two whole steps of two seconds and half a one. -/
theorem fiveSeconds_stepped : (0 : Int) < 2000 ∧
    (between 0 5000).steps 2000 = [0, 2000, 4000, 5000] ∧
    (between 0 5000).Stepped 2000 [0, 2000, 4000, 5000] ∧
    AltitudeProfile.sampleTimes 2000 (between 0 5000) = [0, 2000, 4000] ∧
    ∀ t, t ∈ [0, 2000, 4000] ↔ (between 0 5000).contains t ∧ ∃ k : Int, t = 0 + k * 2000 := by
  have forward : (0 : Int) < 2000 := by decide
  have steps : (between 0 5000).steps 2000 = [0, 2000, 4000, 5000] := by decide
  have sampled : AltitudeProfile.sampleTimes 2000 (between 0 5000) = [0, 2000, 4000] := by decide
  obtain ⟨stepped, whole⟩ := steps_cover_span (between 0 5000) 2000
  rw [steps] at stepped
  refine ⟨forward, steps, stepped, sampled, fun t => ?_⟩
  rw [← sampled]
  exact (whole forward).2 t

end TimeSpan
end AirTraffic
