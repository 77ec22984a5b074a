import AirTraffic.Fit.MovingWindow
import AirTraffic.Proofs.InPlace.Access

/-!
# Signals smoothed in place

A filter multiplies its weights with the stretch of the signal that the window covers, at every
place where a full window fits.
-/
namespace AirTraffic

open Scalar

variable {α : Type}

namespace InPlace

section Stretch

variable {β : Type} {xs : List β} {start stop : Nat}

theorem foldlM_write {value : Nat → β} {compute : Nat → Checked β} {n : Nat}
    (inside : start + n ≤ xs.length)
    (h : ∀ i, start ≤ i → i < start + n → compute i = .ok (value i)) :
    (List.range' start n).foldlM (fun out i => do write out i (← compute i)) xs =
      .ok (xs.mapIdx fun j x => if start ≤ j ∧ j < start + n then value j else x) := by
  induction n with
  | zero =>
    have untouched : xs.mapIdx (fun j x => if start ≤ j ∧ j < start + 0 then value j else x) = xs :=
      List.ext_getElem (by simp) fun j _ _ => by
        rw [List.getElem_mapIdx, if_neg (by omega)]
    rw [untouched]
    rfl
  | succ n ih =>
    have before := ih (by omega) fun i hi hi' => h i hi (by omega)
    rw [List.range'_1_concat, List.foldlM_append, before, ok_bind, List.foldlM_cons,
      h (start + n) (Nat.le_add_right _ _) (by omega), ok_bind,
      write_mapIdx _ (by omega : start + n < xs.length)]
    refine ok_mapIdx_congr fun j hj => ?_
    by_cases last : j = start + n
    · rw [if_pos last, if_pos (by omega), last]
    · rw [if_neg last]
      exact if_congr (by omega) rfl rfl

/-- The first and the last entry of a stretch are continued to the ends. -/
def continueEnds (xs : List β) (first last : Nat) : Checked (List β) := do
  let head ← read xs first
  let tail ← read xs last
  let out ← sweep xs 0 first fun _ => head
  sweep out (last + 1) out.length fun _ => tail

theorem continueEnds_eq {first last : Nat} (value : Nat → β) (hfirst : first ≤ last)
    (hlast : last < xs.length) :
    continueEnds (xs.mapIdx fun j x => if first ≤ j ∧ j < last + 1 then value j else x) first last =
      .ok (List.replicate first (value first) ++
        ((List.range (last + 1 - first)).map (fun k => value (first + k)) ++
          List.replicate (xs.length - (last + 1)) (value last))) := by
  have low : first < xs.length := Nat.lt_of_le_of_lt hfirst hlast
  unfold continueEnds
  rw [read_mapIdx _ low, ok_bind, read_mapIdx _ hlast, ok_bind, if_pos (by omega),
    if_pos (by omega), sweep_mapIdx _ (Nat.zero_le _) (Nat.le_of_lt low), ok_bind,
    List.length_mapIdx, sweep_mapIdx _ hlast (Nat.le_refl _)]
  refine congrArg Except.ok ((mapIdx_parts (fun _ => value first) value (fun _ => value last)
    (Nat.le_succ_of_le hfirst) hlast (fun j _ early => ?_) (fun j _ reached within => ?_)
    fun j _ late inside => ?_).trans ?_)
  · rw [if_neg (by omega), if_pos (by omega)]
  · rw [if_neg (by omega), if_neg (by omega), if_pos ⟨reached, within⟩]
  · rw [if_pos ⟨late, inside⟩]
  · rw [List.map_const', List.map_const', List.length_take_of_le (Nat.le_of_lt low),
      List.length_drop]

end Stretch

variable [Scalar α]

def convolveAt (weights signal : List α) (centre : Nat) : Checked α := do
  let start ← difference centre (weights.length / 2)
  return dot weights (← slice signal start (centre + weights.length / 2 + 1))

def smooth (m : MovingFit α) (signal : List α) : Checked (List α) := do
  if signal.length < m.windowLength then return signal
  else
    let stop ← difference signal.length m.halfWindow
    signal.zipIdx.mapM fun (x, i) =>
      if m.halfWindow ≤ i ∧ i < stop then convolveAt m.valueWeights signal i else return x

def meanSlope (m : MovingFit α) (signal : List α) : Checked (List α) := do
  if signal.length < 2 then return List.replicate signal.length zero
  else
    let pairs ← difference signal.length 1
    let steps ← (List.range pairs).mapM fun i =>
      return (← read signal (i + 1)) - (← read signal i)
    return List.replicate signal.length (sum steps / ofInt pairs / m.timeStep)

def slopeAt (m : MovingFit α) (signal : List α) (centre : Nat) : Checked α := do
  return (← convolveAt m.slopeWeights signal centre) / m.timeStep

def smoothSlope (m : MovingFit α) (signal : List α) : Checked (List α) := do
  if signal.length < m.windowLength then meanSlope m signal
  else
    let last ← difference (← difference signal.length m.halfWindow) 1
    let inner ← (List.range' m.halfWindow (last + 1 - m.halfWindow)).foldlM
      (fun out i => do write out i (← slopeAt m signal i)) (List.replicate signal.length zero)
    continueEnds inner m.halfWindow last

end InPlace

namespace MovingFit

open InPlace

section Built

variable [Scalar α] [TableInverse α]

/-- Made by a constructor that checks its arguments. -/
def Built (m : MovingFit α) : Prop :=
  ∃ timeStep order weights, withWeights timeStep order weights = .ok m

end Built

/-- The window has a middle, and both lists of weights cover it. -/
structure Shaped (m : MovingFit α) : Prop where
  odd : m.windowLength % 2 = 1
  slopes : m.slopeWeights.length = m.windowLength

theorem windows_eq {n : Nat} (hn : 0 < n) (xs : List α) :
    windows n xs = (List.range (xs.length + 1 - n)).map fun i => (xs.drop i).take n := by
  induction xs with
  | nil =>
    have none : ([] : List α).length + 1 - n = 0 := Nat.sub_eq_zero_of_le hn
    rw [none]
    rfl
  | cons x rest ih =>
    rw [windows]
    by_cases short : ((x :: rest).take n).length < n
    · rw [List.length_take, List.length_cons] at short
      have none : (x :: rest).length + 1 - n = 0 := by
        rw [List.length_cons]
        omega
      rw [if_pos (by rwa [List.length_take, List.length_cons]), none]
      rfl
    · rw [List.length_take, List.length_cons] at short
      have more : (x :: rest).length + 1 - n = rest.length + 1 - n + 1 := by
        rw [List.length_cons]
        omega
      rw [if_neg (by rwa [List.length_take, List.length_cons]), ih, more,
        List.range_succ_eq_map, List.map_cons, List.map_map]
      rfl

/-- The stretch of the signal that a window around a place covers. -/
def around (n : Nat) (signal : List α) (centre : Nat) : List α :=
  (signal.drop (centre - n / 2)).take n

theorem Shaped.windows_eq_around {m : MovingFit α} (h : m.Shaped) {signal : List α}
    (full : m.windowLength ≤ signal.length) :
    windows m.windowLength signal =
      (List.range (signal.length - m.halfWindow - m.halfWindow)).map fun k =>
        around m.windowLength signal (m.halfWindow + k) := by
  have odd := h.odd
  have half : m.halfWindow = m.windowLength / 2 := rfl
  have count : signal.length + 1 - m.windowLength =
      signal.length - m.halfWindow - m.halfWindow := by omega
  rw [windows_eq (by omega), count]
  refine List.map_congr_left fun k _ => ?_
  unfold around
  rw [← half, Nat.add_sub_cancel_left]

variable [Scalar α]

theorem checkWeights_ok {order : Nat} {weights : List α} (h : checkWeights order weights = .ok ()) :
    1 ≤ order ∧ weights.length % 2 = 1 := by
  unfold checkWeights at h
  by_cases low : order < 1
  · rw [if_pos low] at h
    cases h
  · rw [if_neg low] at h
    by_cases even : weights.length % 2 = 0
    · rw [if_pos even] at h
      cases h
    · exact ⟨Nat.not_lt.mp low, Nat.mod_two_ne_zero.mp even⟩

section Built

variable [TableInverse α]

theorem length_of_mem_shares {degree : Nat} {samples : Polynomial.Samples α}
    {rows : Vector (List α) (degree + 1)} (h : Polynomial.shares? degree samples = some rows)
    {row : List α} (hrow : row ∈ rows.toList) : row.length = samples.length := by
  obtain ⟨inverse, -, rfl⟩ := Option.map_eq_some_iff.mp h
  rw [Vector.mem_toList_iff, Vector.mem_map] at hrow
  obtain ⟨entries, -, rfl⟩ := hrow
  exact List.length_map _

theorem withWeights_ok {m : MovingFit α} {timeStep : α} {order : Nat} {weights : List α}
    (made : withWeights timeStep order weights = .ok m) : checkWeights order weights = .ok () ∧
      ∃ rows, Polynomial.shares? order (windowSamples weights) = some rows ∧
        m = ⟨timeStep, order, rows.toList.getD 0 [], rows.toList.getD 1 []⟩ := by
  rw [withWeights] at made
  by_cases badStep : !(decide (zero < timeStep) && isFinite timeStep)
  · rw [if_pos badStep] at made
    cases made
  rw [if_neg badStep] at made
  cases checked : checkWeights order weights with
  | error e =>
    rw [checked] at made
    cases made
  | ok u =>
    cases solved : Polynomial.shares? order (windowSamples weights) with
    | none =>
      rw [checked, solved] at made
      cases made
    | some rows =>
      rw [checked, solved] at made
      cases made
      exact ⟨rfl, rows, rfl, rfl⟩

theorem Built.shaped {m : MovingFit α} (h : m.Built) : m.Shaped := by
  obtain ⟨timeStep, order, weights, made⟩ := h
  obtain ⟨checked, rows, solved, rfl⟩ := withWeights_ok made
  obtain ⟨positive, odd⟩ := checkWeights_ok checked
  have each : ∀ i, i < order + 1 → (rows.toList.getD i []).length = weights.length := by
    intro i hi
    have within : i < rows.toList.length := by rwa [Vector.length_toList]
    rw [List.getD_eq_getElem?_getD, List.getElem?_eq_getElem within, Option.getD_some,
      length_of_mem_shares solved (List.getElem_mem within), windowSamples, List.length_map,
      List.length_zipIdx]
  have value := each 0 (Nat.succ_pos order)
  have slope := each 1 (Nat.succ_lt_succ positive)
  exact { odd := (congrArg (· % 2) value).trans odd, slopes := slope.trans value.symm }

end Built

theorem convolveAt_eq {weights signal : List α} {centre : Nat} (odd : weights.length % 2 = 1)
    (early : weights.length / 2 ≤ centre) (late : centre + weights.length / 2 < signal.length) :
    convolveAt weights signal centre = .ok (dot weights (around weights.length signal centre)) := by
  have width : centre + weights.length / 2 + 1 - (centre - weights.length / 2) =
      weights.length := by omega
  unfold convolveAt
  rw [difference_of_le early, ok_bind, slice_of_le (by omega) (by omega), width]
  rfl

def slopeAround (m : MovingFit α) (signal : List α) (centre : Nat) : α :=
  dot m.slopeWeights (around m.windowLength signal centre) / m.timeStep

theorem meanSlope_eq (m : MovingFit α) (signal : List α) :
    InPlace.meanSlope m signal = .ok (m.meanSlope signal) := by
  unfold InPlace.meanSlope meanSlope
  by_cases short : signal.length < 2
  · rw [if_pos short, if_pos short]
    rfl
  · let steps := List.zipWith (fun x y => y - x) signal signal.tail
    have pairs : steps.length = signal.length - 1 := by
      rw [List.length_zipWith, List.length_tail, Nat.min_eq_right (Nat.sub_le _ _)]
    have each : (List.range steps.length).mapM (fun i => do
        return (← read signal (i + 1)) - (← read signal i)) = .ok (steps.map id) :=
      mapM_range fun i hi => by
        rw [pairs] at hi
        rw [read_of_lt (by omega), ok_bind, read_of_lt (by omega), ok_bind, List.getElem_zipWith,
          List.getElem_tail]
        rfl
    rw [List.map_id, pairs] at each
    rw [if_neg short, if_neg short, difference_of_le (by omega), ok_bind, each]
    rfl

variable {m : MovingFit α} (h : m.Shaped) (signal : List α)

include h

theorem Shaped.smooth_eq : InPlace.smooth m signal = .ok (m.smooth signal) := by
  have odd := h.odd
  have half : m.halfWindow = m.windowLength / 2 := rfl
  unfold InPlace.smooth smooth
  by_cases short : signal.length < m.windowLength
  · rw [if_pos short, if_pos short]
    rfl
  · have full := Nat.not_lt.mp short
    rw [if_neg short, if_neg short, difference_of_le (by omega), ok_bind, List.append_assoc,
      h.windows_eq_around full, List.map_map]
    refine (mapM_zipIdx (g := fun i x =>
      if m.halfWindow ≤ i ∧ i < signal.length - m.halfWindow then
        dot m.valueWeights (around m.windowLength signal i) else x) fun i hi => ?_).trans ?_
    · dsimp only
      by_cases inside : m.halfWindow ≤ i ∧ i < signal.length - m.halfWindow
      · rw [if_pos inside, if_pos inside]
        exact convolveAt_eq odd inside.1 (Nat.add_lt_of_lt_sub inside.2)
      · rw [if_neg inside, if_neg inside]
        rfl
    · refine congrArg Except.ok ((mapIdx_parts id
        (fun i => dot m.valueWeights (around m.windowLength signal i)) id
        (by omega : m.halfWindow ≤ signal.length - m.halfWindow) (Nat.sub_le _ _)
        (fun j _ early => ?_) (fun j _ reached within => ?_) fun j _ late _ => ?_).trans ?_)
      · exact if_neg (by omega)
      · exact if_pos ⟨reached, within⟩
      · exact if_neg (by omega)
      · rw [List.map_id, List.map_id]
        rfl

theorem Shaped.length_smooth : (m.smooth signal).length = signal.length := by
  have odd := h.odd
  have half : m.halfWindow = m.windowLength / 2 := rfl
  unfold smooth
  by_cases short : signal.length < m.windowLength
  · rw [if_pos short]
  · rw [if_neg short, h.windows_eq_around (Nat.not_lt.mp short), List.length_append,
      List.length_append, List.length_map, List.length_map, List.length_range, List.length_take,
      List.length_drop]
    omega

theorem Shaped.smoothSlope_of_full {last : Nat} (full : m.windowLength ≤ signal.length)
    (hlast : signal.length = last + 1 + m.halfWindow) : m.smoothSlope signal =
      List.replicate m.halfWindow (m.slopeAround signal m.halfWindow) ++
        ((List.range (last + 1 - m.halfWindow)).map (fun k =>
            m.slopeAround signal (m.halfWindow + k)) ++
          List.replicate m.halfWindow (m.slopeAround signal last)) := by
  have odd := h.odd
  have half : m.halfWindow = m.windowLength / 2 := rfl
  have fits : signal.length - m.halfWindow - m.halfWindow = last + 1 - m.halfWindow := by omega
  have inner : (windows m.windowLength signal).map (fun w => dot m.slopeWeights w / m.timeStep) =
      (List.range (last + 1 - m.halfWindow)).map fun k =>
        m.slopeAround signal (m.halfWindow + k) := by
    rw [h.windows_eq_around full, List.map_map, fits]
    rfl
  unfold smoothSlope
  rw [if_neg (Nat.not_lt.mpr full), inner]
  dsimp only
  rw [List.head?_map, List.head?_range, if_neg (by omega), List.getLast?_map,
    List.getLast?_range, if_neg (by omega), Option.map_some, Option.map_some, Option.getD_some,
    Option.getD_some, List.append_assoc]
  have end_eq : m.halfWindow + (last + 1 - m.halfWindow - 1) = last := by omega
  rw [end_eq, Nat.add_zero]

theorem Shaped.slopeAt_eq {i : Nat} (early : m.halfWindow ≤ i)
    (late : i + m.halfWindow < signal.length) :
    slopeAt m signal i = .ok (m.slopeAround signal i) := by
  have odd : m.slopeWeights.length % 2 = 1 := h.slopes ▸ h.odd
  have half : m.slopeWeights.length / 2 = m.halfWindow := by
    rw [h.slopes]
    rfl
  unfold slopeAt
  rw [convolveAt_eq odd (half ▸ early) (half ▸ late), h.slopes]
  rfl

theorem Shaped.smoothSlope_eq : InPlace.smoothSlope m signal = .ok (m.smoothSlope signal) := by
  have odd := h.odd
  have half : m.halfWindow = m.windowLength / 2 := rfl
  by_cases short : signal.length < m.windowLength
  · unfold InPlace.smoothSlope smoothSlope
    rw [if_pos short, if_pos short]
    exact meanSlope_eq m signal
  · let last := signal.length - m.halfWindow - 1
    have hlast : signal.length = last + 1 + m.halfWindow := by omega
    have blank : (List.replicate signal.length (zero : α)).length = signal.length :=
      List.length_replicate
    have count : m.halfWindow + (last + 1 - m.halfWindow) = last + 1 := by omega
    have each : ∀ i, m.halfWindow ≤ i → i < m.halfWindow + (last + 1 - m.halfWindow) →
        slopeAt m signal i = .ok (m.slopeAround signal i) := by
      intro i early late
      exact h.slopeAt_eq signal early (by omega)
    unfold InPlace.smoothSlope
    rw [if_neg short, difference_of_le (by omega), ok_bind, difference_of_le (by omega), ok_bind,
      foldlM_write (by omega) each, ok_bind, count, continueEnds_eq _ (by omega) (by omega), blank,
      h.smoothSlope_of_full signal (Nat.not_lt.mp short) hlast]
    have rest : signal.length - (last + 1) = m.halfWindow := by omega
    rw [rest]

end MovingFit

end AirTraffic
