import AirTraffic.Proofs.Track.Reading
import AirTraffic.Proofs.InPlace.Neighbours

/-!
# The reports nearest in time

Reports are taken from both sides of an instant, the nearer side first, until there are enough. No
step looks beyond the next report of either side, and yet none that is left is nearer than one
taken.
-/
namespace AirTraffic

namespace Nearest

section Sides

theorem takeSides_count (k : Nat) (before after : List Int) :
    (takeSides k before after).1 + (takeSides k before after).2 =
      min k (before.length + after.length) := by
  fun_induction takeSides k before after with
  | case1 => simp
  | case2 => simp
  | case3 k b before l r hsides ih =>
    simp only [hsides, List.length_nil, List.length_cons] at *
    omega
  | case4 k a after l r hsides ih =>
    simp only [hsides, List.length_nil, List.length_cons] at *
    omega
  | case5 k b before a after near l r hsides ih =>
    simp only [hsides, List.length_cons] at *
    omega
  | case6 k b before a after far l r hsides ih =>
    simp only [hsides, List.length_cons] at *
    omega

theorem earlier_taken_le (k : Nat) (before : List Int) {after : List Int}
    (ha : after.Pairwise (· ≤ ·)) :
    ∀ b ∈ before.take (takeSides k before after).1,
      ∀ a ∈ after.drop (takeSides k before after).2, b ≤ a := by
  fun_induction takeSides k before after with
  | case1 => simp
  | case2 => simp
  | case3 => simp
  | case4 => simp
  | case5 k b before a after near l r hsides ih =>
    simp only [hsides, List.take_succ_cons] at *
    intro x hx y hy
    rcases List.mem_cons.mp hx with rfl | hx
    · rcases List.mem_cons.mp (List.mem_of_mem_drop hy) with rfl | hy
      · exact near
      · exact near.trans ((List.pairwise_cons.mp ha).1 y hy)
    · exact ih ha x hx y hy
  | case6 k b before a after far l r hsides ih =>
    simp only [hsides, List.drop_succ_cons] at *
    exact ih (List.pairwise_cons.mp ha).2

theorem later_taken_lt (k : Nat) {before : List Int} (after : List Int)
    (hb : before.Pairwise (· ≤ ·)) :
    ∀ a ∈ after.take (takeSides k before after).2,
      ∀ b ∈ before.drop (takeSides k before after).1, a < b := by
  fun_induction takeSides k before after with
  | case1 => simp
  | case2 => simp
  | case3 => simp
  | case4 => simp
  | case5 k b before a after near l r hsides ih =>
    simp only [hsides, List.drop_succ_cons] at *
    exact ih (List.pairwise_cons.mp hb).2
  | case6 k b before a after far l r hsides ih =>
    simp only [hsides, List.take_succ_cons] at *
    intro x hx y hy
    rcases List.mem_cons.mp hx with rfl | hx
    · rcases List.mem_cons.mp (List.mem_of_mem_drop hy) with rfl | hy
      · exact Int.not_le.mp far
      · exact (Int.not_le.mp far).trans_le ((List.pairwise_cons.mp hb).1 y hy)
    · exact ih hb x hx y hy

end Sides

/-- At `u` rather than at `v`: it is nearer to `t`, or as near and not later. -/
def Preferred (t u v : Int) : Prop :=
  (u - t).natAbs < (v - t).natAbs ∨ (u - t).natAbs = (v - t).natAbs ∧ u ≤ v

section Cut

variable {before after : List Int} {t : Int} (earlier : ∀ u ∈ before, u < t)
  (later : ∀ u ∈ after, t ≤ u) {k l r : Nat}
  (hsides : takeSides k (before.reverse.map (t - ·)) (after.map (· - t)) = (l, r))

include earlier later hsides

theorem stretch_of_sides : stretch (before ++ after) t k = ⟨before.length - l, l + r⟩ := by
  have allBefore : ∀ u ∈ before, decide (u < t) = true := fun u hu => decide_eq_true (earlier u hu)
  have taken : (before ++ after).takeWhile (· < t) = before := by
    rw [List.takeWhile_append_of_pos allBefore]
    cases after with
    | nil => exact List.append_nil before
    | cons u rest => simp [Int.not_lt.mpr (later u List.mem_cons_self)]
  have left : (before ++ after).dropWhile (· < t) = after := by
    rw [List.dropWhile_append_of_pos allBefore]
    cases after with
    | nil => rfl
    | cons u rest => simp [Int.not_lt.mpr (later u List.mem_cons_self)]
  simp only [stretch, taken, left, hsides]

theorem preferred_of_sides (hb : before.Pairwise (· ≤ ·)) (ha : after.Pairwise (· ≤ ·)) :
    ∀ u ∈ before.drop (before.length - l) ++ after.take r,
      ∀ v ∈ before.take (before.length - l) ++ after.drop r, Preferred t u v := by
  have back : (before.reverse.map (t - ·)).Pairwise (· ≤ ·) := by
    rw [List.pairwise_map, List.pairwise_reverse]
    exact hb.imp fun h => by omega
  have ahead : (after.map (· - t)).Pairwise (· ≤ ·) := by
    rw [List.pairwise_map]
    exact ha.imp fun h => by omega
  have le := earlier_taken_le k (before.reverse.map (t - ·)) ahead
  have lt := later_taken_lt k (after.map (· - t)) back
  simp only [hsides, ← List.map_take, ← List.map_drop, List.take_reverse, List.drop_reverse,
    List.forall_mem_map, List.mem_reverse] at le lt
  rw [← List.take_append_drop (before.length - l) before] at hb
  rw [← List.take_append_drop r after] at ha
  have orderBefore := (List.pairwise_append.mp hb).2.2
  have orderAfter := (List.pairwise_append.mp ha).2.2
  intro u hu v hv
  rw [Preferred]
  rcases List.mem_append.mp hu with hu | hu
  · have := earlier u (List.mem_of_mem_drop hu)
    rcases List.mem_append.mp hv with hv | hv
    · have := orderBefore v hv u hu
      omega
    · have := le u hu v hv
      have := later v (List.mem_of_mem_drop hv)
      omega
  · have := later u (List.mem_of_mem_take hu)
    rcases List.mem_append.mp hv with hv | hv
    · have := lt u hu v hv
      have := earlier v (List.mem_of_mem_take hv)
      omega
    · have := orderAfter u hu v hv
      omega

end Cut

theorem exists_sides {times : List Int} (order : times.Pairwise (· ≤ ·)) (t : Int) :
    ∃ before after, times = before ++ after ∧ (∀ u ∈ before, u < t) ∧ ∀ u ∈ after, t ≤ u := by
  refine ⟨_, _, (List.takeWhile_append_dropWhile (p := (· < t))).symm, ?_, ?_⟩
  · intro u hu
    simpa using List.mem_takeWhile_imp hu
  · intro u hu
    simpa using not_of_mem_dropWhile (pairwise_lt_of_order order t) u hu

theorem exists_cut_of_stretch {times : List Int} (order : times.Pairwise (· ≤ ·)) (t : Int)
    (k : Nat) : ∃ early chosen late, times = early ++ (chosen ++ late) ∧
      stretch times t k = ⟨early.length, chosen.length⟩ ∧ chosen.length = min k times.length ∧
      ∀ u ∈ chosen, ∀ v ∈ early ++ late, Preferred t u v := by
  obtain ⟨before, after, rfl, earlier, later⟩ := exists_sides order t
  obtain ⟨orderBefore, orderAfter, -⟩ := List.pairwise_append.mp order
  cases hsides : takeSides k (before.reverse.map (t - ·)) (after.map (· - t)) with
  | mk l r =>
    have fewBefore := InPlace.takeSides_fst_le k (before.reverse.map (t - ·)) (after.map (· - t))
    have fewAfter := InPlace.takeSides_snd_le k (before.reverse.map (t - ·)) (after.map (· - t))
    have count := takeSides_count k (before.reverse.map (t - ·)) (after.map (· - t))
    simp only [hsides, List.length_map, List.length_reverse] at fewBefore fewAfter count
    have first : (before.take (before.length - l)).length = before.length - l :=
      List.length_take_of_le (Nat.sub_le _ _)
    have second : (before.drop (before.length - l) ++ after.take r).length = l + r := by
      rw [List.length_append, List.length_drop, List.length_take_of_le fewAfter]
      omega
    refine ⟨before.take (before.length - l), before.drop (before.length - l) ++ after.take r,
      after.drop r, ?_, ?_, ?_, preferred_of_sides earlier later hsides orderBefore orderAfter⟩
    · rw [List.append_assoc, List.take_append_drop, ← List.append_assoc, List.take_append_drop]
    · rw [stretch_of_sides earlier later hsides, first, second]
    · rw [second, count, List.length_append]

end Nearest

theorem Stretch.filterMap_indices {β : Type} (s : Stretch) (xs : List β) :
    s.indices.filterMap (xs[·]?) = s.slice xs := by
  obtain ⟨start, length⟩ := s
  rw [indices, slice]
  induction length generalizing start with
  | zero => rfl
  | succ length ih =>
    rw [List.range'_succ]
    by_cases inside : start < xs.length
    · rw [List.filterMap_cons_some (List.getElem?_eq_getElem inside), ih,
        List.drop_eq_getElem_cons inside, List.take_succ_cons]
    · have beyond : xs.length ≤ start := Nat.not_lt.mp inside
      rw [List.filterMap_cons_none (List.getElem?_eq_none beyond), ih,
        List.drop_eq_nil_of_le beyond, List.drop_eq_nil_of_le (beyond.trans (Nat.le_succ start)),
        List.take_nil, List.take_nil]

theorem Stretch.slice_infix {β : Type} (s : Stretch) (xs : List β) : s.slice xs <:+: xs :=
  (List.take_prefix _ _).isInfix.trans (List.drop_suffix _ _).isInfix

namespace Report

open InPlace (nearestIndices)

variable {α ρ : Type} {reports : List (Report α ρ)}

/-- `k` places that stand together, or all there are, and no report elsewhere is nearer to `t` or as
near at an earlier time. -/
structure NearestInTime (reports : List (Report α ρ)) (t : Int) (k : Nat) (places : List Nat) :
    Prop where
  increase : places.Pairwise (· < ·)
  count : places.length = min k reports.length
  inside : ∀ i ∈ places, i < reports.length
  together : ∀ i j l, i ∈ places → l ∈ places → i ≤ j → j ≤ l → j ∈ places
  nearest : ∀ i j r q, i ∈ places → j ∉ places → reports[i]? = some r → reports[j]? = some q →
    (r.time - t).natAbs ≤ (q.time - t).natAbs
  earliest : ∀ i j r q, i ∈ places → j ∉ places → reports[i]? = some r → reports[j]? = some q →
    (r.time - t).natAbs = (q.time - t).natAbs → r.time ≠ q.time → r.time < q.time

theorem mem_indices {s : Stretch} {i : Nat} : i ∈ s.indices ↔ s.start ≤ i ∧ i < s.stop := by
  rw [Stretch.indices, List.mem_range'_1, Stretch.stop]

theorem preferred_of_nearest (order : InOrder reports) (t : Int) (k : Nat) {i j : Nat}
    {r q : Report α ρ} (hi : i ∈ (nearest reports t k).indices)
    (hj : j ∉ (nearest reports t k).indices) (hr : reports[i]? = some r)
    (hq : reports[j]? = some q) : Nearest.Preferred t r.time q.time := by
  obtain ⟨early, chosen, late, whole, cut, -, preferred⟩ := Nearest.exists_cut_of_stretch order t k
  have timeAt {i : Nat} {r : Report α ρ} (hr : reports[i]? = some r) :
      (early ++ (chosen ++ late))[i]? = some r.time := by
    rw [← whole, getElem?_times hr]
  rw [nearest, cut, mem_indices, Stretch.stop] at hi hj
  dsimp only at hi hj
  refine preferred _ ?_ _ ?_
  · have found := timeAt hr
    rw [List.getElem?_append_right hi.1, List.getElem?_append_left (by omega)] at found
    exact List.mem_of_getElem? found
  · have found := timeAt hq
    rcases Nat.lt_or_ge j early.length with left | right
    · rw [List.getElem?_append_left left] at found
      exact List.mem_append_left _ (List.mem_of_getElem? found)
    · rw [List.getElem?_append_right right, List.getElem?_append_right (by omega)] at found
      exact List.mem_append_right _ (List.mem_of_getElem? found)

theorem nearest_length (order : InOrder reports) (t : Int) (k : Nat) :
    (nearest reports t k).length = min k reports.length := by
  obtain ⟨early, chosen, late, -, cut, count, -⟩ := Nearest.exists_cut_of_stretch order t k
  rw [nearest, cut, count, times, List.length_map]

theorem own_mem_nearest (increase : (times reports).Pairwise (· < ·)) {i : Nat}
    (hi : i < reports.length) {k : Nat} (some : 0 < k) :
    i ∈ (nearest reports reports[i].time k).indices := by
  have order := inOrder_of_increase increase
  have size := nearest_length order reports[i].time k
  have stop := InPlace.stretch_stop_le (times reports) reports[i].time k
  rw [times, List.length_map] at stop
  by_contra out
  obtain ⟨j, hj⟩ : ∃ j, j ∈ (nearest reports reports[i].time k).indices := by
    refine ⟨_, mem_indices.mpr ⟨le_rfl, ?_⟩⟩
    rw [Stretch.stop]
    omega
  have inside : j < reports.length := (mem_indices.mp hj).2.trans_le stop
  have preferred := preferred_of_nearest order reports[i].time k hj out
    (List.getElem?_eq_getElem inside) (List.getElem?_eq_getElem hi)
  have same : reports[j].time = reports[i].time := by
    rw [Nearest.Preferred] at preferred
    omega
  have listed : (times reports)[j]? = (times reports)[i]? := by
    rw [getElem?_times (List.getElem?_eq_getElem inside),
      getElem?_times (List.getElem?_eq_getElem hi), same]
  have distinct : (times reports).Nodup := increase.imp fun h => h.ne
  have equal : j = i := (List.getElem?_inj (by rwa [times, List.length_map]) distinct).mp listed
  exact out (equal ▸ hj)

theorem nearest_of_even {start step : Int} (forward : 0 < step)
    (even : EvenlySpaced start step reports) {i m : Nat} (early : m ≤ i)
    (late : i + m < reports.length) :
    nearest reports (start + step * i) (2 * m + 1) = ⟨i - m, 2 * m + 1⟩ := by
  have increase := even.increase forward
  have order := inOrder_of_increase increase
  have inside : i < reports.length := by omega
  have here := even i _ (List.getElem?_eq_getElem inside)
  rw [← here]
  have own : i ∈ (nearest reports reports[i].time (2 * m + 1)).indices :=
    own_mem_nearest increase inside (Nat.succ_pos _)
  have size := nearest_length order reports[i].time (2 * m + 1)
  have stop := InPlace.stretch_stop_le (times reports) reports[i].time (2 * m + 1)
  rw [Stretch.stop, ← nearest, times, List.length_map] at stop
  rw [mem_indices, Stretch.stop] at own
  have back {k : Nat} (hk : k ≤ i) (hi : i - k < reports.length) :
      reports[i - k].time = reports[i].time - step * k := by
    have found : reports[i - k + k]? = some reports[i] := by
      rw [Nat.sub_add_cancel hk, List.getElem?_eq_getElem inside]
    have apart := even.time_add (List.getElem?_eq_getElem hi) found
    omega
  have ahead {k : Nat} (hi : i + k < reports.length) :
      reports[i + k].time = reports[i].time + step * k :=
    even.time_add (List.getElem?_eq_getElem inside) (List.getElem?_eq_getElem hi)
  have whole : 0 ≤ step * m := Int.mul_nonneg forward.le (Int.natCast_nonneg m)
  have more : step * ((m + 1 : Nat) : Int) = step * m + step := by
    push_cast
    ring
  have centred : (nearest reports reports[i].time (2 * m + 1)).start = i - m := by
    by_contra off
    rcases Nat.lt_or_gt_of_ne off with sooner | later
    · have taken : i - (m + 1) ∈ (nearest reports reports[i].time (2 * m + 1)).indices := by
        rw [mem_indices, Stretch.stop]
        omega
      have left : i + m ∉ (nearest reports reports[i].time (2 * m + 1)).indices := by
        rw [mem_indices, Stretch.stop]
        omega
      have preferred := preferred_of_nearest order _ _ taken left
        (List.getElem?_eq_getElem (by omega)) (List.getElem?_eq_getElem late)
      rw [back (by omega), ahead, more, Nearest.Preferred] at preferred
      omega
    · have taken : i + (m + 1) ∈ (nearest reports reports[i].time (2 * m + 1)).indices := by
        rw [mem_indices, Stretch.stop]
        omega
      have left : i - m ∉ (nearest reports reports[i].time (2 * m + 1)).indices := by
        rw [mem_indices, Stretch.stop]
        omega
      have preferred := preferred_of_nearest order _ _ taken left
        (List.getElem?_eq_getElem (by omega)) (List.getElem?_eq_getElem (by omega))
      rw [back early, ahead, more, Nearest.Preferred] at preferred
      omega
  exact congrArg₂ Stretch.mk centred (size.trans (Nat.min_eq_left (by omega)))

/-- Growing a stretch from the instant outward, one report at a time from whichever side is nearer,
finds reports than which none that is left is nearer in time. -/
theorem nearest_in_time (order : InOrder reports) (t : Int) (k : Nat) :
    ∃ places, nearestIndices (times reports) t k = .ok places ∧
      places = (nearest reports t k).indices ∧ NearestInTime reports t k places := by
  refine ⟨_, InPlace.nearestIndices_eq order t k, rfl, ?_⟩
  change NearestInTime reports t k (nearest reports t k).indices
  constructor
  case increase => exact List.pairwise_lt_range' 1
  case count =>
    rw [Stretch.indices, List.length_range', nearest_length order]
  case inside =>
    intro i hi
    have stop := InPlace.stretch_stop_le (times reports) t k
    rw [times, List.length_map] at stop
    exact (mem_indices.mp hi).2.trans_le stop
  case together =>
    intro i j l hi hl hij hjl
    rw [mem_indices] at *
    omega
  case nearest =>
    intro i j r q hi hj hr hq
    have preferred := preferred_of_nearest order t k hi hj hr hq
    rw [Nearest.Preferred] at preferred
    omega
  case earliest =>
    intro i j r q hi hj hr hq same apart
    have preferred := preferred_of_nearest order t k hi hj hr hq
    rw [Nearest.Preferred] at preferred
    omega

/-- Five seconds after two reports at once and five before a third, the second of the two is taken:
the third is as near, but later. -/
theorem crossing_nearest : InOrder Track.crossing.reports ∧
    ∃ places, nearestIndices (times Track.crossing.reports) 5000 1 = .ok places ∧ places = [1] ∧
      NearestInTime Track.crossing.reports 5000 1 places := by
  have order : InOrder Track.crossing.reports := by
    rw [InOrder]
    decide
  obtain ⟨places, found, rfl, nearest⟩ := nearest_in_time order 5000 1
  exact ⟨order, _, found, by decide, nearest⟩

end Report

end AirTraffic
