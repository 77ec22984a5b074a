import AirTraffic.Track.Nearest
import AirTraffic.Proofs.InPlace.Access

/-!
# Neighbours by index

The indices nearest in time are collected from the instant outward, on whichever side is nearer, and
put in order at the end.
-/
namespace AirTraffic.InPlace

/-- Whether the time before `left` is as near as the one at `right`; a side that is used up is not
near. -/
def takesEarlier (times : List Int) (t : Int) (left right : Nat) : Checked Bool := do
  if 0 < left ∧ right < times.length then
    let earlier ← difference left 1
    return decide (t - (← read times earlier) ≤ (← read times right) - t)
  else return decide (0 < left)

/-- Up to `k` more indices, those before `left` and those from `right` on being left. -/
def collect (times : List Int) (t : Int) : Nat → Nat → Nat → List Nat → Checked (List Nat)
  | 0, _, _, chosen => .ok chosen
  | k + 1, left, right, chosen =>
    if 0 < left ∨ right < times.length then do
      if ← takesEarlier times t left right then
        let earlier ← difference left 1
        collect times t k earlier right (chosen ++ [earlier])
      else collect times t k left (right + 1) (chosen ++ [right])
    else .ok chosen

def nearestIndices (times : List Int) (t : Int) (k : Nat) : Checked (List Nat) := do
  let split ← partitionPoint (· < t) times 0 times.length
  return (← collect times t k split split []).mergeSort

section Collect

variable {times : List Int} {t : Int}

theorem takesEarlier_both {left right : Nat} (hleft : left < times.length)
    (hright : right < times.length) : takesEarlier times t (left + 1) right =
      .ok (decide (t - times[left] ≤ times[right] - t)) := by
  unfold takesEarlier
  rw [if_pos ⟨Nat.succ_pos left, hright⟩, difference_of_le (Nat.le_add_left 1 left), ok_bind,
    Nat.add_sub_cancel, read_of_lt hleft, ok_bind, read_of_lt hright, ok_bind]
  rfl

theorem takesEarlier_one {left right : Nat} (h : left = 0 ∨ times.length ≤ right) :
    takesEarlier times t left right = .ok (decide (0 < left)) := by
  unfold takesEarlier
  rw [if_neg (by omega)]
  rfl

theorem takeSides_fst_le (k : Nat) (before after : List Int) :
    (Nearest.takeSides k before after).1 ≤ before.length := by
  fun_induction Nearest.takeSides k before after with
  | case1 => exact Nat.zero_le _
  | case2 => exact Nat.zero_le _
  | case3 k b before l r hsides ih =>
    rw [hsides] at ih
    exact Nat.succ_le_succ ih
  | case4 k a after l r hsides ih =>
    rw [hsides] at ih
    exact ih
  | case5 k b before a after _ l r hsides ih =>
    rw [hsides] at ih
    exact Nat.succ_le_succ ih
  | case6 k b before a after _ l r hsides ih =>
    rw [hsides] at ih
    exact ih

theorem takeSides_snd_le (k : Nat) (before after : List Int) :
    (Nearest.takeSides k before after).2 ≤ after.length := by
  fun_induction Nearest.takeSides k before after with
  | case1 => exact Nat.zero_le _
  | case2 => exact Nat.zero_le _
  | case3 k b before l r hsides ih =>
    rw [hsides] at ih
    exact ih
  | case4 k a after l r hsides ih =>
    rw [hsides] at ih
    exact Nat.succ_le_succ ih
  | case5 k b before a after _ l r hsides ih =>
    rw [hsides] at ih
    exact ih
  | case6 k b before a after _ l r hsides ih =>
    rw [hsides] at ih
    exact Nat.succ_le_succ ih

def sides (times : List Int) (t : Int) (k left right : Nat) : Nat × Nat :=
  Nearest.takeSides k ((times.take left).reverse.map (t - ·)) ((times.drop right).map (· - t))

theorem sides_fst_le {k left right : Nat} : (sides times t k left right).1 ≤ left := by
  refine (takeSides_fst_le _ _ _).trans ?_
  rw [List.length_map, List.length_reverse, List.length_take]
  exact Nat.min_le_left _ _

theorem perm_earlier {left right l r : Nat} (hl : l ≤ left) (chosen : List Nat) :
    ((chosen ++ [left]) ++ (List.range' (left - l) l ++ List.range' right r)).Perm
      (chosen ++ (List.range' (left + 1 - (l + 1)) (l + 1) ++ List.range' right r)) := by
  have last : left - l + l = left := Nat.sub_add_cancel hl
  rw [Nat.add_sub_add_right, List.range'_concat, Nat.one_mul, last, List.append_assoc,
    ← List.append_assoc [left]]
  exact ((List.perm_append_comm).append_right _).append_left _

theorem perm_later {left right l r : Nat} (chosen : List Nat) :
    ((chosen ++ [right]) ++ (List.range' (left - l) l ++ List.range' (right + 1) r)).Perm
      (chosen ++ (List.range' (left - l) l ++ List.range' right (r + 1))) := by
  rw [List.range'_succ, List.append_assoc, List.singleton_append]
  exact (List.perm_middle.symm).append_left _

theorem takesEarlier_spec {left right : Nat} (k : Nat) (hleft : left ≤ times.length)
    (remaining : 0 < left ∨ right < times.length) :
    ∃ earlier, takesEarlier times t left right = .ok earlier ∧ (earlier → 0 < left) ∧
      sides times t (k + 1) left right =
        if earlier then
          ((sides times t k (left - 1) right).1 + 1, (sides times t k (left - 1) right).2)
        else ((sides times t k left (right + 1)).1, (sides times t k left (right + 1)).2 + 1) := by
  rcases left with _ | left
  · have hright : right < times.length := by omega
    refine ⟨_, takesEarlier_one (Or.inl rfl), of_decide_eq_true, ?_⟩
    simp only [sides, List.drop_eq_getElem_cons hright, List.map_cons, List.take_zero,
      List.reverse_nil, List.map_nil, Nearest.takeSides, Nat.lt_irrefl, decide_false,
      Bool.false_eq_true, if_false]
  · rcases Nat.lt_or_ge right times.length with hright | hright
    · refine ⟨_, takesEarlier_both hleft hright, fun _ => Nat.succ_pos left, ?_⟩
      simp only [sides, reverse_take_succ hleft, List.drop_eq_getElem_cons hright, List.map_cons,
        Nearest.takeSides, decide_eq_true_eq, Nat.add_sub_cancel]
    · refine ⟨_, takesEarlier_one (Or.inr hright), of_decide_eq_true, ?_⟩
      simp [sides, reverse_take_succ hleft, List.drop_eq_nil_of_le hright, Nearest.takeSides]

theorem collect_perm (k left right : Nat) (hleft : left ≤ times.length) (chosen : List Nat) :
    ∃ all, collect times t k left right chosen = .ok all ∧
      all.Perm (chosen ++ (List.range' (left - (sides times t k left right).1)
        (sides times t k left right).1 ++ List.range' right (sides times t k left right).2)) := by
  induction k generalizing left right chosen with
  | zero => exact ⟨chosen, rfl, by simp [sides, Nearest.takeSides]⟩
  | succ k ih =>
    unfold collect
    split
    case isFalse used =>
      obtain ⟨rfl, hright⟩ : left = 0 ∧ times.length ≤ right := by omega
      refine ⟨chosen, rfl, ?_⟩
      simp [sides, List.drop_eq_nil_of_le hright, Nearest.takeSides]
    case isTrue remaining =>
      obtain ⟨earlier, hside, hpos, hsides⟩ := takesEarlier_spec k hleft remaining
      rw [hside, ok_bind, hsides]
      cases earlier with
      | true =>
        obtain ⟨i, rfl⟩ : ∃ i, left = i + 1 := ⟨left - 1, by have := hpos rfl; omega⟩
        obtain ⟨all, hall, hperm⟩ := ih i right (Nat.le_of_succ_le hleft) (chosen ++ [i])
        refine ⟨all, ?_, hperm.trans (perm_earlier sides_fst_le chosen)⟩
        rw [if_pos rfl, difference_of_le (Nat.le_add_left 1 i)]
        exact hall
      | false =>
        obtain ⟨all, hall, hperm⟩ := ih left (right + 1) hleft (chosen ++ [right])
        exact ⟨all, hall, hperm.trans (perm_later chosen)⟩

end Collect

/-- Among times in order, the neighbours of an instant stand together. -/
theorem nearestIndices_eq {times : List Int} (order : times.Pairwise (· ≤ ·)) (t : Int) (k : Nat) :
    nearestIndices times t k = .ok (Nearest.stretch times t k).indices := by
  let split := (times.takeWhile (· < t)).length
  have inside : split ≤ times.length := (List.takeWhile_prefix _).length_le
  have both : sides times t k split split = Nearest.takeSides k
      ((times.takeWhile (· < t)).reverse.map (t - ·)) ((times.dropWhile (· < t)).map (· - t)) := by
    unfold sides
    rw [take_length_takeWhile, drop_length_takeWhile]
  have few : (sides times t k split split).1 ≤ split := sides_fst_le
  obtain ⟨all, hall, hperm⟩ := collect_perm (t := t) k split split inside []
  have joined : List.range' (split - (sides times t k split split).1)
      (sides times t k split split).1 ++ List.range' split (sides times t k split split).2 =
        (Nearest.stretch times t k).indices := by
    have glued := List.range'_append_1 (s := split - (sides times t k split split).1)
      (m := (sides times t k split split).1) (n := (sides times t k split split).2)
    rw [Nat.sub_add_cancel few] at glued
    rw [glued, both]
    rfl
  rw [List.nil_append, joined] at hperm
  have sorted : all.mergeSort = (Nearest.stretch times t k).indices := by
    refine ((List.mergeSort_perm all _).trans hperm).eq_of_pairwise
      (fun i j _ _ hij hji => Nat.le_antisymm hij hji) ?_ (List.pairwise_le_range' 1)
    refine (List.pairwise_mergeSort ?_ ?_ all).imp of_decide_eq_true
    · intro i j l hij hjl
      exact decide_eq_true (Nat.le_trans (of_decide_eq_true hij) (of_decide_eq_true hjl))
    · intro i j
      rw [Bool.or_eq_true, decide_eq_true_eq, decide_eq_true_eq]
      exact Nat.le_total i j
  unfold nearestIndices
  rw [partitionPoint_eq (pairwise_lt_of_order order t), ok_bind, hall, ok_bind, sorted]
  rfl

theorem stretch_stop_le (times : List Int) (t : Int) (k : Nat) :
    (Nearest.stretch times t k).stop ≤ times.length := by
  have few := takeSides_fst_le k ((times.takeWhile (· < t)).reverse.map (t - ·))
    ((times.dropWhile (· < t)).map (· - t))
  have fewAfter := takeSides_snd_le k ((times.takeWhile (· < t)).reverse.map (t - ·))
    ((times.dropWhile (· < t)).map (· - t))
  have whole := congrArg List.length (List.takeWhile_append_dropWhile (p := (· < t)) (l := times))
  rw [List.length_map, List.length_reverse] at few
  rw [List.length_map] at fewAfter
  rw [List.length_append] at whole
  unfold Nearest.stretch Stretch.stop
  dsimp only
  omega

end AirTraffic.InPlace
