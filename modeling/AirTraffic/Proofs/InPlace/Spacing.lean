import AirTraffic.Cleaning.Spacing
import AirTraffic.Proofs.InPlace.Access

/-!
# Flags in place

Flags are set in an array of the length of the track, two at a time for reports crowded together.
-/
namespace AirTraffic.InPlace

section Marks

variable {ι γ : Type} {source : List γ} {rounds : List ι}
  {round : List Bool → ι → Checked (List Bool)} {covers : ι → Nat → Bool}

theorem foldlM_marks (h : ∀ k ∈ rounds, ∀ done : Nat → γ → Bool,
    round (source.mapIdx done) k = .ok (source.mapIdx fun j y => done j y || covers k j)) :
    rounds.foldlM round (List.replicate source.length false) =
      .ok (source.mapIdx fun j _ => rounds.any (covers · j)) := by
  have blank : List.replicate source.length false = source.mapIdx fun _ _ => false :=
    List.ext_getElem (by simp) (by simp)
  rw [blank, foldlM_edits (fun k j flag => flag || covers k j) h]
  simp only [foldl_or, Bool.false_or]

end Marks

/-- A report too close to the one before it is marked, and so is that one. -/
def markCrowded (c : Crowding) (times : List Int) (flags : List Bool) (i : Nat) :
    Checked (List Bool) := do
  let time ← read times i
  let before ← difference i 1
  if time - (← read times before) < c.minimumMs then
    let flags ← write flags before true
    write flags i true
  else return flags

def crowdedFlags (c : Crowding) (times : List Int) : Checked (List Bool) :=
  (List.range' 1 (times.length - 1)).foldlM (markCrowded c times)
    (List.replicate times.length false)

end AirTraffic.InPlace

namespace AirTraffic.Crowding

open InPlace

variable (c : Crowding)

def closeAt : List Int → Nat → Bool
  | t :: u :: _, 1 => u - t < c.minimumMs
  | _ :: times, k + 1 => closeAt times k
  | _, _ => false

theorem closeAt_of_lt {times : List Int} {k : Nat} (h : k + 1 < times.length) :
    c.closeAt times (k + 1) = decide (times[k + 1] - times[k] < c.minimumMs) := by
  induction k generalizing times with
  | zero =>
    match times, h with
    | t :: u :: rest, _ => rfl
  | succ k ih =>
    match times, h with
    | t :: u :: rest, h => exact ih (Nat.lt_of_succ_lt_succ h)

theorem closeAt_of_ge {times : List Int} {k : Nat} (h : times.length ≤ k) :
    c.closeAt times k = false := by
  fun_induction closeAt c times k with
  | case1 t u rest =>
    rw [List.length_cons, List.length_cons] at h
    omega
  | case2 t times k _ ih => exact ih (Nat.le_of_succ_le_succ h)
  | case3 => rfl

theorem flagsFrom_eq (afterClose : Bool) (times : List Int) : c.flagsFrom afterClose times =
    times.mapIdx fun j _ =>
      (j == 0 && afterClose || c.closeAt times j) || c.closeAt times (j + 1) := by
  fun_induction flagsFrom c afterClose times with
  | case1 => rfl
  | case2 afterClose t => simp [closeAt]
  | case3 afterClose t u rest close ih =>
    refine List.ext_getElem (by simp [ih]) fun j hj hj' => ?_
    rcases j with _ | _ | j
    · simp [closeAt, close]
    · simp [ih, closeAt, close]
    · simp [ih, closeAt]

/-- The two reports that a report too close to the one before it marks. -/
def covers (times : List Int) (k j : Nat) : Bool := c.closeAt times k && (j == k - 1 || j == k)

theorem markCrowded_mapIdx {times : List Int} {k : Nat} (inside : k + 1 < times.length)
    (done : Nat → Int → Bool) : markCrowded c times (times.mapIdx done) (k + 1) =
      .ok (times.mapIdx fun j t => done j t || c.covers times (k + 1) j) := by
  have before := Nat.lt_of_succ_lt inside
  unfold markCrowded
  rw [read_of_lt inside, ok_bind, difference_of_le (Nat.le_add_left 1 k), ok_bind,
    Nat.add_sub_cancel, read_of_lt before, ok_bind]
  split
  case isTrue close =>
    rw [write_mapIdx done before, ok_bind, write_mapIdx _ inside]
    refine ok_mapIdx_congr fun j _ => ?_
    rw [covers, closeAt_of_lt c inside, decide_eq_true close]
    by_cases hj : j = k + 1
    · simp [hj]
    · by_cases hk : j = k
      · simp [hk]
      · simp [hj, hk]
  case isFalse apart =>
    refine ok_mapIdx_congr fun j _ => ?_
    rw [covers, closeAt_of_lt c inside, decide_eq_false apart, Bool.false_and, Bool.or_false]

theorem any_covers {times : List Int} {j : Nat} (hj : j < times.length) :
    (List.range' 1 (times.length - 1)).any (c.covers times · j) =
      (c.closeAt times j || c.closeAt times (j + 1)) := by
  rw [Bool.eq_iff_iff, List.any_eq_true, Bool.or_eq_true]
  simp only [covers, List.mem_range'_1, Bool.and_eq_true, Bool.or_eq_true, beq_iff_eq]
  constructor
  · rintro ⟨k, hk, close, before | here⟩
    · right
      rwa [before, Nat.sub_add_cancel hk.1]
    · left
      rwa [here]
  · rintro (close | close)
    · have positive : j ≠ 0 := by
        rintro rfl
        rw [closeAt.eq_def] at close
        cases times <;> simp at close
      exact ⟨j, by omega, close, Or.inr rfl⟩
    · have inside : j + 1 < times.length := by
        by_contra outside
        rw [closeAt_of_ge c (Nat.not_lt.mp outside)] at close
        cases close
      exact ⟨j + 1, by omega, close, Or.inl rfl⟩

theorem crowdedFlags_eq (times : List Int) : crowdedFlags c times = .ok (c.flags times) := by
  have marked : crowdedFlags c times = .ok (times.mapIdx fun j _ =>
      (List.range' 1 (times.length - 1)).any (c.covers times · j)) := by
    refine foldlM_marks ?_
    intro k hk done
    have bounds := List.mem_range'_1.mp hk
    obtain ⟨i, rfl⟩ : ∃ i, k = i + 1 := ⟨k - 1, by omega⟩
    exact c.markCrowded_mapIdx (by omega) done
  rw [marked, flags, flagsFrom_eq]
  refine ok_mapIdx_congr fun j hj => ?_
  rw [any_covers c hj, Bool.and_false, Bool.false_or]

end AirTraffic.Crowding
