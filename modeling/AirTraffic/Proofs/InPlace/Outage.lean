import Mathlib.Data.List.GetD
import AirTraffic.Cleaning.Outage
import AirTraffic.Proofs.InPlace.Neighbours
import AirTraffic.Proofs.InPlace.Spacing
import AirTraffic.Proofs.Track.Order

/-!
# Outages in place

Outages are ranges of indices, found from the times around a gap, and what is dropped next to them
is flagged range by range.
-/
namespace AirTraffic

open Report

variable {α ρ : Type}

namespace InPlace

def preceding (test : OutageTest α) (times : List Int) (last : Nat) : Checked Stretch := do
  let t ← read times last
  let start ← partitionPoint (· ≤ t - test.windowMs) times 0 times.length
  return .upTo (min start (last + 1)) (last + 1)

def following (test : OutageTest α) (times : List Int) (first : Nat) : Checked Stretch := do
  let t ← read times first
  let stop ← partitionPoint (· < t + test.windowMs) times 0 times.length
  return .upTo first (max stop first)

def outageAt (test : OutageTest α) (times : List Int) (i : Nat) : Checked (Option Outage) := do
  let t ← read times i
  let before ← difference i 1
  if (← read times before) + test.gapMs < t then
    return some ⟨← preceding test times before, ← following test times i⟩
  else return none

def outages (test : OutageTest α) (times : List Int) : Checked (List Outage) :=
  if times.isEmpty then return []
  else do
    let head ← following test times 0
    let tail ← preceding test times (← difference times.length 1)
    let gaps ← (List.range' 1 (times.length - 1)).mapM (outageAt test times)
    return ⟨⟨0, 0⟩, head⟩ :: ⟨tail, ⟨0, 0⟩⟩ :: gaps.filterMap id

end InPlace

namespace OutageTest

open InPlace

variable (test : OutageTest α) {times : List Int} (order : times.Pairwise (· ≤ ·))

section Ranges

include order

variable {i : Nat} (hi : i < times.length)

include hi

theorem preceding_eq :
    preceding test times i = .ok (test.inspectedBefore times i times[i]) := by
  unfold preceding
  rw [read_of_lt hi, ok_bind, partitionPoint_eq (pairwise_le_of_order order _)]
  rfl

theorem following_eq :
    following test times i = .ok (test.inspectedAfter times i times[i]) := by
  unfold following
  rw [read_of_lt hi, ok_bind, partitionPoint_eq (pairwise_lt_of_order order _), ok_bind]
  refine congrArg (fun length => Except.ok (Stretch.mk i length)) ?_
  omega

end Ranges

/-- The outage before an index, if there is a gap. -/
def outageBefore? (times : List Int) (i : Nat) (t u : Int) : Option Outage :=
  if t + test.gapMs < u then
    some ⟨test.inspectedBefore times i t, test.inspectedAfter times (i + 1) u⟩
  else none

include order in
theorem outageAt_eq {i : Nat} (before : i < times.length) (hi : i + 1 < times.length) :
    outageAt test times (i + 1) = .ok (test.outageBefore? times i times[i] times[i + 1]) := by
  unfold outageAt outageBefore?
  rw [read_of_lt hi, ok_bind, difference_of_le (Nat.le_add_left 1 i), ok_bind, Nat.add_sub_cancel,
    read_of_lt before, ok_bind]
  split
  · rw [preceding_eq test order before, ok_bind, following_eq test order hi]
    rfl
  · rfl

theorem outages_eq_filterMap (start : Int) (rest : List Int) :
    test.outages (start :: rest) = ⟨⟨0, 0⟩, test.inspectedAfter (start :: rest) 0 start⟩ ::
      ⟨test.inspectedBefore (start :: rest) rest.length ((start :: rest).getD rest.length 0),
        ⟨0, 0⟩⟩ ::
      (List.range rest.length).filterMap fun i => test.outageBefore? (start :: rest) i
        ((start :: rest).getD i 0) ((start :: rest).getD (i + 1) 0) := by
  have stop : rest.getLastD start = (start :: rest).getD rest.length 0 := by
    rw [← List.getLast_eq_getLastD (List.cons_ne_nil start rest), List.getLast_eq_getElem]
    exact (List.getElem_eq_getD 0).trans (by simp)
  have neighbours : ((start :: rest).zip rest).zipIdx = (List.range rest.length).map fun i =>
      (((start :: rest).getD i 0, (start :: rest).getD (i + 1) 0), i) := by
    refine List.ext_getElem (by simp) fun i hi _ => ?_
    rw [List.length_zipIdx, List.length_zip] at hi
    have inside : i < rest.length := by omega
    have insideBoth : i < (start :: rest).length := Nat.lt_succ_of_lt inside
    rw [List.getElem_zipIdx, List.getElem_zip, List.getElem_map, List.getElem_range, Nat.zero_add,
      List.getD_eq_getElem _ 0 insideBoth, List.getD_eq_getElem _ 0 (Nat.succ_lt_succ inside)]
    rfl
  unfold outages
  simp only [stop, neighbours]
  rw [← List.filterMap_eq_map, List.filterMap_filter, List.filterMap_map]
  simp only [Function.comp_def, decide_eq_true_eq]
  rfl

include order in
theorem outages_eq : InPlace.outages test times = .ok (test.outages times) := by
  rcases times with _ | ⟨start, rest⟩
  · rfl
  · have first := following_eq test order (Nat.succ_pos rest.length)
    have last := preceding_eq test order (Nat.lt_succ_self rest.length)
    have gaps : (List.range' 1 rest.length).mapM (outageAt test (start :: rest)) =
        .ok ((List.range' 1 rest.length).map fun i => test.outageBefore? (start :: rest) (i - 1)
          ((start :: rest).getD (i - 1) 0) ((start :: rest).getD i 0)) := by
      refine mapM_ok fun i hi => ?_
      have bounds := List.mem_range'_1.mp hi
      obtain ⟨k, rfl⟩ : ∃ k, i = k + 1 := ⟨i - 1, by omega⟩
      have inside : k + 1 < (start :: rest).length := by rw [List.length_cons]; omega
      have before := Nat.lt_of_succ_lt inside
      rw [outageAt_eq test order before inside, Nat.add_sub_cancel,
        List.getD_eq_getElem _ 0 inside, List.getD_eq_getElem _ 0 before]
    have shifted : List.range' 1 rest.length = (List.range rest.length).map (· + 1) := by
      rw [List.range_eq_range']
      exact List.range'_succ_left
    unfold InPlace.outages
    rw [if_neg (by simp), first, ok_bind, List.length_cons, difference_of_le (Nat.le_add_left 1 _),
      ok_bind, Nat.add_sub_cancel, last, ok_bind, gaps, ok_bind, outages_eq_filterMap, shifted,
      List.map_map, List.filterMap_map, List.getD_eq_getElem _ 0 (Nat.lt_succ_self rest.length)]
    rfl

theorem inspectedBefore_stop_le {i : Nat} (hi : i < times.length) (t : Int) :
    (test.inspectedBefore times i t).stop ≤ times.length := by
  unfold inspectedBefore Stretch.upTo Stretch.stop
  dsimp only
  omega

theorem inspectedAfter_stop_le {i : Nat} (hi : i ≤ times.length) (t : Int) :
    (test.inspectedAfter times i t).stop ≤ times.length := by
  have := (List.takeWhile_prefix (l := times) fun u => decide (u < t + test.windowMs)).length_le
  unfold inspectedAfter Stretch.upTo Stretch.stop
  dsimp only
  omega

theorem outages_inside {o : Outage} (ho : o ∈ test.outages times) :
    o.before.stop ≤ times.length ∧ o.after.stop ≤ times.length := by
  rcases times with _ | ⟨start, rest⟩
  · cases ho
  · rw [outages_eq_filterMap] at ho
    rcases List.mem_cons.mp ho with rfl | ho
    · exact ⟨Nat.zero_le _, test.inspectedAfter_stop_le (Nat.zero_le _) _⟩
    · rcases List.mem_cons.mp ho with rfl | ho
      · exact ⟨test.inspectedBefore_stop_le (Nat.lt_succ_self _) _, Nat.zero_le _⟩
      · obtain ⟨i, hi, hgap⟩ := List.mem_filterMap.mp ho
        have inside : i < rest.length := List.mem_range.mp hi
        obtain ⟨-, same⟩ := Option.ite_none_right_eq_some.mp hgap
        obtain rfl := Option.some.inj same
        constructor
        · exact test.inspectedBefore_stop_le (Nat.lt_succ_of_lt inside) _
        · exact test.inspectedAfter_stop_le (Nat.succ_le_succ (Nat.le_of_lt inside)) _

end OutageTest

variable [Scalar α]

namespace InPlace

def badAt (test : OutageTest α) (plane : LocalPlane α) (reports : List (Report α ρ)) (i : Nat) :
    Checked Bool := do
  let p ← read reports i
  let q ← read reports (i + 1)
  let r ← read reports (i + 2)
  return decide (test.maximumAcceleration < OutageTest.acceleration plane p q r)

/-- From the end of the first bad triple on. -/
def flagBefore (bad : Nat → Checked Bool) (stop : Nat) :
    List Nat → List Bool → Checked (List Bool)
  | [], flags => return flags
  | i :: rest, flags => do
    if ← bad i then sweep flags (i + 2) stop fun _ => true
    else flagBefore bad stop rest flags

/-- From the start on, as far as the start of each bad triple. -/
def flagAfter (bad : Nat → Checked Bool) (start : Nat) (flags : List Bool) (i : Nat) :
    Checked (List Bool) := do
  if ← bad i then sweep flags start (i + 1) fun _ => true
  else return flags

def triplesOf (s : Stretch) : List Nat := List.range' s.start (s.stop - 2 - s.start)

def flagOutage (bad : Nat → Checked Bool) (flags : List Bool) (o : Outage) :
    Checked (List Bool) := do
  let flags ← flagBefore bad o.before.stop (triplesOf o.before) flags
  (triplesOf o.after).foldlM (flagAfter bad o.after.start) flags

def outageFlags (test : OutageTest α) (reports : List (Report α ρ)) : Checked (List Bool) := do
  let blank := List.replicate reports.length false
  match reports.head? with
  | none => return blank
  | some first =>
    let bad := badAt test (.around first.position) reports
    (← outages test (times reports)).foldlM (flagOutage bad) blank

end InPlace

namespace OutageTest

open InPlace

section Flags

variable {γ : Type} {source : List γ} {bad : Nat → Bool} {badly : Nat → Checked Bool}

theorem triplesOf_eq (s : Stretch) : triplesOf s = triples s := by
  unfold triplesOf triples Stretch.stop
  congr 1
  omega

theorem triples_increase (s : Stretch) : (triples s).Pairwise (· < ·) := List.pairwise_lt_range' 1

theorem contains_upTo {start stop j : Nat} :
    (Stretch.upTo start stop).contains j = decide (start ≤ j ∧ j < stop) := by
  unfold Stretch.upTo Stretch.contains Stretch.stop
  rw [Bool.eq_iff_iff, Bool.and_eq_true, decide_eq_true_eq, decide_eq_true_eq, decide_eq_true_eq]
  dsimp only
  omega

theorem contains_nothing (j : Nat) : (Stretch.mk 0 0).contains j = false := by
  simp [Stretch.contains, Stretch.stop]

theorem sweep_flags {start stop : Nat} (hstart : start ≤ stop) (hstop : stop ≤ source.length)
    (done : Nat → γ → Bool) : sweep (source.mapIdx done) start stop (fun _ => true) =
      .ok (source.mapIdx fun j y => done j y || (Stretch.upTo start stop).contains j) := by
  rw [sweep_mapIdx done hstart hstop]
  refine ok_mapIdx_congr fun j _ => ?_
  rw [contains_upTo]
  by_cases within : start ≤ j ∧ j < stop
  · simp [within]
  · simp [within]

theorem flagBefore_mapIdx {stop : Nat} (hstop : stop ≤ source.length) {is : List Nat}
    (known : ∀ i ∈ is, badly i = .ok (bad i)) (inside : ∀ i ∈ is, i + 2 ≤ stop)
    (done : Nat → γ → Bool) : flagBefore badly stop is (source.mapIdx done) =
      .ok (source.mapIdx fun j y =>
        done j y || (is.find? bad).any fun i => (Stretch.upTo (i + 2) stop).contains j) := by
  induction is with
  | nil =>
    refine ok_mapIdx_congr fun j _ => ?_
    simp
  | cons i is ih =>
    obtain ⟨hi, his⟩ := List.forall_mem_cons.mp known
    obtain ⟨hin, hins⟩ := List.forall_mem_cons.mp inside
    rw [flagBefore, hi, ok_bind]
    cases hbad : bad i with
    | true =>
      rw [if_pos rfl, sweep_flags hin hstop, List.find?_cons_of_pos hbad]
      rfl
    | false =>
      rw [if_neg Bool.false_ne_true, ih his hins, List.find?_cons_of_neg (by simp [hbad])]

theorem flagAfter_mapIdx {start i : Nat} (hi : badly i = .ok (bad i)) (hstart : start ≤ i)
    (hin : i < source.length) (done : Nat → γ → Bool) :
    flagAfter badly start (source.mapIdx done) i = .ok (source.mapIdx fun j y =>
      done j y || (bad i && (Stretch.upTo start (i + 1)).contains j)) := by
  unfold flagAfter
  rw [hi, ok_bind]
  cases bad i with
  | true => exact sweep_flags (Nat.le_succ_of_le hstart) hin done
  | false =>
    refine ok_mapIdx_congr fun j _ => ?_
    simp

theorem any_of_last {start j : Nat} {is : List Nat} (increase : is.Pairwise (· < ·)) :
    (is.any fun i => bad i && (Stretch.upTo start (i + 1)).contains j) =
      (is.reverse.find? bad).any fun i => (Stretch.upTo start (i + 1)).contains j := by
  cases hlast : is.reverse.find? bad with
  | none =>
    rw [List.find?_eq_none] at hlast
    refine List.any_eq_false.mpr fun i hi => ?_
    simp [hlast i (List.mem_reverse.mpr hi)]
  | some i =>
    obtain ⟨hbad, later, earlier, hsplit, hlater⟩ := List.find?_eq_some_iff_append.mp hlast
    rw [List.reverse_eq_iff, List.reverse_append, List.reverse_cons] at hsplit
    have le_last : ∀ k ∈ is, bad k → k ≤ i := by
      intro k hk hkbad
      rw [hsplit] at hk increase
      rcases List.mem_append.mp hk with hk | hk
      · rcases List.mem_append.mp hk with hk | hk
        · have := (List.pairwise_append.mp (List.pairwise_append.mp increase).1).2.2 k hk i
            (List.mem_singleton_self i)
          exact Nat.le_of_lt this
        · exact Nat.le_of_eq (List.mem_singleton.mp hk)
      · have := hlater k (List.mem_reverse.mp hk)
        rw [hkbad] at this
        cases this
    rw [Option.any_some, Bool.eq_iff_iff, List.any_eq_true]
    simp only [Bool.and_eq_true, contains_upTo, decide_eq_true_eq]
    constructor
    · rintro ⟨k, hk, hkbad, hj⟩
      have := le_last k hk hkbad
      omega
    · intro hj
      exact ⟨i, hsplit ▸ by simp, hbad, hj⟩

theorem droppedAfter_contains (s : Stretch) (j : Nat) : (droppedAfter bad s).contains j =
    ((triples s).reverse.find? bad).any fun i => (Stretch.upTo s.start (i + 1)).contains j := by
  unfold droppedAfter
  cases (triples s).reverse.find? bad with
  | none => exact contains_nothing j
  | some i => rfl

theorem droppedBefore_contains (s : Stretch) (j : Nat) : (droppedBefore bad s).contains j =
    ((triples s).find? bad).any fun i => (Stretch.upTo (i + 2) s.stop).contains j := by
  unfold droppedBefore
  cases (triples s).find? bad with
  | none => exact contains_nothing j
  | some i => rfl

theorem flagOutage_mapIdx {o : Outage} (hbefore : o.before.stop ≤ source.length)
    (hafter : o.after.stop ≤ source.length)
    (known : ∀ i, i + 2 < source.length → badly i = .ok (bad i)) (done : Nat → γ → Bool) :
    flagOutage badly (source.mapIdx done) o = .ok (source.mapIdx fun j y => done j y ||
      ((droppedBefore bad o.before).contains j || (droppedAfter bad o.after).contains j)) := by
  have within (s : Stretch) : ∀ i ∈ triples s, s.start ≤ i ∧ i + 2 < s.stop := by
    intro i hi
    have bounds := List.mem_range'_1.mp hi
    unfold Stretch.stop
    omega
  have knownIn {s : Stretch} (hs : s.stop ≤ source.length) :
      ∀ i ∈ triples s, badly i = .ok (bad i) :=
    fun i hi => known i (Nat.lt_of_lt_of_le (within s i hi).2 hs)
  have inside : ∀ i ∈ triples o.before, i + 2 ≤ o.before.stop :=
    fun i hi => Nat.le_of_lt (within _ i hi).2
  have each : ∀ i ∈ triples o.after, ∀ done : Nat → γ → Bool,
      flagAfter badly o.after.start (source.mapIdx done) i = .ok (source.mapIdx fun j y =>
        done j y || (bad i && (Stretch.upTo o.after.start (i + 1)).contains j)) := by
    intro i hi done
    have bounds := within _ i hi
    exact flagAfter_mapIdx (knownIn hafter i hi) bounds.1 (by omega) done
  unfold flagOutage
  rw [triplesOf_eq, flagBefore_mapIdx hbefore (knownIn hbefore) inside done, ok_bind, triplesOf_eq,
    foldlM_edits (fun i j flag =>
      flag || (bad i && (Stretch.upTo o.after.start (i + 1)).contains j))
      each]
  refine ok_mapIdx_congr fun j _ => ?_
  rw [foldl_or, any_of_last (triples_increase _), droppedBefore_contains,
    droppedAfter_contains, Bool.or_assoc]

end Flags

section Bad

variable {plane : LocalPlane α} {reports : List (Report α ρ)} {i : Nat}

theorem badTriples_getElem? (test : OutageTest α) (hi : i + 2 < reports.length) :
    (test.badTriples plane reports)[i]? = some (decide
      (test.maximumAcceleration <
        acceleration plane reports[i] reports[i + 1] reports[i + 2])) := by
  induction i generalizing reports with
  | zero =>
    match reports, hi with
    | p :: q :: r :: rest, _ => rfl
  | succ i ih =>
    match reports, hi with
    | p :: q :: r :: rest, hi => exact ih (Nat.lt_of_succ_lt_succ hi)

theorem badAt_eq (test : OutageTest α) (hi : i + 2 < reports.length) :
    badAt test plane reports i =
      .ok ((test.badTriples plane reports).toArray.getD i false) := by
  have second := Nat.lt_of_succ_lt hi
  have entry : (test.badTriples plane reports).toArray.getD i false =
      (test.badTriples plane reports)[i]?.getD false := by simp
  unfold badAt
  rw [read_of_lt (Nat.lt_of_succ_lt second), ok_bind, read_of_lt second, ok_bind, read_of_lt hi,
    ok_bind, entry, badTriples_getElem? test hi]
  rfl

end Bad

theorem flags_eq (test : OutageTest α) {reports : List (Report α ρ)} (order : InOrder reports) :
    outageFlags test reports = .ok (test.flags reports) := by
  rcases reports with _ | ⟨first, rest⟩
  · rfl
  · let bad (i : Nat) : Bool :=
      (test.badTriples (.around first.position) (first :: rest)).toArray.getD i false
    have each : ∀ o ∈ test.outages (times (first :: rest)), ∀ done : Nat → Report α ρ → Bool,
        flagOutage (badAt test (.around first.position) (first :: rest))
          ((first :: rest).mapIdx done) o = .ok ((first :: rest).mapIdx fun j r => done j r ||
            ((droppedBefore bad o.before).contains j ||
              (droppedAfter bad o.after).contains j)) := by
      intro o ho done
      obtain ⟨hbefore, hafter⟩ := test.outages_inside ho
      rw [times, List.length_map] at hbefore hafter
      exact flagOutage_mapIdx hbefore hafter (fun i hi => badAt_eq test hi) done
    unfold outageFlags
    rw [List.head?_cons]
    dsimp only
    rw [outages_eq test order, ok_bind, foldlM_marks each]
    refine congrArg Except.ok (List.ext_getElem ?_ fun j hj _ => ?_)
    · simp [flags, dropFlags, times]
    · simp only [flags, dropFlags, List.getElem_mapIdx, List.getElem_map, List.getElem_range,
        List.any_flatMap, List.any_cons, List.any_nil, Bool.or_false, bad]

end OutageTest

end AirTraffic
