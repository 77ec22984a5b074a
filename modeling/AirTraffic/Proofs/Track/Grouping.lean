import Mathlib.Data.List.Forall2
import Mathlib.Data.List.Perm.Basic
import AirTraffic.Proofs.Basic
import AirTraffic.Proofs.Cleaning.Spacing
import AirTraffic.Scalar.Floating

/-!
# Reports grouped into tracks

Numbers that are totally ordered make reports so, up to reports that compare equal. What a track
holds is then settled by which reports there are, and not by the order in which they came in.
-/
namespace AirTraffic

open Scalar Std

instance {β : Type} {cmp : β → β → Ordering} [TransCmp cmp] :
    TransCmp (Report.compareOption cmp) where
  eq_swap {a b} := by
    cases a with
    | none => cases b <;> rfl
    | some x =>
      cases b with
      | none => rfl
      | some y => exact (OrientedCmp.eq_swap : cmp x y = (cmp y x).swap)
  isLE_trans {a b c} hab hbc := by
    cases a with
    | none => cases c <;> rfl
    | some x =>
      cases b with
      | none => cases hab
      | some y =>
        cases c with
        | none => cases hbc
        | some z =>
          have trans : (cmp x y).isLE → (cmp y z).isLE → (cmp x z).isLE := TransCmp.isLE_trans
          exact trans hab hbc

theorem transCmp_of_field {β γ : Type} (cmp : γ → γ → Ordering) [TransCmp cmp] (field : β → γ) :
    TransCmp fun a b => cmp (field a) (field b) where
  eq_swap {a b} := (OrientedCmp.eq_swap : cmp (field a) (field b) = _)
  isLE_trans {a b c} hab hbc := by
    have trans : (cmp (field a) (field b)).isLE → (cmp (field b) (field c)).isLE →
      (cmp (field a) (field c)).isLE := TransCmp.isLE_trans
    exact trans hab hbc

instance : TransCmp (totalCompare : Float → Float → Ordering) :=
  inferInstanceAs (TransCmp (compareOn Floating.rank))

variable {α ρ : Type} [Scalar α]

namespace Report

def Sorted (reports : List (Report α ρ)) : Prop := reports.Pairwise fun r q => (r.compare q).isLE

theorem alike_iff {r q : Report α ρ} : r.alike q ↔ r.compare q = .eq := beq_iff_eq

variable [TransCmp (totalCompare : α → α → Ordering)]

instance : TransCmp (compare : Report α ρ → Report α ρ → Ordering) := by
  have time := transCmp_of_field Ord.compare (Report.time (α := α) (ρ := ρ))
  have latitude := transCmp_of_field totalCompare fun r : Report α ρ => r.position.latitude
  have longitude := transCmp_of_field totalCompare fun r : Report α ρ => r.position.longitude
  have altitude := transCmp_of_field (compareOption totalCompare) (altitude (α := α) (ρ := ρ))
  have speed := transCmp_of_field (compareOption totalCompare) (speed (α := α) (ρ := ρ))
  have course := transCmp_of_field (compareOption totalCompare) (course (α := α) (ρ := ρ))
  have trackId := transCmp_of_field (compareOption Ord.compare) (trackId (α := α) (ρ := ρ))
  exact inferInstanceAs (TransCmp (compareLex (compareLex (compareLex (compareLex (compareLex
    (compareLex _ _) _) _) _) _) _))

theorem compare_swap (r q : Report α ρ) : q.compare r = (r.compare q).swap := OrientedCmp.eq_swap

theorem alike_iff_isLE {r q : Report α ρ} :
    r.alike q ↔ (r.compare q).isLE ∧ (q.compare r).isLE := by
  rw [alike_iff, compare_swap r q]
  cases r.compare q <;> decide

theorem sort_sorted (reports : List (Report α ρ)) : Sorted (sort reports) := by
  refine List.pairwise_mergeSort (fun r q s => TransCmp.isLE_trans) (fun r q => ?_) reports
  rw [compare_swap r q]
  cases r.compare q <;> rfl

variable (α ρ) in
def alikeSetoid : Setoid (Report α ρ) where
  r r q := r.compare q = .eq
  iseqv := {
    refl _ := ReflCmp.compare_self
    symm h := OrientedCmp.eq_symm h
    trans h k := TransCmp.eq_trans h k }

/-- Which of two reports comes first is a matter of what they compare equal to. -/
def noLater : Quotient (alikeSetoid α ρ) → Quotient (alikeSetoid α ρ) → Prop :=
  Quotient.lift₂ (fun r q => (r.compare q).isLE = true) fun r q s t hrs hqt => by
    rw [TransCmp.congr_left hrs, TransCmp.congr_right hqt]

theorem forall₂_alike {xs ys : List (Report α ρ)} (hperm : xs.Perm ys) (hx : Sorted xs)
    (hy : Sorted ys) : List.Forall₂ (fun r q => r.alike q) xs ys := by
  have antisymm : ∀ a b : Quotient (alikeSetoid α ρ), noLater a b → noLater b a → a = b := by
    refine Quotient.ind₂ fun r q hrq hqr => Quotient.sound ?_
    exact alike_iff.mp (alike_iff_isLE.mpr ⟨hrq, hqr⟩)
  have classes : xs.map (Quotient.mk (alikeSetoid α ρ)) = ys.map (Quotient.mk _) :=
    (hperm.map _).eq_of_pairwise (fun a b _ _ => antisymm a b)
      (List.pairwise_map.mpr hx) (List.pairwise_map.mpr hy)
  have each := List.forall₂_eq_eq_eq ▸ classes
  rw [List.forall₂_map_left_iff, List.forall₂_map_right_iff] at each
  exact each.imp fun r q h => alike_iff.mpr (Quotient.exact h)

end Report

namespace Track

/-- The identities among reports, in order. -/
def identities (reports : List (Report α ρ)) : List String :=
  (reports.filterMap (·.trackId)).eraseDups.mergeSort fun a b => a ≤ b

def ofId (reports : List (Report α ρ)) (id : String) : List (Report α ρ) :=
  reports.filter (·.trackId == some id)

section Identities

omit [Scalar α]

variable {reports : List (Report α ρ)} {id : String}

theorem mem_identities : id ∈ identities reports ↔ ∃ r ∈ reports, r.trackId = some id := by
  rw [identities, List.mem_mergeSort, List.mem_eraseDups, List.mem_filterMap]

theorem identities_increase (reports : List (Report α ρ)) :
    (identities reports).Pairwise (· < ·) := by
  have sorted : (identities reports).Pairwise fun a b => decide (a ≤ b) := by
    refine List.pairwise_mergeSort (fun a b c hab hbc => ?_) (fun a b => ?_) _
    · exact decide_eq_true (String.le_trans (of_decide_eq_true hab) (of_decide_eq_true hbc))
    · simpa using String.le_total a b
  have distinct : (identities reports).Pairwise (· ≠ ·) :=
    (List.mergeSort_perm _ _).nodup_iff.mpr (nodup_eraseDups _)
  refine sorted.imp₂ (fun a b hle hne => ?_) distinct
  by_contra hlt
  exact hne (String.le_antisymm (of_decide_eq_true hle) (String.not_lt.mp hlt))

theorem identities_nodup (reports : List (Report α ρ)) : (identities reports).Nodup :=
  (identities_increase reports).imp fun hlt => String.ne_of_lt hlt

theorem identities_of_perm {arrival : List (Report α ρ)} (hperm : arrival.Perm reports) :
    identities arrival = identities reports := by
  have same : (identities arrival).Perm (identities reports) := by
    refine (List.perm_ext_iff_of_nodup (identities_nodup _) (identities_nodup _)).mpr fun id => ?_
    simp only [mem_identities, hperm.mem_iff]
  refine same.eq_of_pairwise (fun a b _ _ hab hba => ?_) (identities_increase _)
    (identities_increase _)
  exact absurd (String.lt_trans hab hba) (String.lt_irrefl a)

theorem flatMap_ofId_perm {ids : List String} (hnodup : ids.Nodup) (reports : List (Report α ρ)) :
    (ids.flatMap (ofId reports)).Perm (reports.filter (·.trackId.any (· ∈ ids))) := by
  induction ids with
  | nil => simp
  | cons id ids ih =>
    obtain ⟨hid, hnodup⟩ := List.nodup_cons.mp hnodup
    rw [List.flatMap_cons]
    refine ((ih hnodup).append_left _).trans ?_
    have parts := List.filter_append_perm (fun r : Report α ρ => r.trackId == some id)
      (reports.filter (·.trackId.any (· ∈ id :: ids)))
    simp only [List.filter_filter] at parts
    refine List.Perm.trans (.of_eq ?_) parts
    congr 1
    · refine List.filter_congr fun r _ => ?_
      cases r.trackId with
      | none => rfl
      | some other => by_cases same : other = id <;> simp [same]
    · refine List.filter_congr fun r _ => ?_
      cases r.trackId with
      | none => rfl
      | some other => by_cases same : other = id <;> simp [same, hid]

end Identities

theorem group_eq (reports : List (Report α ρ)) :
    group reports = (identities reports).filterMap fun id => ofReports? (ofId reports id) := rfl

theorem group_spec (reports : List (Report α ρ)) :
    List.Forall₂ (fun id t => t.reports = Report.sort (ofId reports id)) (identities reports)
      (group reports) := by
  have known : ∀ id ∈ identities reports, ofId reports id ≠ [] := by
    intro id hid
    obtain ⟨r, hr, hid⟩ := mem_identities.mp hid
    exact List.ne_nil_of_mem (List.mem_filter.mpr ⟨hr, beq_iff_eq.mpr hid⟩)
  rw [group_eq]
  generalize identities reports = ids at known
  induction ids with
  | nil => exact .nil
  | cons id ids ih =>
    obtain ⟨hid, hids⟩ := List.forall_mem_cons.mp known
    have hsort : Report.sort (ofId reports id) ≠ [] :=
      fun h => hid (List.perm_nil.mp (h ▸ (List.mergeSort_perm _ _).symm))
    have htrack : ofReports? (ofId reports id) = some ⟨_, hsort⟩ :=
      ofReports?_eq_some_iff.mpr rfl
    rw [List.filterMap_cons_some (f := fun id => ofReports? (ofId reports id)) htrack]
    exact .cons rfl (ih hids)

variable {reports : List (Report α ρ)} {t : Track α ρ} {id : String}

theorem trackId_of_ofId (h : t.reports = Report.sort (ofId reports id)) {r : Report α ρ}
    (hr : r ∈ t.reports) : r.trackId = some id := by
  rw [h, Report.sort, List.mem_mergeSort] at hr
  exact beq_iff_eq.mp (List.mem_filter.mp hr).2

theorem id?_of_ofId (h : t.reports = Report.sort (ofId reports id)) : t.id? = some id :=
  trackId_of_ofId h (List.head_mem t.reports_ne_nil)

theorem exists_ofId (ht : t ∈ group reports) :
    ∃ id, t.reports = Report.sort (ofId reports id) := by
  rw [group_eq] at ht
  obtain ⟨id, -, htrack⟩ := List.mem_filterMap.mp ht
  exact ⟨id, ofReports?_eq_some_iff.mp htrack⟩

theorem flatMap_group_perm (reports : List (Report α ρ)) :
    ((group reports).flatMap Track.reports).Perm (reports.filter (·.trackId.isSome)) := by
  have sortedOut : ((group reports).flatMap Track.reports).Perm
      ((identities reports).flatMap (ofId reports)) := by
    have each := group_spec reports
    generalize identities reports = ids, group reports = tracks at each ⊢
    induction each with
    | nil => exact .refl _
    | cons h _ ih =>
      rw [List.flatMap_cons, List.flatMap_cons, h]
      exact (List.mergeSort_perm _ _).append ih
  refine sortedOut.trans ((flatMap_ofId_perm (identities_nodup reports) reports).trans (.of_eq ?_))
  refine List.filter_congr fun r hr => ?_
  cases hid : r.trackId with
  | none => rfl
  | some id => simpa using mem_identities.mpr ⟨r, hr, hid⟩

/-- The same reports, up to reports that compare equal. -/
def Alike (t u : Track α ρ) : Prop := List.Forall₂ (fun r q => r.alike q) t.reports u.reports

/-- One track for each identity among some reports, with all of its reports in order. -/
structure Grouping (reports : List (Report α ρ)) (tracks : List (Track α ρ)) : Prop where
  identities : ∃ ids : List String, ids.Pairwise (· < ·) ∧ tracks.map id? = ids.map some
  own : ∀ t ∈ tracks, ∀ r ∈ t.reports, r.trackId = t.id?
  sorted : ∀ t ∈ tracks, Report.Sorted t.reports
  complete : (tracks.flatMap Track.reports).Perm (reports.filter (·.trackId.isSome))

variable [TransCmp (totalCompare : α → α → Ordering)]

theorem group_grouping (reports : List (Report α ρ)) : Grouping reports (group reports) where
  identities := by
    refine ⟨identities reports, identities_increase reports, ?_⟩
    have each := (group_spec reports).imp fun id t h => id?_of_ofId h
    rw [← List.forall₂_eq_eq_eq, List.forall₂_map_left_iff, List.forall₂_map_right_iff]
    exact each.flip
  own t ht r hr := by
    obtain ⟨id, h⟩ := exists_ofId ht
    rw [trackId_of_ofId h hr, id?_of_ofId h]
  sorted t ht := by
    obtain ⟨id, h⟩ := exists_ofId ht
    rw [h]
    exact Report.sort_sorted _
  complete := flatMap_group_perm reports

theorem ofReports?_alike {arrival : List (Report α ρ)} (hperm : arrival.Perm reports) :
    Option.Rel Alike (ofReports? arrival) (ofReports? reports) := by
  have sorted : (Report.sort arrival).Perm (Report.sort reports) :=
    (List.mergeSort_perm _ _).trans (hperm.trans (List.mergeSort_perm _ _).symm)
  unfold ofReports?
  by_cases h : Report.sort reports = []
  · rw [h] at sorted
    rw [dif_neg (not_not.mpr (List.perm_nil.mp sorted)), dif_neg (not_not.mpr h)]
    exact .none
  · have hne : Report.sort arrival ≠ [] := fun h' => h (List.nil_perm.mp (h' ▸ sorted))
    rw [dif_pos hne, dif_pos h]
    exact .some (Report.forall₂_alike sorted (Report.sort_sorted _) (Report.sort_sorted _))

theorem group_of_perm {arrival : List (Report α ρ)} (hperm : arrival.Perm reports) :
    List.Forall₂ Alike (group arrival) (group reports) := by
  rw [group_eq, group_eq, identities_of_perm hperm]
  induction identities reports with
  | nil => exact .nil
  | cons id ids ih =>
    have each := ofReports?_alike (hperm.filter (·.trackId == some id))
    rw [List.filterMap_cons, List.filterMap_cons]
    unfold ofId at *
    generalize ofReports? (arrival.filter _) = t, ofReports? (reports.filter _) = u at each ⊢
    cases each with
    | none => exact ih
    | some h => exact .cons h ih

/-- Grouping loses and mixes nothing, and reports may arrive in any order. Both rest on reports
being totally preordered, with those alike that stand in neither order before each other. -/
theorem grouping_ignores_arrival :
    TransCmp (Report.compare : Report α ρ → Report α ρ → Ordering) ∧
    (∀ r q : Report α ρ, r.alike q ↔ (r.compare q).isLE ∧ (q.compare r).isLE) ∧
    ∀ reports : List (Report α ρ), Grouping reports (group reports) ∧
      ∀ arrival : List (Report α ρ), arrival.Perm reports →
        List.Forall₂ Alike (group arrival) (group reports) :=
  ⟨inferInstance, fun _ _ => Report.alike_iff_isLE,
    fun reports => ⟨group_grouping reports, fun _ hperm => group_of_perm hperm⟩⟩

def floatAt (p : Float × Option Float × Option String) : Report Float Unit where
  time := 0
  position := ⟨p.1, -75⟩
  altitude := p.2.1
  speed := none
  course := none
  curvature := none
  alongTrackDistance := none
  trackId := p.2.2
  payload := ()

def zerosOfBothSigns : List (Report Float Unit) :=
  [(0.0, none, some "B"), (40, some 5000, some "A"), (1, none, none),
    (-0.0, none, some "B")].map floatAt

theorem zerosOfBothSigns_grouped :
    TransCmp (totalCompare : Float → Float → Ordering) ∧
      Grouping zerosOfBothSigns (group zerosOfBothSigns) ∧
      List.Forall₂ Alike (group zerosOfBothSigns.reverse) (group zerosOfBothSigns) := by
  obtain ⟨-, -, grouped⟩ := grouping_ignores_arrival (α := Float) (ρ := Unit)
  obtain ⟨grouping, ignores⟩ := grouped zerosOfBothSigns
  exact ⟨inferInstance, grouping, ignores _ (List.reverse_perm _)⟩

end Track
end AirTraffic
