import AirTraffic.Proofs.Proximity.BallTree

/-!
# Leaves stay small

An overfull leaf is split in two unless all its entries are at one spot. Entries at one spot are
equally far from any pivot and stay together, so the first distant entry to join them is split off
by itself: a leaf grows past its capacity at one spot only.
-/
namespace AirTraffic

open Scalar

variable {α β ε : Type}

/-- The entries of each leaf, from left to right. -/
def Ball.leaves : Ball α β → List (List (Entry β))
  | leaf _ _ entries => [entries]
  | node _ _ left right => left.leaves ++ right.leaves

theorem Ball.flatten_leaves (b : Ball α β) : b.leaves.flatten = b.entries := by
  induction b with
  | leaf pivot radius entries => exact List.append_nil entries
  | node pivot radius left right ihl ihr => rw [leaves, List.flatten_append, ihl, ihr, entries]

def BallTree.leaves (t : BallTree α β) : List (List (Entry β)) := t.root.elim [] Ball.leaves

theorem BallTree.flatten_leaves (t : BallTree α β) : t.leaves.flatten = t.entries := by
  unfold leaves entries
  cases t.root with
  | none => rfl
  | some ball => exact ball.flatten_leaves

variable [ExactScalar α] {distance : β → β → Except ε α} {d : β → β → α}

/-- At no distance from each other. -/
def AtOneSpot (d : β → β → α) (es : List (Entry β)) : Prop :=
  ∀ e ∈ es, ∀ f ∈ es, d e.item f.item = 0

theorem AtOneSpot.subset {es fs : List (Entry β)} (h : AtOneSpot d es) (part : fs ⊆ es) :
    AtOneSpot d fs :=
  fun e he f hf => h e (part he) f (part hf)

namespace Ball

/-- One of some items, and as far from an origin as any of them. -/
def Farthest (d : β → β → α) (origin : β) (items : List β) (a : β) : Prop :=
  a ∈ items ∧ ∀ b ∈ items, d origin b ≤ d origin a

def toFirst (d : β → β → α) (a b : β) (e : Entry β) : Bool := decide (d a e.item ≤ d b e.item)

section Split

variable (h : PseudoMetricOn distance d fun _ => True)

include h

theorem farthest_from_best (origin : β) (es : List (Entry β)) (item : β) :
    ∃ a, (farthest distance origin es item (some (d origin item))).run.value = .ok a ∧
      Farthest d origin (item :: es.map (·.item)) a := by
  induction es generalizing item with
  | nil => exact ⟨item, rfl, List.mem_cons_self, by simp⟩
  | cons e rest ih =>
    rw [farthest, Tally.value_run_measure_bind (h.measures origin e.item trivial trivial)]
    simp only [further, decide_eq_true_eq]
    split
    case isTrue further =>
      obtain ⟨a, hv, ha, all⟩ := ih e.item
      refine ⟨a, hv, List.mem_cons_of_mem _ ha, List.forall_mem_cons.mpr ⟨?_, all⟩⟩
      exact further.le.trans (all e.item List.mem_cons_self)
    case isFalse nearer =>
      obtain ⟨a, hv, ha, all⟩ := ih item
      obtain ⟨own, others⟩ := List.forall_mem_cons.mp all
      refine ⟨a, hv, ?_, ?_⟩
      · rcases List.mem_cons.mp ha with rfl | ha
        · exact List.mem_cons_self
        · exact List.mem_cons_of_mem _ (List.mem_cons_of_mem _ ha)
      · exact List.forall_mem_cons.mpr
          ⟨own, List.forall_mem_cons.mpr ⟨(not_lt.mp nearer).trans own, others⟩⟩

theorem farthest_of_cons (origin item : β) (e : Entry β) (rest : List (Entry β)) :
    ∃ a, (farthest distance origin (e :: rest) item none).run.value = .ok a ∧
      Farthest d origin ((e :: rest).map (·.item)) a := by
  rw [farthest, Tally.value_run_measure_bind (h.measures origin e.item trivial trivial)]
  simp only [further, ExactScalar.isFinite_eq, Bool.true_or, if_true]
  exact farthest_from_best h origin rest e.item

theorem nearer_eq (a b item : β) : (nearer distance a b item).run.value =
    .ok (if d a item ≤ d b item then (true, d a item) else (false, d b item)) := by
  rw [nearer, Tally.value_run_measure_bind (h.measures a item trivial trivial),
    Tally.value_run_measure_bind (h.measures b item trivial trivial)]
  rfl

theorem divide_eq (a b : β) (es : List (Entry β)) (left right : Half α β) :
    ∃ x y, (divide distance a b es left right).run.value =
      .ok (⟨x, left.entries ++ es.filter (toFirst d a b)⟩,
        ⟨y, right.entries ++ es.filter (!toFirst d a b ·)⟩) := by
  induction es generalizing left right with
  | nil => exact ⟨left.radius, right.radius, by simp [divide]⟩
  | cons e rest ih =>
    have near := nearer_eq h a b e.item
    by_cases first : d a e.item ≤ d b e.item
    · obtain ⟨x, y, hv⟩ := ih (left.add e (d a e.item)) right
      rw [if_pos first] at near
      refine ⟨x, y, ?_⟩
      rw [divide, Tally.value_run_bind_ok near]
      simpa [toFirst, first, Half.add] using hv
    · obtain ⟨x, y, hv⟩ := ih left (right.add e (d b e.item))
      rw [if_neg first] at near
      refine ⟨x, y, ?_⟩
      rw [divide, Tally.value_run_bind_ok near]
      simpa [toFirst, first, Half.add] using hv

theorem toFirst_of_atOneSpot {es : List (Entry β)} (spot : AtOneSpot d es) {a : β}
    (ha : a ∈ es.map (·.item)) (b : β) {e : Entry β} (he : e ∈ es) : toFirst d a b e = true := by
  obtain ⟨f, hf, rfl⟩ := List.mem_map.mp ha
  rw [toFirst, spot f hf e he]
  exact decide_eq_true (h.nonneg trivial trivial)

theorem atOneSpot_of_toFirst {a b : β} {es : List (Entry β)}
    (hb : Farthest d a (es.map (·.item)) b) (all : ∀ e ∈ es, toFirst d a b e = true) :
    AtOneSpot d es := by
  obtain ⟨f, hf, rfl⟩ := List.mem_map.mp hb.1
  have own : d a f.item ≤ d f.item f.item := of_decide_eq_true (all f hf)
  rw [h.self _ trivial] at own
  have spot : ∀ e ∈ es, d a e.item ≤ 0 :=
    fun e he => (hb.2 _ (List.mem_map_of_mem he)).trans own
  intro e he g hg
  have through := h.triangle e.item a g.item trivial trivial trivial
  rw [h.symm e.item a trivial trivial] at through
  have apart := h.nonneg (a := e.item) (b := g.item) trivial trivial
  linarith [spot e he, spot g hg]

/-- A split gives every entry to one of two leaves, neither of which goes without, unless all
entries are at one spot. -/
theorem split_cases (es : List (Entry β)) :
    (AtOneSpot d es ∧
      (split? distance es).run.value = .ok (none : Option (Ball α β × Ball α β))) ∨
    (¬AtOneSpot d es ∧ ∃ a b x y,
      (split? distance es).run.value = .ok (some (leaf a x (es.filter (toFirst d a b)),
        leaf b y (es.filter (!toFirst d a b ·)))) ∧
      es.filter (toFirst d a b) ≠ [] ∧ es.filter (!toFirst d a b ·) ≠ []) := by
  cases es with
  | nil => exact Or.inl ⟨fun e he => absurd he List.not_mem_nil, rfl⟩
  | cons first rest =>
    obtain ⟨a, hva, ha⟩ := farthest_of_cons h first.item first.item first rest
    obtain ⟨b, hvb, hb⟩ := farthest_of_cons h a first.item first rest
    obtain ⟨x, y, hv⟩ := divide_eq h a b (first :: rest) ⟨zero, []⟩ ⟨zero, []⟩
    rw [split?, Tally.value_run_bind_ok hva, Tally.value_run_bind_ok hvb,
      Tally.value_run_bind_ok hv]
    simp only [Tally.value_run_pure, List.nil_append]
    by_cases spot : AtOneSpot d (first :: rest)
    · have nobody : (first :: rest).filter (!toFirst d a b ·) = [] := by
        rw [List.filter_eq_nil_iff]
        intro e he
        simp [toFirst_of_atOneSpot h spot ha.1 b he]
      rw [nobody]
      exact Or.inl ⟨spot, rfl⟩
    · have others : (first :: rest).filter (!toFirst d a b ·) ≠ [] := by
        intro nobody
        refine spot (atOneSpot_of_toFirst h hb fun e he => ?_)
        simpa using List.filter_eq_nil_iff.mp nobody e he
      have own : (first :: rest).filter (toFirst d a b) ≠ [] := by
        obtain ⟨f, hf, rfl⟩ := List.mem_map.mp ha.1
        refine List.ne_nil_of_mem (List.mem_filter.mpr ⟨hf, ?_⟩)
        rw [toFirst, h.self _ trivial]
        exact decide_eq_true (h.nonneg trivial trivial)
      rw [if_neg (by simpa using others)]
      exact Or.inr ⟨spot, a, b, x, y, rfl, own, others⟩

end Split

/-- Neither empty nor, unless all entries are at one spot, over capacity. -/
structure WellFilled (d : β → β → α) (es : List (Entry β)) : Prop where
  occupied : es ≠ []
  together : capacity < es.length → AtOneSpot d es

theorem wellFilled_of_le {es : List (Entry β)} (occupied : es ≠ []) (small : es.length ≤ capacity) :
    WellFilled d es :=
  ⟨occupied, fun large => absurd small (not_le.mpr large)⟩

theorem WellFilled.part {es : List (Entry β)} (hes : WellFilled d es) {new : Entry β}
    {p : Entry β → Bool} (alike : ∀ e ∈ es, ∀ f ∈ es, d e.item f.item = 0 → p e = p f)
    (own : (es ++ [new]).filter p ≠ []) (others : (es ++ [new]).filter (!p ·) ≠ []) :
    WellFilled d ((es ++ [new]).filter p) := by
  refine ⟨own, fun large => ?_⟩
  have spot : AtOneSpot d es := by
    have whole := List.length_eq_length_filter_add (l := es ++ [new]) p
    have rest := List.length_pos_of_ne_nil others
    rw [List.length_append, List.length_singleton] at whole
    exact hes.together (by omega)
  cases hnew : p new with
  | false =>
    refine spot.subset ?_
    rw [List.filter_append, List.filter_singleton, hnew]
    simp
  | true =>
    obtain ⟨e, he⟩ := List.exists_mem_of_ne_nil _ others
    obtain ⟨he, hother⟩ := List.mem_filter.mp he
    have old : e ∈ es := by
      rcases List.mem_append.mp he with he | he
      · exact he
      · obtain rfl := List.mem_singleton.mp he
        simp [hnew] at hother
    have alone : es.filter p = [] := by
      rw [List.filter_eq_nil_iff]
      intro f hf
      rw [← alike e old f hf (spot e old f hf)]
      simpa using hother
    rw [List.filter_append, alone, List.filter_singleton, hnew] at large
    simp [capacity] at large

section Insert

variable (h : PseudoMetricOn distance d fun _ => True)

include h

theorem toFirst_eq_of_eq_zero (a b : β) {e f : Entry β} (same : d e.item f.item = 0) :
    toFirst d a b e = toFirst d a b f := by
  rw [toFirst, toFirst, h.eq_of_eq_zero (a := a) trivial trivial trivial same,
    h.eq_of_eq_zero (a := b) trivial trivial trivial same]

theorem insertLeaf_wellFilled (pivot : β) (radius : α) {es : List (Entry β)}
    (hes : WellFilled d es) (new : Entry β) :
    ∀ leaf ∈ (insertLeaf distance pivot radius (es ++ [new])).value.1.leaves,
      WellFilled d leaf := by
  have occupied : es ++ [new] ≠ [] := List.append_ne_nil_of_right_ne_nil _ (List.cons_ne_nil _ _)
  unfold insertLeaf
  split
  case isTrue small => exact List.forall_mem_singleton.mpr (wellFilled_of_le occupied small)
  case isFalse =>
    rcases split_cases h (es ++ [new]) with ⟨spot, hv⟩ | ⟨-, a, b, x, y, hv, own, others⟩
    · simp only [Tally.value_bind, hv]
      exact List.forall_mem_singleton.mpr ⟨occupied, fun _ => spot⟩
    · have alike : ∀ e ∈ es, ∀ f ∈ es, d e.item f.item = 0 → toFirst d a b e = toFirst d a b f :=
        fun e _ f _ same => toFirst_eq_of_eq_zero h a b same
      simp only [Tally.value_bind, hv]
      refine List.forall_mem_cons.mpr ⟨hes.part alike own others, List.forall_mem_singleton.mpr ?_⟩
      refine hes.part (fun e he f hf same => congrArg _ (alike e he f hf same)) others ?_
      simpa using own

theorem insert_wellFilled (new : Entry β) (b : Ball α β)
    (hb : ∀ leaf ∈ b.leaves, WellFilled d leaf) :
    ∀ leaf ∈ (b.insert distance new).value.1.leaves, WellFilled d leaf := by
  induction b with
  | leaf pivot radius entries =>
    simp only [insert, Tally.value_bind, Tally.value_run_measure,
      h.measures pivot new.item trivial trivial]
    exact insertLeaf_wellFilled h pivot _ (hb entries (List.mem_singleton_self _)) new
  | node pivot radius left right ihl ihr =>
    obtain ⟨hl, hr⟩ := List.forall_mem_append.mp hb
    have near := nearer_eq h left.pivot right.pivot new.item
    simp only [insert, Tally.value_bind, Tally.value_run_measure,
      h.measures pivot new.item trivial trivial]
    by_cases first : d left.pivot new.item ≤ d right.pivot new.item
    · rw [if_pos first] at near
      simp only [near]
      exact List.forall_mem_append.mpr ⟨ihl hl, hr⟩
    · rw [if_neg first] at near
      simp only [near]
      exact List.forall_mem_append.mpr ⟨hl, ihr hr⟩

end Insert

end Ball

open Ball (WellFilled)

theorem BallTree.insert_wellFilled (h : PseudoMetricOn distance d fun _ => True) (t : BallTree α β)
    (new : Entry β) (ht : ∀ leaf ∈ t.leaves, WellFilled d leaf) :
    ∀ leaf ∈ (t.insert distance new).value.1.leaves, WellFilled d leaf := by
  unfold BallTree.insert
  simp only [Tally.value_bind, Tally.value_run_measure,
    h.measures new.item new.item trivial trivial]
  cases hroot : t.root with
  | none =>
    exact List.forall_mem_singleton.mpr
      (Ball.wellFilled_of_le (List.cons_ne_nil _ _) (by simp [Ball.capacity]))
  | some ball =>
    have hball : ∀ leaf ∈ ball.leaves, WellFilled d leaf := by
      simpa [BallTree.leaves, hroot] using ht
    have grown := Ball.insert_wellFilled h new ball hball
    simp only [Tally.value_bind]
    split
    · simpa [BallTree.leaves, *] using grown
    · simpa [BallTree.leaves, *] using grown

theorem BallTree.ofEntries_wellFilled (h : PseudoMetricOn distance d fun _ => True)
    (es : List (Entry β)) : ∀ leaf ∈ (ofEntries distance es).leaves, WellFilled d leaf := by
  induction es using List.reverseRecOn with
  | nil => exact fun leaf hleaf => absurd hleaf List.not_mem_nil
  | append_singleton es new ih =>
    rw [ofEntries_concat]
    exact insert_wellFilled h _ new ih

/-- The leaves of a tree hold what was put in, each of them something, and more than their capacity
only at one spot. A split is refused just when all entries are at one spot; else both leaves get
some of the entries, and together all of them. -/
theorem leaves_stay_small (h : PseudoMetricOn distance d fun _ => True)
    (inserted : List (Entry β)) :
    let leaves := (BallTree.ofEntries distance inserted).leaves
    leaves.flatten.Perm inserted ∧
    (∀ leaf ∈ leaves, leaf ≠ [] ∧ (Ball.capacity < leaf.length → AtOneSpot d leaf)) ∧
    ∀ es : List (Entry β), ∃ halves : Option (Ball α β × Ball α β),
      (Ball.split? distance es).run.value = .ok halves ∧
      (halves = none ↔ AtOneSpot d es) ∧
      ∀ left right, halves = some (left, right) →
        left.entries ≠ [] ∧ right.entries ≠ [] ∧ (left.entries ++ right.entries).Perm es := by
  intro leaves
  refine ⟨?_, ?_, ?_⟩
  · rw [BallTree.flatten_leaves]
    exact (BallTree.holds_ofEntries h.coverage fun e _ => trivial).entries
  · intro leaf hleaf
    have filled := BallTree.ofEntries_wellFilled h inserted leaf hleaf
    exact ⟨filled.occupied, filled.together⟩
  · intro es
    rcases Ball.split_cases h es with ⟨spot, hv⟩ | ⟨apart, a, b, x, y, hv, own, others⟩
    · refine ⟨none, hv, iff_of_true rfl spot, ?_⟩
      intro left right hhalves
      cases hhalves
    · refine ⟨_, hv, iff_of_false (Option.some_ne_none _) apart, ?_⟩
      intro left right hhalves
      obtain ⟨rfl, rfl⟩ := Prod.mk.inj (Option.some.inj hhalves)
      exact ⟨own, others, List.filter_append_perm _ es⟩

def milesApart (a b : ℚ) : Except Empty ℚ := .ok |a - b|

theorem milesApart_pseudoMetric : PseudoMetricOn milesApart (fun a b => |a - b|) fun _ => True where
  measures _ _ _ _ := rfl
  self a _ := by simp
  symm a b _ _ := abs_sub_comm a b
  triangle a b c _ _ _ := abs_sub_le a b c

def twentyAndOne : List (Entry ℚ) :=
  (List.range 21).map fun i => ⟨i, if i < 20 then 3 else 8⟩

theorem twentyAndOne_in_two_leaves :
    PseudoMetricOn milesApart (fun a b => |a - b|) (fun _ => True) ∧
    let leaves := (BallTree.ofEntries milesApart twentyAndOne).leaves
    leaves.map (·.map (·.id)) = [[20], List.range 20] ∧ leaves.flatten.Perm twentyAndOne ∧
    (∀ leaf ∈ leaves, Ball.capacity < leaf.length → AtOneSpot (fun a b => |a - b|) leaf) ∧
    (Ball.split? milesApart (twentyAndOne.take 20)).run.value = .ok none := by
  refine ⟨milesApart_pseudoMetric, ?_⟩
  intro leaves
  obtain ⟨whole, small, split⟩ := leaves_stay_small milesApart_pseudoMetric twentyAndOne
  refine ⟨by decide +kernel, whole, fun leaf hleaf => (small leaf hleaf).2, ?_⟩
  obtain ⟨halves, hv, refused, -⟩ := split (twentyAndOne.take 20)
  have spot : AtOneSpot (fun a b => |a - b|) (twentyAndOne.take 20) := by
    unfold AtOneSpot
    decide +kernel
  rwa [refused.mpr spot] at hv

end AirTraffic
