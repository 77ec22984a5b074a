import Mathlib.Tactic.Linarith
import AirTraffic.Proofs.Scalar.Exact
import AirTraffic.Proximity.BallTree

/-!
# Ball trees hold what was put in

An insertion succeeds and adds one entry wherever the items can be measured, whatever the
scalars are. What a radius says about the items beneath it is a parameter: nothing for any
scalars, an upper bound of distances for exact ones. A search passes over no hit then.
-/
namespace AirTraffic

open Scalar

variable {α β ε : Type}

/-- Items that satisfy `P` can be measured against each other. -/
def Measures (distance : β → β → Except ε α) (P : β → Prop) : Prop :=
  ∀ a b, P a → P b → ∃ x, distance a b = .ok x

/-- `R pivot radius item` holds of a new ball and is kept while radii grow. -/
structure Coverage [Scalar α] (distance : β → β → Except ε α) (P : β → Prop)
    (R : β → α → β → Prop) : Prop where
  measures : Measures distance P
  self : ∀ a, P a → R a zero a
  grow : ∀ a r x b, R a r b → R a (greatest r x) b
  reach : ∀ a b r x, P a → P b → distance a b = .ok x → R a (greatest r x) b

theorem Measures.coverage [Scalar α] {distance : β → β → Except ε α} {P : β → Prop}
    (h : Measures distance P) : Coverage distance P fun _ _ _ => True :=
  ⟨h, fun _ _ => trivial, fun _ _ _ _ _ => trivial, fun _ _ _ _ _ _ _ => trivial⟩

namespace Ball

/-- All items satisfy `P`, and every ball covers the entries beneath it. -/
def Sound (P : β → Prop) (R : β → α → β → Prop) : Ball α β → Prop
  | leaf pivot radius entries => P pivot ∧ ∀ e ∈ entries, P e.item ∧ R pivot radius e.item
  | node pivot radius left right =>
    P pivot ∧ (∀ e ∈ left.entries ++ right.entries, P e.item ∧ R pivot radius e.item) ∧
      left.Sound P R ∧ right.Sound P R

variable {P : β → Prop} {R : β → α → β → Prop}

theorem Sound.pivot {b : Ball α β} (h : b.Sound P R) : P b.pivot := by
  cases b with
  | leaf => exact h.1
  | node => exact h.1

variable [Scalar α] {distance : β → β → Except ε α}

theorem farthest_ok (hd : Measures distance P) {origin : β} (ho : P origin) :
    ∀ (es : List (Entry β)) (item : β) (best : Option α), (∀ e ∈ es, P e.item) → P item →
      ∃ a, (farthest distance origin es item best).run.value = .ok a ∧ P a := by
  intro es
  induction es with
  | nil =>
    intro item best _ hi
    exact ⟨item, rfl, hi⟩
  | cons e rest ih =>
    intro item best hes hi
    obtain ⟨he, hrest⟩ := List.forall_mem_cons.mp hes
    obtain ⟨x, hx⟩ := hd origin e.item ho he
    rw [farthest, Tally.value_run_measure_bind hx]
    split
    · exact ih e.item (some x) hrest he
    · exact ih item best hrest hi

theorem nearer_ok (hd : Measures distance P) {a b item : β} (ha : P a) (hb : P b) (hi : P item) :
    ∃ toLeft x, (nearer distance a b item).run.value = .ok (toLeft, x) ∧
      distance (if toLeft then a else b) item = .ok x := by
  obtain ⟨x, hx⟩ := hd a item ha hi
  obtain ⟨y, hy⟩ := hd b item hb hi
  rw [nearer, Tally.value_run_measure_bind hx, Tally.value_run_measure_bind hy]
  by_cases h : x ≤ y
  · rw [if_pos h]
    exact ⟨true, x, rfl, hx⟩
  · rw [if_neg h]
    exact ⟨false, y, rfl, hy⟩

def Half.Sound (P : β → Prop) (R : β → α → β → Prop) (pivot : β) (h : Half α β) : Prop :=
  ∀ e ∈ h.entries, P e.item ∧ R pivot h.radius e.item

theorem Half.Sound.add (hc : Coverage distance P R) {pivot : β} {h : Half α β}
    (hs : h.Sound P R pivot) {e : Entry β} {x : α} (hp : P pivot) (he : P e.item)
    (hx : distance pivot e.item = .ok x) : (h.add e x).Sound P R pivot := by
  intro f hf
  rcases List.mem_append.mp hf with hf | hf
  · exact ⟨(hs f hf).1, hc.grow _ _ _ _ (hs f hf).2⟩
  · obtain rfl := List.mem_singleton.mp hf
    exact ⟨he, hc.reach _ _ _ _ hp he hx⟩

theorem divide_ok (hc : Coverage distance P R) {a b : β} (ha : P a) (hb : P b) :
    ∀ (es : List (Entry β)) (left right : Half α β), (∀ e ∈ es, P e.item) →
      left.Sound P R a → right.Sound P R b →
      ∃ l r, (divide distance a b es left right).run.value = .ok (l, r) ∧
        l.Sound P R a ∧ r.Sound P R b ∧
        (l.entries ++ r.entries).Perm (left.entries ++ right.entries ++ es) := by
  intro es
  induction es with
  | nil =>
    intro left right _ hl hr
    exact ⟨left, right, rfl, hl, hr, by simp⟩
  | cons e rest ih =>
    intro left right hes hl hr
    obtain ⟨he, hrest⟩ := List.forall_mem_cons.mp hes
    obtain ⟨toLeft, x, hn, hx⟩ := nearer_ok hc.measures ha hb he
    rw [divide, Tally.value_run_bind_ok hn]
    cases toLeft with
    | true =>
      obtain ⟨l, r, hv, hl, hr, hp⟩ := ih (left.add e x) right hrest (hl.add hc ha he hx) hr
      refine ⟨l, r, hv, hl, hr, hp.trans ?_⟩
      simp only [Half.add, List.append_assoc, List.singleton_append]
      exact List.perm_middle.symm.append_left _
    | false =>
      obtain ⟨l, r, hv, hl, hr, hp⟩ := ih left (right.add e x) hrest hl (hr.add hc hb he hx)
      refine ⟨l, r, hv, hl, hr, hp.trans ?_⟩
      simp [Half.add]

theorem split_ok (hc : Coverage distance P R) {es : List (Entry β)} (hes : ∀ e ∈ es, P e.item) :
    (split? distance es).run.value = .ok (none : Option (Ball α β × Ball α β)) ∨
      ∃ l r : Ball α β, (split? distance es).run.value = .ok (some (l, r)) ∧
        l.Sound P R ∧ r.Sound P R ∧ (l.entries ++ r.entries).Perm es := by
  cases es with
  | nil => exact Or.inl rfl
  | cons first rest =>
    have hf : P first.item := hes first List.mem_cons_self
    obtain ⟨a, hva, ha⟩ := farthest_ok hc.measures hf (first :: rest) first.item none hes hf
    obtain ⟨b, hvb, hb⟩ := farthest_ok hc.measures ha (first :: rest) first.item none hes hf
    obtain ⟨l, r, hv, hl, hr, hp⟩ := divide_ok hc ha hb (first :: rest) ⟨zero, []⟩ ⟨zero, []⟩ hes
      (by simp [Half.Sound]) (by simp [Half.Sound])
    rw [split?, Tally.value_run_bind_ok hva, Tally.value_run_bind_ok hvb,
      Tally.value_run_bind_ok hv]
    simp only [Tally.value_run_pure]
    by_cases he : r.entries.isEmpty
    · rw [if_pos he]
      exact Or.inl rfl
    · rw [if_neg he]
      exact Or.inr ⟨_, _, rfl, ⟨ha, hl⟩, ⟨hb, hr⟩, hp⟩

theorem insertLeaf_ok (hc : Coverage distance P R) {pivot : β} {radius : α}
    {es : List (Entry β)} (h : (leaf pivot radius es).Sound P R) :
    ∃ b, (insertLeaf distance pivot radius es).value = (b, .ok ()) ∧ b.Sound P R ∧
      b.entries.Perm es := by
  unfold insertLeaf
  split
  · exact ⟨leaf pivot radius es, rfl, h, .refl _⟩
  · rcases split_ok hc fun e he => (h.2 e he).1 with hs | ⟨l, r, hs, hl, hr, hp⟩
    · simp only [Tally.value_bind, hs]
      exact ⟨leaf pivot radius es, rfl, h, .refl _⟩
    · simp only [Tally.value_bind, hs]
      exact ⟨node pivot radius l r, rfl, ⟨h.1, fun e he => h.2 e (hp.subset he), hl, hr⟩, hp⟩

theorem insert_ok (hc : Coverage distance P R) {new : Entry β} (hn : P new.item) :
    ∀ b : Ball α β, b.Sound P R → ∃ b', (b.insert distance new).value = (b', .ok ()) ∧
      b'.Sound P R ∧ b'.entries.Perm (b.entries ++ [new]) := by
  intro b
  induction b with
  | leaf pivot radius entries =>
    intro h
    obtain ⟨x, hx⟩ := hc.measures pivot new.item h.1 hn
    have grown : (leaf pivot (greatest radius x) (entries ++ [new])).Sound P R :=
      ⟨h.1, Half.Sound.add hc (h := ⟨radius, entries⟩) h.2 h.1 hn hx⟩
    simp only [insert, Tally.value_bind, Tally.value_run_measure, hx]
    exact insertLeaf_ok hc grown
  | node pivot radius left right ihl ihr =>
    intro h
    obtain ⟨hp, hes, hl, hr⟩ := h
    obtain ⟨x, hx⟩ := hc.measures pivot new.item hp hn
    obtain ⟨toLeft, y, hv, -⟩ := nearer_ok hc.measures hl.pivot hr.pivot hn
    have grown : ∀ e ∈ left.entries ++ right.entries ++ [new],
        P e.item ∧ R pivot (greatest radius x) e.item :=
      Half.Sound.add hc (h := ⟨radius, left.entries ++ right.entries⟩) hes hp hn hx
    simp only [insert, Tally.value_bind, Tally.value_run_measure, hx, hv]
    cases toLeft with
    | true =>
      obtain ⟨left', hi, hs, hperm⟩ := ihl hl
      have all :
          (left'.entries ++ right.entries).Perm (left.entries ++ right.entries ++ [new]) := by
        refine (hperm.append_right _).trans ?_
        simp only [List.append_assoc]
        exact List.perm_append_comm.append_left _
      simp only [Tally.value_bind, hi]
      exact ⟨_, rfl, ⟨hp, fun e he => grown e (all.subset he), hs, hr⟩, all⟩
    | false =>
      obtain ⟨right', hi, hs, hperm⟩ := ihr hr
      have all :
          (left.entries ++ right'.entries).Perm (left.entries ++ right.entries ++ [new]) := by
        rw [List.append_assoc]
        exact hperm.append_left _
      simp only [Tally.value_bind, hi]
      exact ⟨_, rfl, ⟨hp, fun e he => grown e (all.subset he), hl, hs⟩, all⟩

theorem scan_ok (hd : Measures distance P) {query : β} (hq : P query) (range : α) :
    ∀ es : List (Entry β), (∀ e ∈ es, P e.item) →
      ∃ hits, (scan distance query range es).run.value = .ok hits := by
  intro es
  induction es with
  | nil => exact fun _ => ⟨[], rfl⟩
  | cons e rest ih =>
    intro hes
    obtain ⟨he, hrest⟩ := List.forall_mem_cons.mp hes
    obtain ⟨x, hx⟩ := hd query e.item hq he
    obtain ⟨hits, hh⟩ := ih hrest
    rw [scan, Tally.value_run_measure_bind hx, Tally.value_run_bind_ok hh]
    exact ⟨_, rfl⟩

theorem within_ok (hd : Measures distance P) {query : β} (hq : P query) (range : α)
    (keep : Nat → Bool) : ∀ b : Ball α β, b.Sound P R →
      ∃ hits, (b.within distance query range keep).run.value = .ok hits := by
  intro b
  induction b with
  | leaf pivot radius entries =>
    intro h
    obtain ⟨x, hx⟩ := hd query pivot hq h.1
    rw [within, Tally.value_run_measure_bind hx]
    split
    · exact ⟨[], rfl⟩
    · exact scan_ok hd hq range _ fun e he => (h.2 e (List.mem_of_mem_filter he)).1
  | node pivot radius left right ihl ihr =>
    intro h
    obtain ⟨hp, -, hl, hr⟩ := h
    obtain ⟨x, hx⟩ := hd query pivot hq hp
    obtain ⟨ls, hls⟩ := ihl hl
    obtain ⟨rs, hrs⟩ := ihr hr
    rw [within, Tally.value_run_measure_bind hx]
    split
    · exact ⟨[], rfl⟩
    · rw [Tally.value_run_bind_ok hls, Tally.value_run_bind_ok hrs]
      exact ⟨_, rfl⟩

end Ball

namespace BallTree

variable {P : β → Prop} {R : β → α → β → Prop}

/-- The tree is sound and holds these entries and no others. -/
structure Holds (P : β → Prop) (R : β → α → β → Prop) (t : BallTree α β) (es : List (Entry β)) :
    Prop where
  sound : ∀ b, t.root = some b → b.Sound P R
  entries : t.entries.Perm es
  size : t.size = es.length

theorem holds_empty : Holds P R (.empty : BallTree α β) [] :=
  ⟨fun _ h => (nomatch h), .nil, rfl⟩

variable [Scalar α] {distance : β → β → Except ε α}

/-- The tree after a list of insertions into an empty one. -/
def ofEntries (distance : β → β → Except ε α) (es : List (Entry β)) : BallTree α β :=
  es.foldl (fun t e => (t.insert distance e).value.1) .empty

theorem ofEntries_concat (es : List (Entry β)) (e : Entry β) :
    ofEntries distance (es ++ [e]) = ((ofEntries distance es).insert distance e).value.1 := by
  simp [ofEntries, List.foldl_append]

theorem Holds.insert (hc : Coverage distance P R) {t : BallTree α β} {es : List (Entry β)}
    (h : Holds P R t es) (new : Entry β) (hn : P new.item) :
    ∃ t', (t.insert distance new).value = (t', .ok ()) ∧ Holds P R t' (es ++ [new]) := by
  obtain ⟨x, hx⟩ := hc.measures new.item new.item hn hn
  have hsize : t.size + 1 = (es ++ [new]).length := by simp [h.size]
  have hes := h.entries
  unfold BallTree.insert
  unfold BallTree.entries at hes
  simp only [Tally.value_bind, Tally.value_run_measure, hx]
  cases hroot : t.root with
  | none =>
    rw [hroot] at hes
    obtain rfl := hes.nil_eq
    refine ⟨_, rfl, ?_, .refl _, hsize⟩
    intro b hb
    obtain rfl := Option.some.inj hb
    exact ⟨hn, List.forall_mem_singleton.mpr ⟨hn, hc.self _ hn⟩⟩
  | some ball =>
    rw [hroot] at hes
    obtain ⟨ball', hv, hs, hp⟩ := Ball.insert_ok hc hn ball (h.sound ball hroot)
    simp only [Tally.value_bind, hv]
    refine ⟨_, rfl, ?_, hp.trans (hes.append_right _), hsize⟩
    intro b hb
    obtain rfl := Option.some.inj hb
    exact hs

theorem holds_ofEntries (hc : Coverage distance P R) {es : List (Entry β)}
    (hes : ∀ e ∈ es, P e.item) : Holds P R (ofEntries distance es) es := by
  induction es using List.reverseRecOn with
  | nil => exact holds_empty
  | append_singleton es e ih =>
    have h := ih fun f hf => hes f (List.mem_append_left _ hf)
    obtain ⟨t', hv, ht⟩ := h.insert hc e (hes e (by simp))
    rw [ofEntries_concat, hv]
    exact ht

theorem Holds.within_ok (hd : Measures distance P) {t : BallTree α β} {es : List (Entry β)}
    (h : Holds P R t es) {query : β} (hq : P query) (range : α) (keep : Nat → Bool) :
    ∃ hits, (t.within distance query range keep).run.value = .ok hits := by
  unfold BallTree.within
  cases hroot : t.root with
  | none => exact ⟨[], rfl⟩
  | some ball => exact Ball.within_ok hd hq range keep ball (h.sound ball hroot)

end BallTree

/-- Where `P` holds the distance succeeds with `d`, and `d` is a pseudo-metric. -/
structure PseudoMetricOn [ExactScalar α] (distance : β → β → Except ε α) (d : β → β → α)
    (P : β → Prop) : Prop where
  measures : ∀ a b, P a → P b → distance a b = .ok (d a b)
  self : ∀ a, P a → d a a = 0
  symm : ∀ a b, P a → P b → d a b = d b a
  triangle : ∀ a b c, P a → P b → P c → d a c ≤ d a b + d b c

/-- What a linear scan finds: the entries asked for that are within the range, in order. -/
def linearScan [ExactScalar α] (d : β → β → α) (query : β) (range : α) (keep : Nat → Bool)
    (es : List (Entry β)) : List (Hit α β) :=
  (es.filter fun e => keep e.id && decide (d query e.item ≤ range)).map
    fun e => ⟨e, d query e.item⟩

section Exact

variable [ExactScalar α] {distance : β → β → Except ε α} {d : β → β → α} {P : β → Prop}

/-- The radius bounds the distance from the pivot. -/
def Reaches (d : β → β → α) (pivot : β) (radius : α) (item : β) : Prop := d pivot item ≤ radius

theorem PseudoMetricOn.mono {Q : β → Prop} (h : PseudoMetricOn distance d P)
    (hQ : ∀ a, Q a → P a) : PseudoMetricOn distance d Q where
  measures a b ha hb := h.measures a b (hQ a ha) (hQ b hb)
  self a ha := h.self a (hQ a ha)
  symm a b ha hb := h.symm a b (hQ a ha) (hQ b hb)
  triangle a b c ha hb hc := h.triangle a b c (hQ a ha) (hQ b hb) (hQ c hc)

theorem PseudoMetricOn.nonneg (h : PseudoMetricOn distance d P) {a b : β} (ha : P a) (hb : P b) :
    0 ≤ d a b := by
  have thereAndBack := h.triangle a b a ha hb ha
  rw [h.self a ha, h.symm b a hb ha] at thereAndBack
  linarith

theorem PseudoMetricOn.eq_of_eq_zero (h : PseudoMetricOn distance d P) {a b c : β} (ha : P a)
    (hb : P b) (hc : P c) (same : d b c = 0) : d a b = d a c := by
  have there := h.triangle a b c ha hb hc
  have back := h.triangle a c b ha hc hb
  rw [h.symm c b hc hb] at back
  linarith

theorem PseudoMetricOn.toMeasures (h : PseudoMetricOn distance d P) : Measures distance P :=
  fun a b ha hb => ⟨d a b, h.measures a b ha hb⟩

theorem PseudoMetricOn.coverage (h : PseudoMetricOn distance d P) :
    Coverage distance P (Reaches d) where
  measures := h.toMeasures
  self a ha := by simp [Reaches, h.self a ha]
  grow a r x b hr := by simpa [Reaches] using Or.inl hr
  reach a b r x ha hb hx := by
    have hd : d a b = x := Except.ok.inj ((h.measures a b ha hb).symm.trans hx)
    simp [Reaches, hd]

@[simp] theorem linearScan_append (query : β) (range : α) (keep : Nat → Bool)
    (es fs : List (Entry β)) : linearScan d query range keep (es ++ fs) =
      linearScan d query range keep es ++ linearScan d query range keep fs := by
  simp [linearScan]

theorem linearScan_perm {es fs : List (Entry β)} (h : es.Perm fs) (query : β) (range : α)
    (keep : Nat → Bool) :
    (linearScan d query range keep es).Perm (linearScan d query range keep fs) :=
  (h.filter _).map _

theorem linearScan_kept (query : β) (range : α) (keep : Nat → Bool) (es : List (Entry β)) :
    linearScan d query range keep es =
      linearScan d query range (fun _ => true) (es.filter fun e => keep e.id) := by
  simp only [linearScan, List.filter_filter, Bool.true_and, Bool.and_comm]

theorem linearScan_items (query : β) (range : α) (es : List (Entry β)) :
    (linearScan d query range (fun _ => true) es).map (fun h => (h.entry.item, h.distance)) =
      ((es.map (·.item)).filter fun b => decide (d query b ≤ range)).map
        fun b => (b, d query b) := by
  simp only [linearScan, Bool.true_and, List.filter_map, List.map_map]
  rfl

/-- The triangle inequality: beyond radius and range together there is no hit in a ball. -/
theorem linearScan_eq_nil_of_far (h : PseudoMetricOn distance d P) {query pivot : β}
    {radius range : α} (hq : P query) (hp : P pivot) {es : List (Entry β)}
    (hes : ∀ e ∈ es, P e.item ∧ Reaches d pivot radius e.item)
    (hfar : radius + range < d query pivot) (keep : Nat → Bool) :
    linearScan d query range keep es = [] := by
  rw [linearScan, List.map_eq_nil_iff, List.filter_eq_nil_iff]
  intro e he hk
  obtain ⟨hi, hr⟩ := hes e he
  have hnear : d query e.item ≤ range := by
    rw [Bool.and_eq_true, decide_eq_true_eq] at hk
    exact hk.2
  have htri := h.triangle query e.item pivot hq hi hp
  rw [h.symm e.item pivot hi hp] at htri
  unfold Reaches at hr
  linarith

theorem Ball.scan_eq (h : PseudoMetricOn distance d P) {query : β} (hq : P query) (range : α)
    (keep : Nat → Bool) : ∀ es : List (Entry β), (∀ e ∈ es, P e.item) →
      (scan distance query range (es.filter (keep ·.id))).run.value =
        .ok (linearScan d query range keep es) := by
  intro es
  induction es with
  | nil => exact fun _ => rfl
  | cons e rest ih =>
    intro hes
    obtain ⟨he, hrest⟩ := List.forall_mem_cons.mp hes
    by_cases hk : keep e.id
    · rw [List.filter_cons, if_pos hk, scan,
        Tally.value_run_measure_bind (h.measures _ _ hq he), Tally.value_run_bind_ok (ih hrest)]
      by_cases hx : d query e.item ≤ range <;> simp [linearScan, hk, hx]
    · rw [List.filter_cons, if_neg hk, ih hrest]
      simp [linearScan, hk]

/-- Passing over distant balls loses nothing. -/
theorem Ball.within_eq (h : PseudoMetricOn distance d P) {query : β} (hq : P query) (range : α)
    (keep : Nat → Bool) : ∀ b : Ball α β, b.Sound P (Reaches d) →
      (b.within distance query range keep).run.value =
        .ok (linearScan d query range keep b.entries) := by
  intro b
  induction b with
  | leaf pivot radius entries =>
    intro hs
    rw [within, Tally.value_run_measure_bind (h.measures _ _ hq hs.1)]
    by_cases hfar : radius + range < d query pivot
    · rw [if_pos hfar, Ball.entries, linearScan_eq_nil_of_far h hq hs.1 hs.2 hfar]
      rfl
    · rw [if_neg hfar]
      exact scan_eq h hq range keep entries fun e he => (hs.2 e he).1
  | node pivot radius left right ihl ihr =>
    intro hs
    obtain ⟨hp, hes, hl, hr⟩ := hs
    rw [within, Tally.value_run_measure_bind (h.measures _ _ hq hp)]
    by_cases hfar : radius + range < d query pivot
    · rw [if_pos hfar, Ball.entries, linearScan_eq_nil_of_far h hq hp hes hfar]
      rfl
    · rw [if_neg hfar, Tally.value_run_bind_ok (ihl hl), Tally.value_run_bind_ok (ihr hr),
        Ball.entries, linearScan_append]
      rfl

theorem BallTree.Holds.within_perm (h : PseudoMetricOn distance d P) {t : BallTree α β}
    {es : List (Entry β)} (ht : t.Holds P (Reaches d) es) {query : β} (hq : P query) (range : α)
    (keep : Nat → Bool) : ∃ hits, (t.within distance query range keep).run.value = .ok hits ∧
      hits.Perm (linearScan d query range keep es) := by
  have hes := ht.entries
  unfold BallTree.within
  unfold BallTree.entries at hes
  cases hroot : t.root with
  | none =>
    rw [hroot] at hes
    obtain rfl := hes.nil_eq
    exact ⟨[], rfl, .nil⟩
  | some ball =>
    rw [hroot] at hes
    exact ⟨_, Ball.within_eq h hq range keep ball (ht.sound ball hroot),
      linearScan_perm hes query range keep⟩

end Exact

inductive TreeOp (β : Type) where
  | insert (new : Entry β)
  | clear
  deriving Repr

namespace TreeOp

def apply [Scalar α] (distance : β → β → Except ε α) (t : BallTree α β) : TreeOp β → BallTree α β
  | insert new => (t.insert distance new).value.1
  | clear => .empty

def run [Scalar α] (distance : β → β → Except ε α) (ops : List (TreeOp β)) : BallTree α β :=
  ops.foldl (apply distance) .empty

/-- The entries inserted since the last clearing. -/
def inserted (ops : List (TreeOp β)) : List (Entry β) :=
  ops.foldl (fun es op => match op with | insert new => es ++ [new] | clear => []) []

theorem run_eq_ofEntries [Scalar α] (distance : β → β → Except ε α) (ops : List (TreeOp β)) :
    run distance ops = .ofEntries distance (inserted ops) := by
  induction ops using List.reverseRecOn with
  | nil => rfl
  | append_singleton ops op ih =>
    unfold run inserted at *
    rw [List.foldl_concat, List.foldl_concat, ih]
    cases op with
    | insert new => exact (BallTree.ofEntries_concat _ new).symm
    | clear => rfl

end TreeOp

/-- A range query finds what a linear scan of the entries would find, after any run. -/
theorem range_query_eq_linear_scan [ExactScalar α] {distance : β → β → Except ε α}
    {d : β → β → α} (h : PseudoMetricOn distance d fun _ => True) (ops : List (TreeOp β))
    (query : β) (range : α) (keep : Nat → Bool) :
    ∃ hits, ((TreeOp.run distance ops).within distance query range keep).run.value = .ok hits ∧
      hits.Perm (linearScan d query range keep (TreeOp.inserted ops)) ∧
      (TreeOp.run distance ops).size = (TreeOp.inserted ops).length := by
  rw [TreeOp.run_eq_ofEntries]
  have holds := BallTree.holds_ofEntries h.coverage fun e (_ : e ∈ TreeOp.inserted ops) => trivial
  obtain ⟨hits, hv, hp⟩ := holds.within_perm h trivial range keep
  exact ⟨hits, hv, hp, holds.size⟩

noncomputable def onLine (a b : ℝ) : Except Empty ℝ := .ok |a - b|

theorem onLine_pseudoMetric : PseudoMetricOn onLine (fun a b => |a - b|) fun _ => True where
  measures _ _ _ _ := rfl
  self a _ := by simp
  symm a b _ _ := abs_sub_comm a b
  triangle a b c _ _ _ := abs_sub_le a b c

/-- Two entries under one number are two hits, and what was cleared is gone. -/
theorem range_query_on_line :
    let ops : List (TreeOp ℝ) := [.insert ⟨1, 2⟩, .clear, .insert ⟨1, 2⟩, .insert ⟨1, 2⟩,
      .insert ⟨2, 0⟩, .insert ⟨0, 1⟩, .insert ⟨3, 9⟩]
    PseudoMetricOn onLine (fun a b => |a - b|) (fun _ => True) ∧
    ∃ hits, ((TreeOp.run onLine ops).within onLine 1 1 (0 < ·)).run.value = .ok hits ∧
      hits.Perm [⟨⟨1, 2⟩, 1⟩, ⟨⟨1, 2⟩, 1⟩, ⟨⟨2, 0⟩, 1⟩] ∧ (TreeOp.run onLine ops).size = 5 := by
  intro ops
  refine ⟨onLine_pseudoMetric, ?_⟩
  obtain ⟨hits, hv, hp, hs⟩ := range_query_eq_linear_scan onLine_pseudoMetric ops 1 1 (0 < ·)
  refine ⟨hits, hv, hp.trans ?_, hs⟩
  norm_num [ops, linearScan, TreeOp.inserted]

end AirTraffic
