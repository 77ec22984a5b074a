import AirTraffic.Proofs.Proximity.StreamRun

/-!
# Trees refuse without a trace

An item is measured against itself before a ball is opened. All that a tree holds has been measured
so, and reports that a metric measures against themselves it measures against each other: no
insertion stops half way, with a radius grown or an entry in a leaf that could not be split.
-/
namespace AirTraffic

open Scalar

/-- What is asked of a tree. -/
inductive TreeCall (α β : Type) where
  | insert (new : Entry β)
  | within (query : β) (range : α) (keep : Nat → Bool)
  | clear

inductive TreeAnswer (α β ε : Type) where
  | inserted (outcome : Except ε Unit)
  | found (outcome : Except ε (List (Hit α β)))
  | cleared

variable {α β ρ ε : Type}

namespace BallTree

theorem Holds.root_ne_none {P : β → Prop} {R : β → α → β → Prop} {t : BallTree α β}
    {es : List (Entry β)} (h : Holds P R t es) (occupied : es ≠ []) : t.root ≠ none := by
  intro bare
  have hes := h.entries
  unfold BallTree.entries at hes
  rw [bare] at hes
  exact occupied hes.nil_eq.symm

variable {metric : Metric α ρ} {t : BallTree α (Report α ρ)}

/-- The tree holds reports that the metric admits, and without any it has no ball. -/
structure Measured (metric : Metric α ρ) (t : BallTree α (Report α ρ)) : Prop where
  holds : ∃ es, t.Holds metric.Admits (fun _ _ _ => True) es
  bare : t.isEmpty = true → t.root = none

theorem measured_empty : Measured metric .empty := ⟨⟨[], holds_empty⟩, fun _ => rfl⟩

theorem Measured.root_eq_none_iff (h : t.Measured metric) : t.root = none ↔ t.isEmpty = true := by
  obtain ⟨es, hes⟩ := h.holds
  refine ⟨fun bare => ?_, h.bare⟩
  have nothing : es = [] := by
    by_contra occupied
    exact hes.root_ne_none occupied bare
  rw [isEmpty, decide_eq_true_eq, hes.size, nothing, List.length_nil]

variable [Scalar α]

section Calls

variable (distance : β → β → Except ε α)

def call (t : BallTree α β) : TreeCall α β → BallTree α β × TreeAnswer α β ε
  | .insert new => ((t.insert distance new).value.1, .inserted (t.insert distance new).value.2)
  | .within query range keep => (t, .found (t.within distance query range keep).run.value)
  | .clear => (.empty, .cleared)

/-- The tree after some calls, and what they answered. -/
def run (t : BallTree α β) : List (TreeCall α β) → BallTree α β × List (TreeAnswer α β ε)
  | [] => (t, [])
  | c :: later =>
    let rest := (t.call distance c).1.run later
    (rest.1, (t.call distance c).2 :: rest.2)

variable {distance}

theorem insert_of_unmeasurable {t : BallTree α β} {new : Entry β} {e : ε}
    (he : distance new.item new.item = .error e) :
    (t.insert distance new).value = (t, .error e) := by
  unfold BallTree.insert
  simp only [Tally.value_bind, Tally.value_run_measure, he]
  rfl

theorem within_of_unmeasurable {t : BallTree α β} {ball : Ball α β} (hroot : t.root = some ball)
    {query : β} {e : ε} (he : distance query ball.pivot = .error e) (range : α)
    (keep : Nat → Bool) : (t.within distance query range keep).run.value = .error e := by
  unfold BallTree.within
  rw [hroot]
  cases ball with
  | leaf pivot radius entries => exact Tally.value_run_measure_bind_error he _
  | node pivot radius left right => exact Tally.value_run_measure_bind_error he _

end Calls

section Step

variable (hm : Measures metric metric.Admits)

include hm

theorem Measured.insert_cases (h : t.Measured metric) (new : Entry (Report α ρ)) :
    (∃ e, metric new.item new.item = .error e ∧ (t.insert metric new).value = (t, .error e)) ∨
    (metric.Admits new.item ∧ ∃ t', (t.insert metric new).value = (t', .ok ()) ∧
      t'.Measured metric) := by
  cases measured : metric new.item new.item with
  | error e => exact Or.inl ⟨e, rfl, insert_of_unmeasurable measured⟩
  | ok x =>
    obtain ⟨es, hes⟩ := h.holds
    obtain ⟨t', ht', hes'⟩ := hes.insert hm.coverage new ⟨x, measured⟩
    refine Or.inr ⟨⟨x, measured⟩, t', ht', ⟨_, hes'⟩, fun bare => ?_⟩
    rw [isEmpty, decide_eq_true_eq, hes'.size] at bare
    simp at bare

theorem Measured.call (h : t.Measured metric) (c : TreeCall α (Report α ρ)) :
    (t.call metric c).1.Measured metric := by
  cases c with
  | insert new =>
    rw [BallTree.call]
    rcases h.insert_cases hm new with ⟨e, -, refused⟩ | ⟨-, t', taken, ht'⟩
    · rw [refused]
      exact h
    · rw [taken]
      exact ht'
  | within query range keep => exact h
  | clear => exact measured_empty

theorem Measured.run (h : t.Measured metric) (calls : List (TreeCall α (Report α ρ))) :
    (t.run metric calls).1.Measured metric := by
  induction calls generalizing t with
  | nil => exact h
  | cons c later ih => exact ih (h.call hm c)

end Step

section Standard

variable [Geodesy α] {w : MetricWeights α} (hm : metric = .flat w ∨ metric = .spatial w)

include hm

theorem Measured.insert_error_iff (h : t.Measured metric) (new : Entry (Report α ρ))
    (e : MetricError) : (t.insert metric new).value.2 = .error e ↔
      (metric = .spatial w ∧ new.item.altitude = none) ∧ e = .missingAltitude new.item.time := by
  have unknown := Metric.not_admits_iff hm new.item
  rcases h.insert_cases (Metric.measures_of_standard hm) new with
    ⟨f, hf, refused⟩ | ⟨hr, t', taken, -⟩
  · have missing := unknown.mp (by rintro ⟨x, hx⟩; cases hf.symm.trans hx)
    rw [missing.1, Metric.spatial_error w missing.2] at hf
    rw [refused, ← Except.error.inj hf, and_iff_right missing, Except.error.injEq, eq_comm]
  · rw [taken]
    exact iff_of_false (by simp) fun missing => unknown.mpr missing.1 hr

theorem Measured.within_error_iff (h : t.Measured metric) (query : Report α ρ) (range : α)
    (keep : Nat → Bool) (e : MetricError) :
    (t.within metric query range keep).run.value = .error e ↔
      (metric = .spatial w ∧ t.isEmpty = false ∧ query.altitude = none) ∧
        e = .missingAltitude query.time := by
  have unknown := Metric.not_admits_iff hm query
  obtain ⟨es, hes⟩ := h.holds
  by_cases hq : metric.Admits query
  · obtain ⟨hits, hv⟩ := hes.within_ok (Metric.measures_of_standard hm) hq range keep
    rw [hv]
    exact iff_of_false (by simp) fun missing => unknown.mpr ⟨missing.1.1, missing.1.2.2⟩ hq
  · have missing := unknown.mp hq
    cases hroot : t.root with
    | none =>
      have empty := h.root_eq_none_iff.mp hroot
      unfold BallTree.within
      rw [hroot]
      exact iff_of_false (by simp) fun full => by simp [empty] at full
    | some ball =>
      have full : t.isEmpty = false := by
        rw [← Bool.not_eq_true, ← h.root_eq_none_iff, hroot]
        exact Option.some_ne_none ball
      have unmeasurable : metric query ball.pivot = .error (.missingAltitude query.time) := by
        rw [missing.1]
        exact Metric.spatial_error w missing.2 ball.pivot
      rw [within_of_unmeasurable hroot unmeasurable, and_iff_right ⟨missing.1, full, missing.2⟩,
        Except.error.injEq, eq_comm]

end Standard

/-- In every state that calls lead to an insertion fails just when the metric needs an altitude that
the report lacks, and a search just when it does and there is something to search. A failed
insertion leaves the tree as it was, and every later call answers as if it had not been made. -/
theorem failed_insertion_changes_nothing [Geodesy α] {w : MetricWeights α}
    (hm : metric = .flat w ∨ metric = .spatial w) (calls : List (TreeCall α (Report α ρ))) :
    let t := (empty.run metric calls).1
    (∀ new e, (t.insert metric new).value.2 = .error e ↔
      (metric = .spatial w ∧ new.item.altitude = none) ∧ e = .missingAltitude new.item.time) ∧
    (∀ new e, (t.insert metric new).value.2 = .error e → (t.insert metric new).value.1 = t ∧
      ∀ later, t.run metric (.insert new :: later) =
        ((t.run metric later).1, .inserted (.error e) :: (t.run metric later).2)) ∧
    ∀ query range keep e, (t.within metric query range keep).run.value = .error e ↔
      (metric = .spatial w ∧ t.isEmpty = false ∧ query.altitude = none) ∧
        e = .missingAltitude query.time := by
  intro t
  have hmeasures := Metric.measures_of_standard hm
  have measured : t.Measured metric := measured_empty.run hmeasures calls
  refine ⟨measured.insert_error_iff hm, ?_, measured.within_error_iff hm⟩
  intro new e he
  have unchanged : (t.insert metric new).value = (t, .error e) := by
    rcases measured.insert_cases hmeasures new with ⟨f, -, refused⟩ | ⟨-, t', taken, -⟩
    · rw [refused] at he
      rw [refused, Except.error.inj he]
    · rw [taken] at he
      cases he
  refine ⟨congrArg Prod.fst unchanged, fun later => ?_⟩
  rw [BallTree.run, call, unchanged]

def northward (i : Nat) : Entry (Report ℚ Unit) :=
  ⟨i, PairStream.reportAt i i (if i = 18 then none else some 10)⟩

theorem northward_refused_without_trace :
    let metric : Metric ℚ Unit := .spatial ⟨0, 1⟩
    let t := (empty.run metric ((List.range 20).map (.insert <| northward ·))).1
    t.size = 19 ∧ (t.insert metric (northward 18)).value = (t, .error (.missingAltitude 18)) ∧
    (∀ later, t.run metric (.insert (northward 18) :: later) =
      ((t.run metric later).1,
        .inserted (.error (.missingAltitude 18)) :: (t.run metric later).2)) ∧
    (t.within metric (northward 18).item 0 fun _ => false).run.value =
      .error (.missingAltitude 18) := by
  intro metric t
  obtain ⟨refused, unchanged, unanswered⟩ :=
    failed_insertion_changes_nothing (Or.inr rfl : metric = .flat ⟨0, 1⟩ ∨ metric = .spatial ⟨0, 1⟩)
      ((List.range 20).map (.insert <| northward ·))
  have size : t.size = 19 := by decide +kernel
  have occupied : t.isEmpty = false := by
    rw [isEmpty, size]
    rfl
  have fails := (refused (northward 18) (.missingAltitude 18)).mpr ⟨⟨rfl, rfl⟩, rfl⟩
  obtain ⟨same, later⟩ := unchanged _ _ fails
  exact ⟨size, Prod.ext same fails, later,
    (unanswered _ _ _ _).mpr ⟨⟨rfl, occupied, rfl⟩, rfl⟩⟩

end BallTree

end AirTraffic
