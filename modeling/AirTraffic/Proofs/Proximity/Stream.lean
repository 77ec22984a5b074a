import AirTraffic.Proofs.Proximity.Metric
import AirTraffic.Proximity.Stream

/-!
# The state of a pairing stream

A step either refuses a report and leaves all but the call counter alone, or takes it. The index
is described by the entries that built its tree, so no proof here opens a tree. Nothing is asked
of the scalars but that the metric measures what it can measure against itself.
-/
namespace AirTraffic

variable {α ρ : Type}

/-- Reports under consecutive numbers. -/
def numbered {β : Type} (n : Nat) (items : List β) : List (Entry β) :=
  (items.zipIdx n).map fun p => ⟨p.2, p.1⟩

section Numbered

variable {β : Type}

theorem numbered_append (n : Nat) (xs ys : List β) :
    numbered n (xs ++ ys) = numbered n xs ++ numbered (n + xs.length) ys := by
  simp [numbered, List.zipIdx_append]

theorem numbered_bounds {n : Nat} {xs : List β} {e : Entry β} (h : e ∈ numbered n xs) :
    n ≤ e.id ∧ e.id < n + xs.length ∧ e.item ∈ xs := by
  obtain ⟨p, hp, rfl⟩ := List.mem_map.mp h
  exact ⟨List.le_snd_of_mem_zipIdx hp, List.snd_lt_add_of_mem_zipIdx hp,
    List.fst_mem_of_mem_zipIdx hp⟩

theorem numbered_map_item (n : Nat) (xs : List β) : (numbered n xs).map (·.item) = xs := by
  simp [numbered, Function.comp_def]

theorem numbered_drop_prefix (n : Nat) (gone kept : List β) :
    (numbered n (gone ++ kept)).filter (fun e => decide (n + gone.length ≤ e.id)) =
      numbered (n + gone.length) kept := by
  rw [numbered_append, List.filter_append, List.filter_eq_nil_iff.mpr, List.nil_append,
    List.filter_eq_self.mpr]
  · intro e he
    simpa using (numbered_bounds he).1
  · intro e he
    have := (numbered_bounds he).2.1
    simp only [decide_eq_true_eq]
    omega

end Numbered

namespace PairStream

theorem entries_eq_numbered (s : PairStream α ρ) : s.entries = numbered s.firstId s.live := by
  rw [entries, numbered, List.zipIdx_eq_map_add (i := s.firstId), List.map_map]
  exact List.map_congr_left fun p _ => by simp [Nat.add_comm]

theorem evict_live (s : PairStream α ρ) (now : Int) :
    (s.evict now).live = s.live.dropWhile (s.stale now) := by
  have split := List.takeWhile_append_dropWhile (p := s.stale now) (l := s.live)
  calc (s.evict now).live = s.live.drop (s.live.takeWhile (s.stale now)).length := rfl
    _ = (s.live.takeWhile (s.stale now) ++ s.live.dropWhile (s.stale now)).drop
          (s.live.takeWhile (s.stale now)).length := by rw [split]
    _ = s.live.dropWhile (s.stale now) := List.drop_left

/-- When the next rebuild falls due, once a report of this time has come in. -/
def deadline (s : PairStream α ρ) (now : Int) : Int :=
  s.clock.elim (Word.sum now s.windowMs) (·.nextRebuild)

def InOrder (s : PairStream α ρ) (time : Int) : Prop := ∀ c, s.clock = some c → c.current ≤ time

theorem advance_of_inOrder {s : PairStream α ρ} {time : Int} (h : s.InOrder time) :
    s.advance time = .ok { s with clock := some ⟨time, s.deadline time⟩ } := by
  unfold advance deadline
  cases hc : s.clock with
  | none => rfl
  | some c => exact if_neg (by have := h c hc; omega)

theorem advance_of_late {s : PairStream α ρ} {time : Int} {c : StreamClock} (hc : s.clock = some c)
    (h : time < c.current) : s.advance time = .error (.outOfOrder c.current time) := by
  unfold advance
  rw [hc]
  exact if_pos h

variable [Scalar α] {s : PairStream α ρ} {es : List (Entry (Report α ρ))}

/-- The tree grew from entries that the metric admits; those under live numbers are the live
reports, and the others are stale. -/
structure Indexed (s : PairStream α ρ) (es : List (Entry (Report α ρ))) : Prop where
  tree : s.tree = .ofEntries s.metric es
  admitted : ∀ e ∈ es, s.metric.Admits e.item
  live : (es.filter fun e => decide (s.firstId ≤ e.id)).Perm s.entries

theorem Indexed.holds (hm : Measures s.metric s.metric.Admits) (h : s.Indexed es) :
    s.tree.Holds s.metric.Admits (fun _ _ _ => True) es := by
  rw [h.tree]
  exact BallTree.holds_ofEntries hm.coverage h.admitted

theorem Indexed.evict (h : s.Indexed es) (now : Int) : (s.evict now).Indexed es := by
  refine ⟨h.tree, h.admitted, ?_⟩
  have later : es.filter (fun e => decide ((s.evict now).firstId ≤ e.id)) =
      (es.filter fun e => decide (s.firstId ≤ e.id)).filter
        fun e => decide ((s.evict now).firstId ≤ e.id) := by
    rw [List.filter_filter]
    refine List.filter_congr fun e _ => ?_
    have : s.firstId ≤ (s.evict now).firstId := Nat.le_add_right ..
    simp only [Bool.eq_self_and, decide_eq_true_eq]
    omega
  have dropped := numbered_drop_prefix s.firstId (s.live.takeWhile (s.stale now))
    (s.live.dropWhile (s.stale now))
  rw [List.takeWhile_append_dropWhile, ← entries_eq_numbered] at dropped
  rw [later, entries_eq_numbered (s.evict now), evict_live]
  exact (h.live.filter _).trans (.of_eq dropped)

theorem Indexed.pairAndInsert (hm : Measures s.metric s.metric.Admits) (h : s.Indexed es)
    {r : Report α ρ} (hr : s.metric.Admits r) :
    ∃ hits tree calls,
      (s.tree.within s.metric r s.threshold (s.firstId ≤ ·)).run.value = .ok hits ∧
      s.pairAndInsert r = ({ s with tree, live := s.live ++ [r], calls }, .ok hits) ∧
      { s with tree, live := s.live ++ [r], calls }.Indexed
        (es ++ [(⟨s.firstId + s.live.length, r⟩ : Entry _)]) := by
  have holds := h.holds hm
  obtain ⟨hits, hv⟩ := holds.within_ok hm hr s.threshold (s.firstId ≤ ·)
  obtain ⟨tree, hi, -⟩ := holds.insert hm.coverage ⟨s.firstId + s.live.length, r⟩ hr
  have result : s.pairAndInsert r = ({ s with
      tree, live := s.live ++ [r], calls := (s.pairAndInsert r).1.calls }, .ok hits) := by
    simp only [PairStream.pairAndInsert, hv, counting, hi]
  refine ⟨hits, tree, _, hv, result, ?_, ?_, ?_⟩
  · rw [BallTree.ofEntries_concat, ← h.tree, hi]
  · intro e he
    rcases List.mem_append.mp he with he | he
    · exact h.admitted e he
    · obtain rfl := List.mem_singleton.mp he
      exact hr
  · have live := h.live
    rw [entries_eq_numbered] at live ⊢
    rw [numbered_append, List.filter_append]
    simpa [numbered] using live.append_right _

theorem value_treeOf (metric : Metric α ρ) (es : List (Entry (Report α ρ))) :
    (treeOf metric es).value = .ofEntries metric es := by
  unfold treeOf BallTree.ofEntries
  generalize (BallTree.empty : BallTree α (Report α ρ)) = t
  induction es generalizing t with
  | nil => rfl
  | cons e rest ih => exact ih _

theorem Indexed.rebuild (h : s.Indexed es) (order : RebuildOrder (Entry (Report α ρ))) :
    ∃ tree calls, s.rebuild order = { s with tree, calls, rebuilds := s.rebuilds + 1 } ∧
      { s with tree, calls, rebuilds := s.rebuilds + 1 }.Indexed
        (order.order s.rebuilds s.entries) := by
  have perm := order.perm s.rebuilds s.entries
  refine ⟨_, _, rfl, value_treeOf .., ?_, ?_⟩
  · intro e he
    exact h.admitted e (List.mem_of_mem_filter (h.live.mem_iff.mpr (perm.mem_iff.mp he)))
  · have all : (order.order s.rebuilds s.entries).filter (fun e => decide (s.firstId ≤ e.id)) =
        order.order s.rebuilds s.entries := by
      refine List.filter_eq_self.mpr fun e he => ?_
      have he := perm.mem_iff.mp he
      rw [entries_eq_numbered] at he
      simpa using (numbered_bounds he).1
    rw [all]
    exact perm

/-- The index next to its tree: a report under the next number, or the live reports afresh. -/
inductive Reindexed (s : PairStream α ρ) (r : Report α ρ) (s' : PairStream α ρ)
    (es : List (Entry (Report α ρ))) : List (Entry (Report α ρ)) → Prop where
  | grown (id) (hdue : r.time ≤ s.deadline r.time)
      (hclock : s'.clock = some ⟨r.time, s.deadline r.time⟩)
      (hrebuilds : s'.rebuilds = s.rebuilds) :
      Reindexed s r s' es (es ++ [⟨id, r⟩])
  | rebuilt (es') (hdue : s.deadline r.time < r.time)
      (hclock : s'.clock = some ⟨r.time, Word.sum r.time s.windowMs⟩)
      (hrebuilds : s'.rebuilds = s.rebuilds + 1) (hes : es'.Perm s'.entries) :
      Reindexed s r s' es es'

/-- All that taking a report changes. -/
structure Taken (s : PairStream α ρ) (es : List (Entry (Report α ρ))) (r : Report α ρ)
    (s' : PairStream α ρ) (found : List (ReportPair α ρ)) : Prop where
  windowMs : s'.windowMs = s.windowMs
  metric : s'.metric = s.metric
  threshold : s'.threshold = s.threshold
  live : s'.live = s.live.dropWhile (s.stale r.time) ++ [r]
  peak : s'.peak = max s.peak s'.size
  index : ∃ es', s'.Indexed es' ∧ Reindexed s r s' es es'
  found : ∃ hits, (s.tree.within s.metric r s.threshold
      ((s.evict r.time).firstId ≤ ·)).run.value = .ok hits ∧
    found = hits.map fun h => ⟨r, h.entry.item, h.distance⟩

theorem Indexed.rebuildIfDue (h : s.Indexed es) (now due : Int) (hc : s.clock = some ⟨now, due⟩)
    (order : RebuildOrder (Entry (Report α ρ))) :
    (now ≤ due ∧ s.rebuildIfDue order now = s) ∨
    (due < now ∧ ∃ tree calls es', es'.Perm s.entries ∧
      s.rebuildIfDue order now = { s with
        tree, calls, clock := some ⟨now, Word.sum now s.windowMs⟩, rebuilds := s.rebuilds + 1 } ∧
      { s with
        tree, calls, clock := some ⟨now, Word.sum now s.windowMs⟩, rebuilds := s.rebuilds + 1
      }.Indexed es') := by
  unfold PairStream.rebuildIfDue
  rw [hc]
  by_cases hdue : now ≤ due
  · exact Or.inl ⟨hdue, if_pos hdue⟩
  · let s₁ := { s with clock := some ⟨now, Word.sum now s.windowMs⟩ }
    have h₁ : s₁.Indexed es := ⟨h.tree, h.admitted, h.live⟩
    obtain ⟨tree, calls, hv, hi⟩ := h₁.rebuild order
    refine Or.inr ⟨lt_of_not_ge hdue, tree, calls, _, order.perm _ _, ?_, hi⟩
    exact (if_neg hdue).trans hv

theorem taken_of_admits (hm : Measures s.metric s.metric.Admits) (h : s.Indexed es)
    {r : Report α ρ} (hr : s.metric.Admits r) (ht : s.InOrder r.time)
    (order : RebuildOrder (Entry (Report α ρ))) :
    ∃ s' found, s.accept order r = (s', .ok found) ∧ Taken s es r s' found := by
  have ⟨x, hx⟩ := hr
  let s₁ := { s with calls := s.calls + 1, clock := some ⟨r.time, s.deadline r.time⟩ }
  have h₁ : s₁.Indexed es := ⟨h.tree, h.admitted, h.live⟩
  obtain ⟨hits, tree, calls, hv, hi, h₂⟩ :=
    Indexed.pairAndInsert (s := s₁.evict r.time) hm (h₁.evict r.time) hr
  have result : s.accept order r =
      let s₂ := { s₁.evict r.time with tree, live := (s₁.evict r.time).live ++ [r], calls }
      ((s₂.rebuildIfDue order r.time).notePeak,
        .ok (hits.map fun h => ⟨r, h.entry.item, h.distance⟩)) := by
    have hadv : (s.counting (Tally.measure s.metric r r).run).advance r.time = .ok s₁ :=
      advance_of_inOrder (s := s.counting _) ht
    unfold accept
    simp only [Tally.value_run_measure, hx, hadv, hi]
  have live : (s₁.evict r.time).live ++ [r] = s.live.dropWhile (s.stale r.time) ++ [r] :=
    congrArg (· ++ [r]) (evict_live s₁ r.time)
  refine ⟨_, _, result, ?_⟩
  rcases h₂.rebuildIfDue r.time _ rfl order with
    ⟨hdue, he⟩ | ⟨hdue, tree', calls', es', hp, he, h₃⟩
  · rw [he]
    exact ⟨rfl, rfl, rfl, live, rfl,
      ⟨_, ⟨h₂.tree, h₂.admitted, h₂.live⟩, .grown _ hdue rfl rfl⟩, hits, hv, rfl⟩
  · rw [he]
    exact ⟨rfl, rfl, rfl, live, rfl,
      ⟨_, ⟨h₃.tree, h₃.admitted, h₃.live⟩, .rebuilt _ hdue rfl rfl hp⟩, hits, hv, rfl⟩

/-- The three ways to answer a report. A refusal leaves all but the call counter alone. -/
theorem accept_cases (hm : Measures s.metric s.metric.Admits) (h : s.Indexed es)
    (order : RebuildOrder (Entry (Report α ρ))) (r : Report α ρ) :
    (∃ e, s.metric r r = .error e ∧
      s.accept order r = ({ s with calls := s.calls + 1 }, .error (.unmeasurable e))) ∨
    (∃ c, s.metric.Admits r ∧ s.clock = some c ∧ r.time < c.current ∧
      s.accept order r =
        ({ s with calls := s.calls + 1 }, .error (.outOfOrder c.current r.time))) ∨
    (s.metric.Admits r ∧ s.InOrder r.time ∧
      ∃ s' found, s.accept order r = (s', .ok found) ∧ Taken s es r s' found) := by
  cases hx : s.metric r r with
  | error e =>
    refine Or.inl ⟨e, rfl, ?_⟩
    simp only [accept, Tally.value_run_measure, hx, counting]
    rfl
  | ok x =>
    by_cases ht : s.InOrder r.time
    · exact Or.inr (Or.inr ⟨⟨x, hx⟩, ht, taken_of_admits hm h ⟨x, hx⟩ ht order⟩)
    · simp only [InOrder, not_forall, not_le] at ht
      obtain ⟨c, hc, hlate⟩ := ht
      refine Or.inr (Or.inl ⟨c, ⟨x, hx⟩, hc, hlate, ?_⟩)
      have hadv : (s.counting (Tally.measure s.metric r r).run).advance r.time =
          .error (.outOfOrder c.current r.time) := advance_of_late hc hlate
      simp only [accept, Tally.value_run_measure, hx, hadv]
      rfl

end PairStream
end AirTraffic
