import AirTraffic.Proofs.Basic
import AirTraffic.Proofs.Proximity.StreamRun

/-!
# A pairing stream answers like an exhaustive search

The reference keeps every report it has taken and measures the next one against each of them.
Where the metric is an exact pseudo-metric the stream gives the same answers, so neither the
index nor the orders of its rebuilds can be seen from outside.
-/
namespace AirTraffic

variable {α ρ : Type}

/-- The same refusal, or the same pairs in some order. -/
inductive SameAnswer : Answer α ρ → Answer α ρ → Prop where
  | refused (e : PairingError α) : SameAnswer (.error e) (.error e)
  | paired {xs ys : List (ReportPair α ρ)} (h : xs.Perm ys) : SameAnswer (.ok xs) (.ok ys)

namespace SameAnswer

variable {a b c : Answer α ρ}

theorem symm (h : SameAnswer a b) : SameAnswer b a := by
  cases h with
  | refused e => exact .refused e
  | paired h => exact .paired h.symm

theorem trans (h : SameAnswer a b) (k : SameAnswer b c) : SameAnswer a c := by
  cases h with
  | refused e => exact k
  | paired h =>
    cases k with
    | paired k => exact .paired (h.trans k)

end SameAnswer

variable [ExactScalar α]

/-- The pairs of a report with the earlier ones that are still live when it comes. -/
def livePairs (d : Report α ρ → Report α ρ → α) (windowMs : Int) (threshold : α)
    (taken : List (Report α ρ)) (r : Report α ρ) : List (ReportPair α ρ) :=
  ((PairStream.notStale windowMs r.time (PairStream.liveAfter windowMs taken)).filter
    fun q => decide (d r q ≤ threshold)).map fun q => ⟨r, q, d r q⟩

section Pairs

variable {d : Report α ρ → Report α ρ → α} {windowMs : Int} {threshold : α}
  {taken : List (Report α ρ)} {r : Report α ρ}

end Pairs

/-- The answer of an exhaustive search of the live reports. -/
def exhaustive (metric : Metric α ρ) (d : Report α ρ → Report α ρ → α) (windowMs : Int)
    (threshold : α) (taken : List (Report α ρ)) (r : Report α ρ) : Answer α ρ :=
  match metric r r, taken.getLast? with
  | .error e, _ => .error (.unmeasurable e)
  | .ok _, none => .ok (livePairs d windowMs threshold taken r)
  | .ok _, some newest =>
    if r.time < newest.time then .error (.outOfOrder newest.time r.time)
    else .ok (livePairs d windowMs threshold taken r)

namespace PairStream

variable {d : Report α ρ → Report α ρ → α} {windowMs : Int} {metric : Metric α ρ} {threshold : α}
  {s : PairStream α ρ} {log : StreamLog α ρ} {es : List (Entry (Report α ρ))}

theorem Indexed.scan_live (h : s.Indexed es) (query : Report α ρ) (range : α) :
    ((linearScan d query range (s.firstId ≤ ·) es).map fun h => (h.entry.item, h.distance)).Perm
      ((s.live.filter fun q => decide (d query q ≤ range)).map fun q => (q, d query q)) := by
  have live : ((es.filter fun e => decide (s.firstId ≤ e.id)).map (·.item)).Perm s.live := by
    have := h.live.map (·.item)
    rwa [entries_eq_numbered, numbered_map_item] at this
  rw [linearScan_kept, linearScan_items]
  exact (live.filter _).map _

variable {r : Report α ρ}

/-- A report that is taken pairs with just the live reports that an exhaustive search finds. -/
theorem Invariant.found_perm (hd : PseudoMetricOn metric d metric.Admits)
    (h : Invariant windowMs metric threshold s log) (hi : s.Indexed es)
    (hr : metric.Admits r) {s' : PairStream α ρ} {found : List (ReportPair α ρ)}
    (hs : Taken s es r s' found) :
    found.Perm (livePairs d windowMs threshold log.accepted r) := by
  obtain ⟨hits, hv, rfl⟩ := hs.found
  have holds : s.tree.Holds metric.Admits (Reaches d) es := by
    rw [hi.tree, h.metric_eq]
    exact BallTree.holds_ofEntries hd.coverage (h.metric_eq ▸ hi.admitted)
  obtain ⟨hits', hv', hp⟩ := holds.within_perm hd hr threshold ((s.evict r.time).firstId ≤ ·)
  rw [h.metric_eq, h.threshold_eq, hv', Except.ok.injEq] at hv
  subst hv
  have scan := (hp.map _).trans ((hi.evict r.time).scan_live r threshold)
  rw [evict_live, h.survivors] at scan
  have pairs := scan.map fun (q, x) => (⟨r, q, x⟩ : ReportPair α ρ)
  simpa only [List.map_map, Function.comp_def, livePairs] using pairs

theorem Invariant.accepts (hd : PseudoMetricOn metric d metric.Admits)
    (h : Invariant windowMs metric threshold s log) (order : RebuildOrder (Entry (Report α ρ)))
    (hr : metric.Admits r) (ht : ∀ q ∈ log.accepted, q.time ≤ r.time) :
    ∃ s' found, s.accept order r = (s', .ok found) ∧
      found.Perm (livePairs d windowMs threshold log.accepted r) ∧
      Invariant windowMs metric threshold s' (log.note r s s' (.ok found)) := by
  obtain ⟨es, hi, hrecent⟩ := h.index
  have hm := h.metric_eq ▸ hd.toMeasures
  obtain ⟨s', found, he, hs⟩ :=
    taken_of_admits hm hi (h.metric_eq ▸ hr) (h.inOrder ht) order
  exact ⟨s', found, he, h.found_perm hd hi hr hs, h.taken hrecent (h.inOrder ht) hs⟩

theorem Invariant.answer (hd : PseudoMetricOn metric d metric.Admits)
    (h : Invariant windowMs metric threshold s log) (order : RebuildOrder (Entry (Report α ρ)))
    (r : Report α ρ) :
    SameAnswer (s.accept order r).2 (exhaustive metric d windowMs threshold log.accepted r) := by
  obtain ⟨es, hi, -⟩ := h.index
  have hm := h.metric_eq ▸ hd.toMeasures
  have hcurrent := h.current
  unfold exhaustive
  rcases accept_cases hm hi order r with
    ⟨e, hx, he⟩ | ⟨c, ⟨x, hx⟩, hc, hlate, he⟩ | ⟨⟨x, hx⟩, ht, s', found, he, hs⟩
  · rw [h.metric_eq] at hx
    rw [he, hx]
    exact .refused _
  · rw [h.metric_eq] at hx
    rw [hc] at hcurrent
    obtain ⟨newest, hn, htime⟩ := Option.map_eq_some_iff.mp hcurrent.symm
    rw [he, hx, hn]
    simp only [htime, if_pos hlate]
    exact .refused _
  · rw [h.metric_eq] at hx
    have perm := h.found_perm hd hi ⟨x, hx⟩ hs
    rw [he, hx]
    cases hn : log.accepted.getLast? with
    | none => exact .paired perm
    | some newest =>
      have := h.accepted_le ht newest (List.mem_of_getLast? hn)
      simp only [if_neg (not_lt.mpr this)]
      exact .paired perm

end PairStream
end AirTraffic
