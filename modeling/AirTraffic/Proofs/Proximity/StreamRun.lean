import AirTraffic.Proofs.Basic
import AirTraffic.Proofs.Proximity.Stream

/-!
# Runs of a pairing stream

A run is any list of reports, each offered with the order that a rebuild would use just then. A log
notes what can be seen from outside, and the invariant ties the state to the log. The live reports
depend on the reports taken alone, so the orders of the rebuilds do not matter to them.
-/
namespace AirTraffic

variable {α ρ : Type}

structure Offer (α ρ : Type) where
  order : RebuildOrder (Entry (Report α ρ))
  report : Report α ρ

abbrev Answer (α ρ : Type) := Except (PairingError α) (List (ReportPair α ρ))

structure StreamLog (α ρ : Type) where
  /-- The reports taken, in order. -/
  accepted : List (Report α ρ)
  answers : List (Answer α ρ)
  /-- The size after each report taken. -/
  sizes : List Nat
  rebuildTimes : List Int

namespace StreamLog

def empty : StreamLog α ρ := ⟨[], [], [], []⟩

def note (log : StreamLog α ρ) (r : Report α ρ) (before after : PairStream α ρ)
    (answer : Answer α ρ) : StreamLog α ρ where
  accepted := if answer.isOk then log.accepted ++ [r] else log.accepted
  answers := log.answers ++ [answer]
  sizes := if answer.isOk then log.sizes ++ [after.size] else log.sizes
  rebuildTimes :=
    if before.rebuilds < after.rebuilds then log.rebuildTimes ++ [r.time] else log.rebuildTimes

theorem note_error (log : StreamLog α ρ) (r : Report α ρ) (s : PairStream α ρ) (calls : Nat)
    (e : PairingError α) : log.note r s { s with calls } (.error e) =
      { log with answers := log.answers ++ [.error e] } := by
  simp [note, Except.isOk, Except.toBool]

end StreamLog

/-- A window before each of the reports is a time that words can tell. -/
def WindowBefore (windowMs : Int) (reports : List (Report α ρ)) : Prop :=
  ∀ r ∈ reports, Word.Fits (r.time - windowMs)

/-- A window after each of the reports is a time that words can tell. -/
def WindowAfter (windowMs : Int) (reports : List (Report α ρ)) : Prop :=
  ∀ r ∈ reports, Word.Fits (r.time + windowMs)

theorem windowBefore_concat {windowMs : Int} {reports : List (Report α ρ)} {r : Report α ρ} :
    WindowBefore windowMs (reports ++ [r]) ↔
      WindowBefore windowMs reports ∧ Word.Fits (r.time - windowMs) := by
  rw [WindowBefore, List.forall_mem_append, List.forall_mem_singleton, WindowBefore]

theorem windowAfter_concat {windowMs : Int} {reports : List (Report α ρ)} {r : Report α ρ} :
    WindowAfter windowMs (reports ++ [r]) ↔
      WindowAfter windowMs reports ∧ Word.Fits (r.time + windowMs) := by
  rw [WindowAfter, List.forall_mem_append, List.forall_mem_singleton, WindowAfter]

namespace PairStream

def notStale (windowMs now : Int) (live : List (Report α ρ)) : List (Report α ρ) :=
  live.dropWhile fun r => decide (r.time ≤ Word.difference now windowMs)

/-- The reports that are live once those given have come. -/
def liveAfter (windowMs : Int) (taken : List (Report α ρ)) : List (Report α ρ) :=
  taken.foldl (fun live r => notStale windowMs r.time live ++ [r]) []

theorem liveAfter_concat (windowMs : Int) (taken : List (Report α ρ)) (r : Report α ρ) :
    liveAfter windowMs (taken ++ [r]) =
      notStale windowMs r.time (liveAfter windowMs taken) ++ [r] :=
  List.foldl_concat ..

theorem liveAfter_sublist (windowMs : Int) (taken : List (Report α ρ)) :
    (liveAfter windowMs taken).Sublist taken := by
  induction taken using List.reverseRecOn with
  | nil => exact List.Sublist.refl _
  | append_singleton taken r ih =>
    rw [liveAfter_concat]
    exact ((List.dropWhile_sublist _).trans ih).append (List.Sublist.refl _)

theorem notStale_eq_filter (windowMs now : Int) {reports : List (Report α ρ)}
    (h : reports.Pairwise fun r q => r.time ≤ q.time) : notStale windowMs now reports =
      reports.filter fun r => decide (Word.difference now windowMs < r.time) := by
  have once : reports.Pairwise fun r q => decide (q.time ≤ Word.difference now windowMs) →
      decide (r.time ≤ Word.difference now windowMs) := by
    refine h.imp fun {r q} hrq hq => ?_
    have := of_decide_eq_true hq
    exact decide_eq_true (by omega)
  rw [notStale, dropWhile_eq_filter once]
  simp only [← decide_not, Int.not_le]

/-- What is left of the live reports are the reports taken that are inside the window. -/
theorem notStale_liveAfter {windowMs now : Int} {taken : List (Report α ρ)}
    (ordered : taken.Pairwise fun r q => r.time ≤ q.time) (before : WindowBefore windowMs taken)
    (late : ∀ r ∈ taken, r.time ≤ now) (fits : Word.Fits (now - windowMs)) :
    notStale windowMs now (liveAfter windowMs taken) =
      taken.filter fun r => decide (now - windowMs < r.time) := by
  rw [notStale_eq_filter _ _ (ordered.sublist (liveAfter_sublist windowMs taken)),
    Word.difference_of_fits fits]
  induction taken using List.reverseRecOn generalizing now with
  | nil => rfl
  | append_singleton taken r ih =>
    obtain ⟨hordered, -, hlate⟩ := List.pairwise_append.mp ordered
    obtain ⟨hbefore, hr⟩ := windowBefore_concat.mp before
    have hnow := late r (by simp)
    have older := ih hordered hbefore (fun q hq => hlate q hq r List.mem_cons_self) hr
    rw [liveAfter_concat,
      notStale_eq_filter _ _ (hordered.sublist (liveAfter_sublist windowMs taken)),
      Word.difference_of_fits hr, older, List.filter_append, List.filter_append, List.filter_filter]
    refine congrArg (· ++ _) (List.filter_congr fun q _ => ?_)
    simp only [Bool.and_eq_left_iff_imp, decide_eq_true_eq]
    omega

variable [Scalar α]

def offer (state : PairStream α ρ × StreamLog α ρ) (o : Offer α ρ) :
    PairStream α ρ × StreamLog α ρ :=
  let result := state.1.accept o.order o.report
  (result.1, state.2.note o.report state.1 result.1 result.2)

def run (s : PairStream α ρ) (offers : List (Offer α ρ)) : PairStream α ρ × StreamLog α ρ :=
  offers.foldl offer (s, .empty)

structure Invariant (windowMs : Int) (metric : Metric α ρ) (threshold : α)
    (s : PairStream α ρ) (log : StreamLog α ρ) : Prop where
  windowMs_eq : s.windowMs = windowMs
  metric_eq : s.metric = metric
  threshold_eq : s.threshold = threshold
  window_pos : 0 < windowMs
  ordered : log.accepted.Pairwise fun r q => r.time ≤ q.time
  live : s.live = liveAfter windowMs log.accepted
  current : s.clock.map (·.current) = log.accepted.getLast?.map (·.time)
  peak : s.peak = log.sizes.foldl max 0
  due : WindowBefore windowMs log.accepted →
    ∀ c, s.clock = some c → c.nextRebuild ≤ c.current + windowMs
  index : ∃ es, s.Indexed es ∧ (WindowBefore windowMs log.accepted → ∀ e ∈ es,
    ∃ c, s.clock = some c ∧ max c.current c.nextRebuild - 2 * windowMs < e.item.time)
  spaced : WindowAfter windowMs log.accepted → log.rebuildTimes.IsChain fun t u => t + windowMs < u
  lastRebuild : WindowAfter windowMs log.accepted → ∀ t ∈ log.rebuildTimes.getLast?,
    ∃ c, s.clock = some c ∧ c.nextRebuild = t + windowMs

variable {windowMs : Int} {metric : Metric α ρ} {threshold : α} {s : PairStream α ρ}
  {log : StreamLog α ρ}

theorem start_ok {s₀ : PairStream α ρ} (h : start windowMs metric threshold = .ok s₀) :
    PairingCriteria.windowLimitMs < windowMs ∧ Scalar.zero ≤ threshold ∧ s₀ =
      { windowMs, metric, threshold, tree := .empty, live := [], firstId := 0, clock := none,
        peak := 0, rebuilds := 0, calls := 0 } := by
  unfold start at h
  split at h
  · cases h
  · split at h
    · exact ⟨by omega, ‹_›, (Except.ok.inj h).symm⟩
    · cases h

theorem start_invariant {s₀ : PairStream α ρ} (h : start windowMs metric threshold = .ok s₀) :
    Invariant windowMs metric threshold s₀ .empty := by
  obtain ⟨hw, -, rfl⟩ := start_ok h
  have hw : 100 < windowMs := hw
  refine ⟨rfl, rfl, rfl, by omega, .nil, rfl, rfl, rfl, ?due, ⟨[], ⟨rfl, ?_, .nil⟩, ?_⟩,
    fun _ => .nil, ?last⟩
  case due => intro _ c hc; cases hc
  case last => intro _ t ht; cases ht
  · intro e he; cases he
  · intro _ e he; cases he

namespace Invariant

theorem accepted_le (h : Invariant windowMs metric threshold s log) {now : Int}
    (ht : s.InOrder now) : ∀ r ∈ log.accepted, r.time ≤ now := by
  intro r hr
  obtain ⟨older, newest, hsplit⟩ :=
    (List.eq_nil_or_concat log.accepted).resolve_left (List.ne_nil_of_mem hr)
  rw [List.concat_eq_append] at hsplit
  have hcurrent := h.current
  have hordered := h.ordered
  rw [hsplit] at hr hcurrent hordered
  simp only [List.getLast?_concat, Option.map_some, Option.map_eq_some_iff] at hcurrent
  obtain ⟨c, hc, hnewest⟩ := hcurrent
  have hnow := ht c hc
  rcases List.mem_append.mp hr with hr | hr
  · have := (List.pairwise_append.mp hordered).2.2 r hr newest (by simp)
    omega
  · obtain rfl := List.mem_singleton.mp hr
    omega

theorem newest_of_clock (h : Invariant windowMs metric threshold s log) {c : StreamClock}
    (hc : s.clock = some c) : ∃ older newest, log.accepted = older ++ [newest] ∧
      newest.time = c.current := by
  have hcurrent := h.current
  rw [hc] at hcurrent
  obtain ⟨newest, hn, htime⟩ := Option.map_eq_some_iff.mp hcurrent.symm
  obtain ⟨older, hsplit⟩ := List.getLast?_eq_some_iff.mp hn
  exact ⟨older, newest, hsplit, htime⟩

theorem inOrder (h : Invariant windowMs metric threshold s log) {now : Int}
    (ht : ∀ r ∈ log.accepted, r.time ≤ now) : s.InOrder now := by
  intro c hc
  obtain ⟨older, newest, hsplit, htime⟩ := h.newest_of_clock hc
  calc c.current = newest.time := htime.symm
    _ ≤ now := ht newest (by simp [hsplit])

theorem survivors (h : Invariant windowMs metric threshold s log) (now : Int) :
    s.live.dropWhile (s.stale now) = notStale windowMs now (liveAfter windowMs log.accepted) := by
  rw [← h.live, ← h.windowMs_eq]
  rfl

theorem deadline_le (h : Invariant windowMs metric threshold s log) {now : Int}
    (before : WindowBefore windowMs log.accepted) (fits : Word.Fits (now - windowMs))
    (ht : s.InOrder now) : s.deadline now ≤ now + windowMs := by
  have hw := h.window_pos
  unfold deadline
  cases hc : s.clock with
  | none =>
    rw [Option.elim_none, h.windowMs_eq]
    exact Word.sum_le (by have := fits.1; omega)
  | some c =>
    have := ht c hc
    have := h.due before c hc
    simp only [Option.elim_some]
    omega

theorem refused (h : Invariant windowMs metric threshold s log) (r : Report α ρ) (calls : Nat)
    (e : PairingError α) : Invariant windowMs metric threshold { s with calls }
      (log.note r s { s with calls } (.error e)) := by
  obtain ⟨es, hi, hrecent⟩ := h.index
  rw [StreamLog.note_error]
  exact ⟨h.windowMs_eq, h.metric_eq, h.threshold_eq, h.window_pos, h.ordered, h.live, h.current,
    h.peak, h.due, ⟨es, ⟨hi.tree, hi.admitted, hi.live⟩, hrecent⟩, h.spaced, h.lastRebuild⟩

theorem live_taken (h : Invariant windowMs metric threshold s log)
    {es : List (Entry (Report α ρ))} {r : Report α ρ} {s' : PairStream α ρ}
    {found : List (ReportPair α ρ)} (hs : Taken s es r s' found) :
    s'.live = liveAfter windowMs (log.accepted ++ [r]) := by
  rw [hs.live, h.survivors, liveAfter_concat]

theorem recent_taken (h : Invariant windowMs metric threshold s log)
    {es es' : List (Entry (Report α ρ))} {r : Report α ρ} (ht : s.InOrder r.time)
    {s' : PairStream α ρ} {found : List (ReportPair α ρ)} (hs : Taken s es r s' found)
    (hre : Reindexed s r s' es es') (before : WindowBefore windowMs (log.accepted ++ [r]))
    (hrecent : ∀ e ∈ es, ∃ c, s.clock = some c ∧
      max c.current c.nextRebuild - 2 * windowMs < e.item.time) :
    ∀ e ∈ es', ∃ c, s'.clock = some c ∧
      max c.current c.nextRebuild - 2 * windowMs < e.item.time := by
  have hw := h.window_pos
  obtain ⟨earlier, fits⟩ := windowBefore_concat.mp before
  intro e he
  cases hre with
  | grown _ hdue hc =>
    refine ⟨_, hc, ?_⟩
    rcases List.mem_append.mp he with he | he
    · obtain ⟨c, hclock, hyoung⟩ := hrecent e he
      have due : s.deadline r.time = c.nextRebuild := by rw [deadline, hclock, Option.elim_some]
      dsimp only
      omega
    · obtain rfl := List.mem_singleton.mp he
      have := h.deadline_le earlier fits ht
      dsimp only
      omega
  | rebuilt _ hdue hc _ hes =>
    refine ⟨_, hc, ?_⟩
    have hmem := hes.mem_iff.mp he
    rw [entries_eq_numbered] at hmem
    have hitem := (numbered_bounds hmem).2.2
    rw [hs.live, h.survivors, notStale_liveAfter h.ordered earlier (h.accepted_le ht) fits,
      List.mem_append, List.mem_filter, decide_eq_true_eq, List.mem_singleton] at hitem
    have ahead := Word.sum_le (a := r.time) (b := windowMs) (by have := fits.1; omega)
    rw [h.windowMs_eq]
    have young : r.time - windowMs < e.item.time := by
      rcases hitem with ⟨-, young⟩ | rfl
      · exact young
      · omega
    dsimp only
    omega

theorem taken (h : Invariant windowMs metric threshold s log) {es : List (Entry (Report α ρ))}
    (hrecent : WindowBefore windowMs log.accepted → ∀ e ∈ es, ∃ c, s.clock = some c ∧
      max c.current c.nextRebuild - 2 * windowMs < e.item.time)
    {r : Report α ρ} (ht : s.InOrder r.time) {s' : PairStream α ρ}
    {found : List (ReportPair α ρ)} (hs : Taken s es r s' found) :
    Invariant windowMs metric threshold s' (log.note r s s' (.ok found)) := by
  obtain ⟨es', hindex, hre⟩ := hs.index
  obtain ⟨next, hc⟩ : ∃ next, s'.clock = some ⟨r.time, next⟩ := by
    cases hre with
    | grown _ _ hc => exact ⟨_, hc⟩
    | rebuilt _ _ hc => exact ⟨_, hc⟩
  have accepted : (log.note r s s' (.ok found)).accepted = log.accepted ++ [r] := rfl
  refine ⟨hs.windowMs.trans h.windowMs_eq, hs.metric.trans h.metric_eq,
    hs.threshold.trans h.threshold_eq, h.window_pos, ?ordered, ?live, ?current, ?peak, ?due,
    ⟨es', hindex, ?recent⟩, ?spaced, ?lastRebuild⟩
  case ordered =>
    exact List.pairwise_append.mpr ⟨h.ordered, List.pairwise_singleton .., fun q hq p hp =>
      List.mem_singleton.mp hp ▸ h.accepted_le ht q hq⟩
  case live => exact h.live_taken hs
  case current => simp [accepted, hc]
  case peak =>
    rw [hs.peak, h.peak]
    exact (List.foldl_concat ..).symm
  case due =>
    intro before c hc'
    obtain ⟨earlier, fits⟩ := windowBefore_concat.mp before
    have hw := h.window_pos
    cases hre with
    | grown _ _ hclock =>
      obtain rfl := Option.some.inj (hclock.symm.trans hc')
      exact h.deadline_le earlier fits ht
    | rebuilt _ _ hclock =>
      obtain rfl := Option.some.inj (hclock.symm.trans hc')
      rw [h.windowMs_eq]
      exact Word.sum_le (by have := fits.1; omega)
  case recent =>
    intro before
    exact h.recent_taken ht hs hre before (hrecent (windowBefore_concat.mp before).1)
  case spaced =>
    intro after
    obtain ⟨earlier, -⟩ := windowAfter_concat.mp after
    cases hre with
    | grown _ _ _ hn => simpa [StreamLog.note, hn] using h.spaced earlier
    | rebuilt _ hdue _ hn =>
      simp only [StreamLog.note, hn, Nat.lt_add_one, if_true]
      refine List.isChain_append.mpr ⟨h.spaced earlier, .singleton _, ?_⟩
      intro t htime u hu
      obtain rfl := Option.some.inj hu
      obtain ⟨c, hclock, hnext⟩ := h.lastRebuild earlier t htime
      rw [deadline, hclock, Option.elim_some] at hdue
      omega
  case lastRebuild =>
    intro after t htime
    obtain ⟨earlier, fits⟩ := windowAfter_concat.mp after
    cases hre with
    | grown _ _ hclock hn =>
      obtain ⟨c, hc', hnext⟩ := h.lastRebuild earlier t (by simpa [StreamLog.note, hn] using htime)
      refine ⟨_, hclock, ?_⟩
      rw [deadline, hc', Option.elim_some, hnext]
    | rebuilt _ _ hclock hn =>
      simp only [StreamLog.note, hn, Nat.lt_add_one, if_true, List.getLast?_concat,
        Option.mem_some_iff] at htime
      refine ⟨_, hclock, ?_⟩
      rw [h.windowMs_eq, Word.sum_of_fits fits, htime]

theorem offer (hm : Measures metric metric.Admits)
    (h : Invariant windowMs metric threshold s log) (o : Offer α ρ) :
    Invariant windowMs metric threshold (offer (s, log) o).1 (offer (s, log) o).2 := by
  obtain ⟨es, hi, hrecent⟩ := h.index
  rw [← h.metric_eq] at hm
  unfold PairStream.offer
  rcases accept_cases hm hi o.order o.report with
    ⟨e, -, he⟩ | ⟨c, -, -, -, he⟩ | ⟨-, ht, s', found, he, hs⟩
  · rw [he]
    exact h.refused o.report _ _
  · rw [he]
    exact h.refused o.report _ _
  · rw [he]
    exact h.taken hrecent ht hs

end Invariant

def reportAt (time : Int) (latitude : ℚ) (altitude : Option ℚ) : Report ℚ Unit where
  time
  position := ⟨latitude, 0⟩
  altitude
  speed := none
  course := none
  curvature := none
  alongTrackDistance := none
  trackId := none
  payload := ()

end PairStream
end AirTraffic
