import AirTraffic.Proofs.Proximity.Association
import AirTraffic.Proofs.Proximity.Isometry
import AirTraffic.Proofs.Proximity.Refusal
import AirTraffic.Proofs.TimeShift.Report

/-!
# Pairing at another time

A stream whose reports and clock are shifted stays the shifted stream, step by step: the ball tree
sees the same distances, and the clock only looks at differences. The shuffles are taken to be the
same, which for an order of reports means the shifted one.
-/
namespace AirTraffic

open Report

variable {α ρ : Type} (ms : Int)

theorem Entry.map_shift_cancel {back forth : Int} (h : back + forth = 0)
    (entries : List (Entry (Report α ρ))) :
    (entries.map (Entry.map (shift back))).map (Entry.map (shift forth)) = entries := by
  rw [List.map_map]
  refine (List.map_congr_left fun e _ => ?_).trans (List.map_id _)
  have htime : e.item.time + back + forth = e.item.time := by omega
  simp only [Function.comp_apply, Entry.map, Report.shift, htime]
  rfl

/-- The same shuffles of the shifted reports. -/
def RebuildOrder.shift (order : RebuildOrder (Entry (Report α ρ))) :
    RebuildOrder (Entry (Report α ρ)) where
  order k entries :=
    (order.order k (entries.map (Entry.map (Report.shift (-ms))))).map (Entry.map (Report.shift ms))
  perm k entries := by
    have := (order.perm k (entries.map (Entry.map (Report.shift (-ms))))).map
      (Entry.map (Report.shift ms))
    rwa [Entry.map_shift_cancel (by omega)] at this

theorem RebuildOrder.shift_order (order : RebuildOrder (Entry (Report α ρ))) (k : Nat)
    (entries : List (Entry (Report α ρ))) :
    (order.shift ms).order k (entries.map (Entry.map (Report.shift ms))) =
      (order.order k entries).map (Entry.map (Report.shift ms)) := by
  rw [shift]
  dsimp only
  rw [Entry.map_shift_cancel (by omega)]

def ReportPair.shift (p : ReportPair α ρ) : ReportPair α ρ :=
  ⟨p.newer.shift ms, p.older.shift ms, p.distance⟩

def StreamClock.shift (clock : StreamClock) : StreamClock :=
  ⟨clock.current + ms, clock.nextRebuild + ms⟩

theorem Metric.flat_shift [Scalar α] [Geodesy α] (w : MetricWeights α) (r q : Report α ρ) :
    flat w (r.shift ms) (q.shift ms) = flat w r q := by
  have apart : timeApart (r.shift ms) (q.shift ms) = timeApart r q :=
    congrArg Int.natAbs (Int.add_sub_add_right ..)
  rw [flat, apart]
  rfl

/-- The times a window before and after a time are shifted with it. -/
structure Word.Shifts (windowMs time : Int) : Prop where
  before : Word.difference (time + ms) windowMs = Word.difference time windowMs + ms
  after : Word.sum (time + ms) windowMs = Word.sum time windowMs + ms

namespace PairStream

@[simps clock] def shift (s : PairStream α ρ) : PairStream α ρ :=
  { s with
    tree := s.tree.map (Report.shift ms)
    live := s.live.map (Report.shift ms)
    clock := s.clock.map (StreamClock.shift ms) }

theorem advance_shift {s s₁ : PairStream α ρ} {time : Int} (shifts : Word.Shifts ms s.windowMs time)
    (h : s.advance time = .ok s₁) : (s.shift ms).advance (time + ms) = .ok (s₁.shift ms) := by
  obtain ⟨windowMs, metric, threshold, tree, live, firstId, clock, peak, rebuilds, calls⟩ := s
  cases clock with
  | none =>
    obtain rfl := Except.ok.inj h
    simp only [shift, advance, Option.map_none, Option.map_some, StreamClock.shift, shifts.after]
  | some c =>
    simp only [advance] at h
    by_cases hlate : time < c.current
    · rw [if_pos hlate] at h
      cases h
    · rw [if_neg hlate] at h
      obtain rfl := Except.ok.inj h
      simp [shift, advance, StreamClock.shift, hlate]

theorem advance_same {s s₁ : PairStream α ρ} {time : Int} (h : s.advance time = .ok s₁) :
    s₁.metric = s.metric ∧ s₁.windowMs = s.windowMs := by
  unfold advance at h
  split at h
  · obtain rfl := Except.ok.inj h
    exact ⟨rfl, rfl⟩
  · split at h
    · cases h
    · obtain rfl := Except.ok.inj h
      exact ⟨rfl, rfl⟩

theorem evict_shift {s : PairStream α ρ} {now : Int} (shifts : Word.Shifts ms s.windowMs now) :
    (s.shift ms).evict (now + ms) = (s.evict now).shift ms := by
  have stale : (s.shift ms).stale (now + ms) ∘ Report.shift ms = s.stale now := by
    funext r
    have before : Word.difference (now + ms) (s.shift ms).windowMs =
        Word.difference now s.windowMs + ms := shifts.before
    simp only [PairStream.stale, Function.comp_apply, before, Report.shift_time,
      Int.add_le_add_iff_right]
  have gone : (s.shift ms).live.takeWhile ((s.shift ms).stale (now + ms)) =
      (s.live.takeWhile (s.stale now)).map (Report.shift ms) := by
    rw [← stale]
    exact List.takeWhile_map
  unfold evict
  rw [gone]
  simp only [shift, List.length_map, List.map_drop]

theorem entries_shift (s : PairStream α ρ) :
    (s.shift ms).entries = s.entries.map (Entry.map (Report.shift ms)) := by
  simp only [entries, shift, List.zipIdx_map, List.map_map]
  rfl

theorem notePeak_shift (s : PairStream α ρ) :
    (s.shift ms).notePeak = s.notePeak.shift ms := by
  simp [notePeak, size, shift]

theorem pairAndInsert_same [Scalar α] (s : PairStream α ρ) (r : Report α ρ) :
    (s.pairAndInsert r).1.metric = s.metric ∧ (s.pairAndInsert r).1.windowMs = s.windowMs := by
  simp only [pairAndInsert, counting]
  split
  · exact ⟨rfl, rfl⟩
  · split
    · exact ⟨rfl, rfl⟩
    · exact ⟨rfl, rfl⟩

variable [Scalar α] {s : PairStream α ρ}
  (hmetric : ∀ r q : Report α ρ, s.metric (r.shift ms) (q.shift ms) = s.metric r q)

include hmetric

theorem pairAndInsert_shift (r : Report α ρ) :
    (s.shift ms).pairAndInsert (r.shift ms) =
      ((s.pairAndInsert r).1.shift ms,
        (s.pairAndInsert r).2.map (List.map (Hit.map (Report.shift ms)))) := by
  have search : ((s.shift ms).tree.within (s.shift ms).metric (r.shift ms) (s.shift ms).threshold
      ((s.shift ms).firstId ≤ ·)).run =
        Except.map (List.map (Hit.map (Report.shift ms))) <$>
          (s.tree.within s.metric r s.threshold (s.firstId ≤ ·)).run := by
    rw [← ExceptT.run_map]
    exact congrArg ExceptT.run (s.tree.within_map hmetric r s.threshold (s.firstId ≤ ·))
  have insertion : (s.shift ms).tree.insert (s.shift ms).metric
      ⟨(s.shift ms).firstId + (s.shift ms).live.length, r.shift ms⟩ =
        Prod.map (BallTree.map (Report.shift ms)) id <$>
          s.tree.insert s.metric ⟨s.firstId + s.live.length, r⟩ := by
    rw [show (s.shift ms).live.length = s.live.length from List.length_map ..]
    exact s.tree.insert_map hmetric ⟨s.firstId + s.live.length, r⟩
  simp only [pairAndInsert, counting, search, insertion]
  generalize (s.tree.within s.metric r s.threshold (s.firstId ≤ ·)).run = found
  generalize s.tree.insert s.metric ⟨s.firstId + s.live.length, r⟩ = inserted
  obtain ⟨e | hits, searching⟩ := found
  case error => rfl
  obtain ⟨⟨tree, e | done⟩, inserting⟩ := inserted
  case error => rfl
  have live : (s.live ++ [r]).map (Report.shift ms) =
      s.live.map (Report.shift ms) ++ [r.shift ms] := List.map_append
  simp only [shift, live]
  rfl

theorem treeOf_shift (entries : List (Entry (Report α ρ))) :
    treeOf s.metric (entries.map (Entry.map (Report.shift ms))) =
      BallTree.map (Report.shift ms) <$> treeOf s.metric entries := by
  suffices ∀ tree : BallTree α (Report α ρ),
      (entries.map (Entry.map (Report.shift ms))).foldlM
        (fun tree e => Prod.fst <$> tree.insert s.metric e) (tree.map (Report.shift ms)) =
          BallTree.map (Report.shift ms) <$>
            entries.foldlM (fun tree e => Prod.fst <$> tree.insert s.metric e) tree from
    this .empty
  induction entries with
  | nil => exact fun tree => rfl
  | cons e rest ih =>
    intro tree
    rw [List.map_cons, List.foldlM_cons, List.foldlM_cons, tree.insert_map hmetric, map_bind,
      bind_map_left, bind_map_left, bind_map_left]
    exact bind_congr fun inserted => ih inserted.1

theorem rebuild_shift (order : RebuildOrder (Entry (Report α ρ))) :
    rebuild (order.shift ms) (s.shift ms) = (rebuild order s).shift ms := by
  have fresh : treeOf (s.shift ms).metric
      ((order.shift ms).order (s.shift ms).rebuilds (s.shift ms).entries) =
        BallTree.map (Report.shift ms) <$> treeOf s.metric (order.order s.rebuilds s.entries) := by
    rw [entries_shift]
    exact (congrArg (treeOf s.metric) (order.shift_order ms s.rebuilds s.entries)).trans
      (treeOf_shift ms hmetric _)
  simp only [rebuild, fresh, counting]
  rfl

theorem rebuildIfDue_shift (order : RebuildOrder (Entry (Report α ρ))) {now : Int}
    (shifts : Word.Shifts ms s.windowMs now) :
    (s.shift ms).rebuildIfDue (order.shift ms) (now + ms) =
      (s.rebuildIfDue order now).shift ms := by
  simp only [rebuildIfDue, shift_clock]
  cases s.clock with
  | none => rfl
  | some c =>
    simp only [Option.map_some, StreamClock.shift, Int.add_le_add_iff_right]
    by_cases hdue : now ≤ c.nextRebuild
    · rw [if_pos hdue, if_pos hdue]
    · rw [if_neg hdue, if_neg hdue]
      let due := { s with clock := some { c with nextRebuild := Word.sum now s.windowMs } }
      refine Eq.trans (congrArg (rebuild _) ?_) (rebuild_shift ms (s := due) hmetric order)
      simp only [shift, due, Option.map_some, StreamClock.shift, shifts.after]

theorem settle_shift (order : RebuildOrder (Entry (Report α ρ))) {r : Report α ρ}
    (shifts : Word.Shifts ms s.windowMs r.time) :
    settle (order.shift ms) (s.shift ms) (r.shift ms) =
      ((settle order s r).1.shift ms,
        (settle order s r).2.map (List.map (ReportPair.shift ms))) := by
  have hevict : ∀ a b : Report α ρ, (s.evict r.time).metric (a.shift ms) (b.shift ms) =
      (s.evict r.time).metric a b := hmetric
  obtain ⟨sameMetric, sameWindow⟩ := (s.evict r.time).pairAndInsert_same r
  have htaken : ∀ a b : Report α ρ,
      ((s.evict r.time).pairAndInsert r).1.metric (a.shift ms) (b.shift ms) =
        ((s.evict r.time).pairAndInsert r).1.metric a b := by
    rw [sameMetric]
    exact hmetric
  have hshifts : Word.Shifts ms ((s.evict r.time).pairAndInsert r).1.windowMs r.time := by
    rw [sameWindow]
    exact shifts
  simp only [settle, Report.shift_time, evict_shift ms shifts, pairAndInsert_shift ms hevict,
    rebuildIfDue_shift ms htaken order hshifts, notePeak_shift]
  cases ((s.evict r.time).pairAndInsert r).2 with
  | error e => rfl
  | ok hits =>
    simp only [Except.map, List.map_map]
    rfl

theorem accept_shift {order : RebuildOrder (Entry (Report α ρ))} {r : Report α ρ}
    {s' : PairStream α ρ} {found : List (ReportPair α ρ)}
    (shifts : Word.Shifts ms s.windowMs r.time) (h : s.accept order r = (s', .ok found)) :
    (s.shift ms).accept (order.shift ms) (r.shift ms) =
      (s'.shift ms, .ok (found.map (ReportPair.shift ms))) := by
  rw [accept_eq_settle] at h ⊢
  have self : (s.shift ms).metric (r.shift ms) (r.shift ms) = s.metric r r := hmetric r r
  rw [self]
  cases hself : s.metric r r with
  | error e => simp [hself] at h
  | ok x =>
    cases hadvance : s.advance r.time with
    | error e => simp [hself, hadvance] at h
    | ok s₁ =>
      simp only [hself, hadvance] at h
      obtain ⟨sameMetric, sameWindow⟩ := advance_same hadvance
      have hsame : ∀ a b : Report α ρ, s₁.metric (a.shift ms) (b.shift ms) = s₁.metric a b := by
        rw [sameMetric]
        exact hmetric
      have hshifts : Word.Shifts ms s₁.windowMs r.time := by rwa [sameWindow]
      have settled := settle_shift ms (s := { s₁ with calls := s.calls + 1 }) hsame order hshifts
      rw [h] at settled
      simp only [Report.shift_time, advance_shift ms shifts hadvance]
      exact settled

end PairStream

namespace Association

/-- Neither the time a window before any of the reports nor the time a window after it leaves the
range of words. -/
def WindowFits (windowMs : Int) (reports : List (Report α ρ)) : Prop :=
  WindowBefore windowMs reports ∧ WindowAfter windowMs reports

theorem WindowFits.shifts {windowMs : Int} {reports : List (Report α ρ)}
    (fits : WindowFits windowMs reports)
    (shifted : WindowFits windowMs (reports.map (Report.shift ms))) {r : Report α ρ}
    (hr : r ∈ reports) : Word.Shifts ms windowMs r.time := by
  obtain ⟨before, after⟩ := shifted
  have hr' := List.mem_map_of_mem (f := Report.shift ms) hr
  have early : Word.difference (r.time + ms) windowMs = r.time + ms - windowMs :=
    Word.difference_of_fits (before _ hr')
  have late : Word.sum (r.time + ms) windowMs = r.time + ms + windowMs :=
    Word.sum_of_fits (after _ hr')
  constructor
  · rw [early, Word.difference_of_fits (fits.1 r hr)]
    omega
  · rw [late, Word.sum_of_fits (fits.2 r hr)]
    omega

theorem reports_shift (tracks : List (Track α ρ)) :
    (tracks.map (Track.shift ms)).flatMap (·.reports) =
      (tracks.flatMap (·.reports)).map (Report.shift ms) := by
  rw [List.flatMap_map, List.map_flatMap]
  rfl

theorem stream_shift (tracks : List (Track α ρ)) :
    stream (tracks.map (Track.shift ms)) = (stream tracks).map (Report.shift ms) := by
  unfold stream
  rw [reports_shift]
  exact (List.map_mergeSort fun r _ q _ => by simp).symm

theorem indexOf?_shift (tracks : List (Track α ρ)) (id : String) :
    indexOf? (tracks.map (Track.shift ms)) id = indexOf? tracks id := by
  simp only [indexOf?, List.zipIdx_map, ← List.map_reverse, List.find?_map, Option.map_map]
  refine congrArg₂ Option.map rfl (congrArg (List.find? · _) (funext fun p => ?_))
  exact congrArg (· == some id) (Track.id?_shift ms p.1)

theorem tracksOf?_shift (tracks : List (Track α ρ)) (p : ReportPair α ρ) :
    tracksOf? (tracks.map (Track.shift ms)) (p.shift ms) = tracksOf? tracks p := by
  simp only [tracksOf?, indexOf?_shift]
  rfl

variable [Scalar α] {windowMs : Int} {metric : Metric α ρ} {threshold : α}

/-- A stream in order of time is taken in full, and the shifted one gives the shifted pairs. -/
theorem pairs_shift (hmeasures : ∀ r q : Report α ρ, ∃ x, metric r q = .ok x)
    (hmetric : ∀ r q : Report α ρ, metric (r.shift ms) (q.shift ms) = metric r q)
    (order : RebuildOrder (Entry (Report α ρ))) (reports : List (Report α ρ)) :
    ∀ (s : PairStream α ρ) (log : StreamLog α ρ), s.Invariant windowMs metric threshold log →
      (∀ r ∈ reports, Word.Shifts ms windowMs r.time) →
      (log.accepted ++ reports).Pairwise (fun r q => r.time ≤ q.time) →
      ∃ found, pairs order s reports = .ok found ∧
        pairs (order.shift ms) (s.shift ms) (reports.map (Report.shift ms)) =
          .ok (found.map (ReportPair.shift ms)) := by
  induction reports with
  | nil => exact fun s log _ _ _ => ⟨[], rfl, rfl⟩
  | cons r rest ih =>
    intro s log inv hshifts hordered
    obtain ⟨shifts, later⟩ := List.forall_mem_cons.mp hshifts
    have hlate : ∀ q ∈ log.accepted, q.time ≤ r.time := fun q hq =>
      (List.pairwise_append.mp hordered).2.2 q hq r List.mem_cons_self
    obtain ⟨es, hi, hrecent⟩ := inv.index
    obtain ⟨s', first, he, hs⟩ := PairStream.taken_of_admits
      (fun a b _ _ => inv.metric_eq ▸ hmeasures a b) hi (inv.metric_eq ▸ hmeasures r r)
      (inv.inOrder hlate) order
    have inv' := inv.taken hrecent (inv.inOrder hlate) hs
    have taken : (log.note r s s' (.ok first)).accepted = log.accepted ++ [r] := rfl
    obtain ⟨found, hpairs, hshifted⟩ := ih s' _ inv' later (by simpa [taken] using hordered)
    have hshift :=
      PairStream.accept_shift ms (inv.metric_eq ▸ hmetric) (inv.windowMs_eq.symm ▸ shifts) he
    refine ⟨first ++ found, ?_, ?_⟩
    · simp only [pairs, he, hpairs]
      rfl
    · simp only [List.map_cons, pairs, hshift, hshifted, List.map_append]
      rfl

variable [Geodesy α]

theorem candidates_shift (order : RebuildOrder (Entry (Report α ρ))) {tracks : List (Track α ρ)}
    {criteria : PairingCriteria α}
    (fits : WindowFits criteria.windowMs (tracks.flatMap (·.reports)))
    (shifted : WindowFits criteria.windowMs
      ((tracks.map (Track.shift ms)).flatMap (·.reports))) :
    candidates (order.shift ms) (tracks.map (Track.shift ms)) criteria =
      candidates order tracks criteria := by
  unfold candidates PairStream.ofCriteria
  cases hstart : PairStream.start criteria.windowMs
      (Metric.flat criteria.weights : Metric α ρ) criteria.threshold with
  | error e => rfl
  | ok s₀ =>
    have fresh : s₀.shift ms = s₀ := by
      obtain ⟨-, -, rfl⟩ := PairStream.start_ok hstart
      rfl
    have measures : ∀ r q : Report α ρ, ∃ x, Metric.flat criteria.weights r q = .ok x :=
      fun r q => ⟨_, rfl⟩
    have shifts : ∀ r ∈ stream tracks, Word.Shifts ms criteria.windowMs r.time := fun r hr =>
      fits.shifts ms (reports_shift ms tracks ▸ shifted) ((stream_perm tracks).mem_iff.mp hr)
    obtain ⟨found, hpairs, hshifted⟩ := pairs_shift ms measures
      (Metric.flat_shift ms criteria.weights) order (stream tracks) s₀ .empty
      (PairStream.start_invariant hstart) shifts (stream_ordered tracks)
    rw [fresh] at hshifted
    have same : (found.map (ReportPair.shift ms)).filterMap
        (tracksOf? (tracks.map (Track.shift ms))) = found.filterMap (tracksOf? tracks) := by
      rw [List.filterMap_map]
      exact congrArg (List.filterMap · found) (funext fun p => tracksOf?_shift ms tracks p)
    simp only [stream_shift]
    change (pairs _ s₀ _ >>= _) = (pairs _ s₀ _ >>= _)
    rw [hpairs, hshifted]
    exact congrArg (fun pairs => Except.ok (pairs.eraseDups.mergeSort before)) same

end Association
end AirTraffic
