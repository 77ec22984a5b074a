import AirTraffic.Proofs.Track.Reading

/-!
# Thinning with a heartbeat

Thinning cuts a list into clusters, each a report that is kept and after it those dropped for being
close to it. Where closeness in place and in time are both asked for, no cluster lasts as long as
the heartbeat.
-/
namespace AirTraffic

open Report

variable {α ρ : Type}

namespace Report

/-- A report that is kept, and those dropped before the next one that is. -/
structure Cluster (α ρ : Type) where
  kept : Report α ρ
  dropped : List (Report α ρ)

def Cluster.reports (g : Cluster α ρ) : List (Report α ρ) := g.kept :: g.dropped

/-- How a list is cut when it is thinned. -/
structure CutInto (close : Report α ρ → Report α ρ → Bool) (reports : List (Report α ρ))
    (clusters : List (Cluster α ρ)) : Prop where
  whole : clusters.flatMap Cluster.reports = reports
  kept : clusters.map Cluster.kept = thin close reports
  near : ∀ g ∈ clusters, ∀ r ∈ g.dropped, close g.kept r
  apart : clusters.IsChain fun g h => ¬close g.kept h.kept

variable {close : Report α ρ → Report α ρ → Bool} {reports : List (Report α ρ)}

theorem exists_cutInto_cons (r : Report α ρ) (rest : List (Report α ρ)) :
    ∃ dropped clusters, CutInto close (r :: rest) (⟨r, dropped⟩ :: clusters) := by
  fun_induction thinAfter close r rest with
  | case1 r => exact ⟨[], [], rfl, rfl, by simp, List.isChain_singleton _⟩
  | case2 r q rest near ih =>
    obtain ⟨dropped, clusters, whole, kept, closely, apart⟩ := ih
    refine ⟨q :: dropped, clusters, ?_, ?_, ?_, ?_⟩
    · have rest_eq : dropped ++ clusters.flatMap Cluster.reports = rest :=
        List.tail_eq_of_cons_eq whole
      rw [List.flatMap_cons, Cluster.reports, List.cons_append, List.cons_append, rest_eq]
    · rw [thin, thinAfter, if_pos near]
      exact kept
    · intro g hg
      rcases List.mem_cons.mp hg with rfl | hg
      · exact List.forall_mem_cons.mpr ⟨near, closely ⟨r, dropped⟩ List.mem_cons_self⟩
      · exact closely g (List.mem_cons_of_mem _ hg)
    · exact List.isChain_cons.mpr (List.isChain_cons.mp apart)
  | case3 r q rest far ih =>
    obtain ⟨dropped, clusters, whole, kept, closely, apart⟩ := ih
    refine ⟨[], ⟨q, dropped⟩ :: clusters, ?_, ?_, ?_, ?_⟩
    · rw [List.flatMap_cons, whole]
      rfl
    · rw [thin, thinAfter, if_neg far, List.map_cons, kept]
      rfl
    · exact List.forall_mem_cons.mpr ⟨List.forall_mem_nil _, closely⟩
    · exact List.isChain_cons_cons.mpr ⟨far, apart⟩

theorem exists_cutInto (close : Report α ρ → Report α ρ → Bool) (reports : List (Report α ρ)) :
    ∃ clusters, CutInto close reports clusters := by
  cases reports with
  | nil => exact ⟨[], rfl, rfl, List.forall_mem_nil _, List.isChain_nil⟩
  | cons r rest =>
    obtain ⟨dropped, clusters, cut⟩ := exists_cutInto_cons r rest
    exact ⟨_, cut⟩

theorem thin_of_apart (apart : reports.IsChain fun r q => ¬close r q) :
    thin close reports = reports := by
  cases reports with
  | nil => rfl
  | cons r rest =>
    rw [thin]
    induction rest generalizing r with
    | nil => rfl
    | cons q rest ih =>
      obtain ⟨far, apart⟩ := List.isChain_cons_cons.mp apart
      rw [thinAfter, if_neg far, ih q apart]

theorem head?_thin (close : Report α ρ → Report α ρ → Bool) (reports : List (Report α ρ)) :
    (thin close reports).head? = reports.head? := by
  cases reports <;> rfl

namespace CutInto

variable {clusters : List (Cluster α ρ)} (cut : CutInto close reports clusters)

include cut

theorem again : thin close (thin close reports) = thin close reports := by
  rw [← cut.kept]
  exact thin_of_apart ((List.isChain_map _).mpr cut.apart)

theorem cluster_inOrder (order : InOrder reports) {g : Cluster α ρ} (hg : g ∈ clusters) :
    ∀ r ∈ g.dropped, g.kept.time ≤ r.time := by
  rw [inOrder_iff, ← cut.whole, List.pairwise_flatMap] at order
  exact (List.pairwise_cons.mp (order.1 g hg)).1

theorem kept_inOrder (order : InOrder reports) :
    clusters.Pairwise fun g h => g.kept.time ≤ h.kept.time := by
  have left := (inOrder_iff.mp order).sublist (thin_sublist close reports)
  rwa [← cut.kept, List.pairwise_map] at left

theorem isChain_kept {R S : Report α ρ → Report α ρ → Prop} (steps : reports.IsChain R)
    (across : ∀ g ∈ clusters, ∀ r ∈ g.reports, ∀ q, R r q → S g.kept q) :
    (thin close reports).IsChain S := by
  have filled : [] ∉ clusters.map Cluster.reports := by
    intro empty
    obtain ⟨g, -, hg⟩ := List.mem_map.mp empty
    exact List.cons_ne_nil _ _ hg
  rw [← cut.whole, List.flatMap_def, List.isChain_flatten filled, List.isChain_map] at steps
  rw [← cut.kept, List.isChain_map]
  refine steps.2.imp_of_mem_imp ?_
  intro g h hg _ step
  obtain ⟨r, hr⟩ : ∃ r, g.reports.getLast? = some r :=
    ⟨_, List.getLast?_eq_some_getLast (List.cons_ne_nil g.kept g.dropped)⟩
  exact across g hg r (List.mem_of_getLast? hr) h.kept (step r hr h.kept rfl)

theorem exists_last {last : Report α ρ} (hlast : last ∈ reports.getLast?) :
    ∃ g ∈ clusters, g.kept ∈ (thin close reports).getLast? ∧ last ∈ g.reports := by
  rcases clusters.eq_nil_or_concat' with rfl | ⟨earlier, g, rfl⟩
  · rw [← cut.whole] at hlast
    cases hlast
  · refine ⟨g, List.mem_append_right _ List.mem_cons_self, ?_, ?_⟩
    · rw [← cut.kept, List.map_append]
      exact List.getLast?_concat
    · have ends : reports.getLast? = g.reports.getLast? := by
        rw [← cut.whole, List.flatMap_append, List.flatMap_singleton]
        exact List.getLast?_append_of_ne_nil _ (List.cons_ne_nil _ _)
      exact List.mem_of_getLast? (ends ▸ hlast)

end CutInto

end Report

namespace DistanceThinning

variable [Scalar α] [Geodesy α] {s : DistanceThinning α}

theorem close_iff {p r : Report α ρ} (before : p.time ≤ r.time) :
    s.close p r ↔ p.distanceTo r < s.minimumNm ∧ r.time - p.time < s.heartbeatMs := by
  have passed : ((r.time - p.time).natAbs : Int) = r.time - p.time :=
    Int.natAbs_of_nonneg (by omega)
  rw [close, Bool.and_eq_true, decide_eq_true_eq, decide_eq_true_eq, passed]

variable {reports : List (Report α ρ)}

/-- What is kept, what is dropped, and how long it can take from one report to the next. -/
structure Thinned (s : DistanceThinning α) (reports out : List (Report α ρ)) : Prop where
  first : out.head? = reports.head?
  clusters : ∃ clusters : List (Cluster α ρ), clusters.flatMap Cluster.reports = reports ∧
    clusters.map Cluster.kept = out ∧
    (∀ g ∈ clusters, ∀ r ∈ g.dropped,
      g.kept.distanceTo r < s.minimumNm ∧ r.time - g.kept.time < s.heartbeatMs) ∧
    clusters.IsChain fun g h =>
      ¬g.kept.distanceTo h.kept < s.minimumNm ∨ s.heartbeatMs ≤ h.kept.time - g.kept.time
  gaps : ∀ gap, (reports.IsChain fun r q => q.time - r.time ≤ gap) →
    out.IsChain fun p q => q.time - p.time < s.heartbeatMs + gap
  last : ∀ r ∈ reports.getLast?, ∃ p ∈ out.getLast?, r.time - p.time < s.heartbeatMs

section Clusters

variable {clusters : List (Cluster α ρ)} (cut : CutInto s.close reports clusters)
  (order : InOrder reports)

include cut order

theorem dropped_close : ∀ g ∈ clusters, ∀ r ∈ g.dropped,
    g.kept.distanceTo r < s.minimumNm ∧ r.time - g.kept.time < s.heartbeatMs := by
  intro g hg r hr
  exact (close_iff (cut.cluster_inOrder order hg r hr)).mp (cut.near g hg r hr)

theorem cluster_lasts : ∀ g ∈ clusters, ∀ r ∈ g.reports, r.time - g.kept.time < s.heartbeatMs := by
  intro g hg r hr
  rcases List.mem_cons.mp hr with rfl | hr
  · have := s.positive
    omega
  · exact (dropped_close cut order g hg r hr).2

theorem kept_far : clusters.IsChain fun g h =>
    ¬g.kept.distanceTo h.kept < s.minimumNm ∨ s.heartbeatMs ≤ h.kept.time - g.kept.time := by
  refine List.isChain_iff_getElem.mpr ?_
  intro i hi
  have apart := List.isChain_iff_getElem.mp cut.apart i hi
  have before := List.pairwise_iff_getElem.mp (cut.kept_inOrder order) i (i + 1)
    (Nat.lt_of_succ_lt hi) hi (Nat.lt_succ_self i)
  rwa [close_iff before, not_and_or, Int.not_lt] at apart

end Clusters

/-- Thinning keeps the first report, drops what is close in place and in time to the last report
kept, and leaves no gap of a heartbeat more than there was. What is left is not thinned further. -/
theorem clean_thinned (s : DistanceThinning α) (order : InOrder reports) :
    s.Thinned reports (s.clean reports) ∧ s.clean (s.clean reports) = s.clean reports := by
  obtain ⟨clusters, cut⟩ := exists_cutInto s.close reports
  have lasts := cluster_lasts cut order
  refine ⟨?_, cut.again⟩
  constructor
  case first => exact head?_thin s.close reports
  case clusters =>
    exact ⟨clusters, cut.whole, cut.kept, dropped_close cut order, kept_far cut order⟩
  case gaps =>
    intro gap steps
    refine cut.isChain_kept steps ?_
    intro g hg r hr q step
    have := lasts g hg r hr
    omega
  case last =>
    intro r hr
    obtain ⟨g, hg, kept, own⟩ := cut.exists_last hr
    exact ⟨g.kept, kept, lasts g hg r own⟩

def standingThenNorth : List (Report ℚ Unit) :=
  [(0, 0), (10000, 0), (20000, 0), (30000, 0), (40000, 0), (50000, 0), (60000, 0), (70000, 1),
    (80000, 1)].map fun p : Int × ℚ => { Track.equatorAt (p.1, 0, none) with position := ⟨p.2, 0⟩ }

theorem standingThenNorth_thinned : InOrder standingThenNorth ∧
    times (standard.clean standingThenNorth) = [0, 30000, 60000, 70000] ∧
    standard.Thinned standingThenNorth (standard.clean standingThenNorth) ∧
    (standard.clean standingThenNorth).IsChain (fun p q => q.time - p.time < 40000) ∧
    standard.clean (standard.clean standingThenNorth) = standard.clean standingThenNorth := by
  have order : InOrder standingThenNorth := by
    rw [InOrder]
    decide
  have kept : times (standard.clean standingThenNorth) = [0, 30000, 60000, 70000] := by
    decide +kernel
  have steps : standingThenNorth.IsChain fun r q => q.time - r.time ≤ 10000 := by decide
  obtain ⟨thinned, again⟩ := clean_thinned standard order
  exact ⟨order, kept, thinned, thinned.gaps 10000 steps, again⟩

end DistanceThinning
end AirTraffic
