import Mathlib.Data.List.Chain
import AirTraffic.Proofs.Cleaning.Edits

/-!
# Spaced times

Thinning leaves the times of reports spaced. Spaced reports are not crowded, and sorting them again
changes nothing.
-/
namespace AirTraffic

open Report

variable {α ρ : Type}

/-- Times in order, each at least so long after the one before. -/
def Spaced (ms : Int) (times : List Int) : Prop := times.Pairwise fun t u => t + ms ≤ u

theorem Report.thinAfter_isChain (s : TimeThinning) (kept : Report α ρ)
    (reports : List (Report α ρ)) :
    (kept :: thinAfter s.close kept reports).IsChain fun r q => r.time + s.minimumMs ≤ q.time := by
  fun_induction thinAfter s.close kept reports with
  | case1 => exact List.isChain_singleton _
  | case2 kept r rest _ ih => exact ih
  | case3 kept r rest hfar ih =>
    refine List.isChain_cons_cons.mpr ⟨?_, ih⟩
    have : ¬r.time - kept.time < s.minimumMs := by simpa [TimeThinning.close] using hfar
    omega

theorem TimeThinning.clean_spaced (s : TimeThinning) (reports : List (Report α ρ)) :
    Spaced s.minimumMs (times (s.clean reports)) := by
  let far (r q : Report α ρ) : Prop := r.time + s.minimumMs ≤ q.time
  have : Trans far far far := by
    refine ⟨fun {r q p} (h : r.time + _ ≤ q.time) (k : q.time + _ ≤ p.time) => ?_⟩
    have := s.positive
    exact (by omega : r.time + s.minimumMs ≤ p.time)
  unfold Spaced times
  rw [List.pairwise_map]
  cases reports with
  | nil => exact .nil
  | cons r rest => exact List.isChain_iff_pairwise.mp (thinAfter_isChain s r rest)

theorem Spaced.increase {ms : Int} {times : List Int} (h : Spaced ms times) (hms : 0 < ms) :
    times.Pairwise (· < ·) :=
  h.imp fun hle => by omega

theorem Spaced.mono {ms less : Int} {times : List Int} (h : Spaced ms times) (hle : less ≤ ms) :
    Spaced less times :=
  h.imp fun h => by omega

theorem Report.dropFlagged_of_unflagged {flags : List Bool} (h : ∀ flag ∈ flags, flag = false)
    (reports : List (Report α ρ)) : dropFlagged flags reports = reports := by
  fun_induction dropFlagged flags reports with
  | case1 => rfl
  | case2 => rfl
  | case3 => exact absurd (h true List.mem_cons_self) (by decide)
  | case4 flag flags r reports _ ih => rw [ih fun f hf => h f (List.mem_cons_of_mem _ hf)]

theorem Report.mem_dropFlagged {flags : List Bool} {reports : List (Report α ρ)} {j : Nat}
    {r : Report α ρ} (unflagged : flags[j]? = some false) (hr : reports[j]? = some r) :
    r ∈ dropFlagged flags reports := by
  fun_induction dropFlagged flags reports generalizing j with
  | case1 => simp at unflagged
  | case2 => simp at hr
  | case3 flags q reports ih =>
    cases j with
    | zero => simp at unflagged
    | succ j => exact ih unflagged hr
  | case4 flag flags q reports _ ih =>
    cases j with
    | zero => exact Option.some.inj hr ▸ List.mem_cons_self
    | succ j => exact List.mem_cons_of_mem q (ih unflagged hr)

theorem Report.dropFlagged_of_index (flag : Nat → Bool) (start : Nat)
    (reports : List (Report α ρ)) :
    dropFlagged ((List.range' start reports.length).map flag) reports =
      ((reports.zipIdx start).filter fun p => !flag p.2).map Prod.fst := by
  induction reports generalizing start with
  | nil => rfl
  | cons r rest ih =>
    rw [List.length_cons, List.range'_succ, List.map_cons, List.zipIdx_cons, dropFlagged, ih]
    cases flagged : flag start with
    | true => rw [if_pos rfl, List.filter_cons_of_neg (by simp [flagged])]
    | false =>
      rw [if_neg Bool.false_ne_true, List.filter_cons_of_pos (by simp [flagged]), List.map_cons]

theorem Crowding.flags_of_spaced {c : Crowding} {times : List Int} (h : Spaced c.minimumMs times) :
    ∀ flag ∈ c.flags times, flag = false := by
  suffices ∀ afterClose, afterClose = false → ∀ flag ∈ c.flagsFrom afterClose times, flag = false
    from this false rfl
  intro afterClose hfar
  fun_induction flagsFrom c afterClose times with
  | case1 => exact List.forall_mem_nil _
  | case2 => simpa using hfar
  | case3 afterClose t u rest close ih =>
    obtain ⟨hfirst, hrest⟩ := List.pairwise_cons.mp h
    have hclose : decide close = false := by
      have : t + c.minimumMs ≤ u := hfirst u List.mem_cons_self
      exact decide_eq_false (by omega : ¬u - t < c.minimumMs)
    refine List.forall_mem_cons.mpr ⟨?_, ih hrest hclose⟩
    rw [hfar, Bool.false_or]
    exact hclose

variable [Scalar α]

theorem Report.compare_of_time_lt {r q : Report α ρ} (h : r.time < q.time) :
    r.compare q = .lt := by
  unfold compare
  rw [Std.compare_eq_lt.mpr h]
  rfl

theorem Report.sort_of_increase {reports : List (Report α ρ)}
    (h : (times reports).Pairwise (· < ·)) : sort reports = reports := by
  refine List.mergeSort_of_pairwise ((List.pairwise_map.mp h).imp ?_)
  intro r q hlt
  rw [compare_of_time_lt hlt]
  rfl

theorem Track.ofReports?_eq_some_iff {reports : List (Report α ρ)} {track : Track α ρ} :
    ofReports? reports = some track ↔ track.reports = Report.sort reports := by
  obtain ⟨sorted, hne⟩ := track
  unfold ofReports?
  dsimp only
  constructor
  · intro h
    obtain ⟨_, hsort⟩ := Option.dite_none_right_eq_some.mp h
    exact (congrArg Track.reports (Option.some.inj hsort)).symm
  · rintro rfl
    rw [dif_pos hne]

theorem Track.ofReports?_reports (track : Track α ρ)
    (h : (times track.reports).Pairwise (· < ·)) : ofReports? track.reports = some track :=
  ofReports?_eq_some_iff.mpr (Report.sort_of_increase h).symm

theorem Track.mem_of_ofReports? {reports : List (Report α ρ)} {track : Track α ρ}
    (h : ofReports? reports = some track) {r : Report α ρ} (hr : r ∈ track.reports) :
    r ∈ reports := by
  rw [ofReports?_eq_some_iff.mp h, Report.sort, List.mem_mergeSort] at hr
  exact hr

end AirTraffic
