import Mathlib.Data.List.Sort
import AirTraffic.Proofs.Report.Subdivision
import AirTraffic.Proofs.Track.Reading

/-!
# A track with one of its own readings in it

What a track says of an instant between two of its reports can be added to it as a report, and
nothing that the track says of any instant changes but for identity and payload. Up to the earlier
of the two reports and from the later on, the track is read as before, and between them the two
parts make up the whole.
-/
namespace AirTraffic

open Scalar

variable {α ρ : Type}

theorem Report.sort_of_perm [Scalar α] {reports sorted : List (Report α ρ)}
    (increase : (times sorted).Pairwise (· < ·)) (perm : reports.Perm sorted) :
    sort reports = sorted := by
  have arranged : (sort reports).Perm sorted := (List.mergeSort_perm reports _).trans perm
  have inOrder : sorted.Pairwise fun r q => r.time ≤ q.time :=
    (List.pairwise_map.mp increase).imp Int.le_of_lt
  refine arranged.eq_of_pairwise ?_ (inOrder_iff.mp (sort_inOrder reports)) inOrder
  intro r q hr hq le ge
  exact eq_of_time_eq increase (arranged.mem_iff.mp hr) hq (Int.le_antisymm le ge)

theorem sameMotion_of_eq {x y : Option (Report α ρ)} (same : x = y) :
    Option.Rel Report.SameMotion x y := by
  subst same
  cases x with
  | none => exact .none
  | some r => exact .some (.refl r)

namespace Track

variable {s t : Track α ρ} {time t₀ : Int} {p q m : Report α ρ}
  {init rest front : List (Report α ρ)}

theorem ordered_of_increase (increase : (Report.times t.reports).Pairwise (· < ·)) : t.Ordered :=
  increase.imp Int.le_of_lt

theorem at?_of_mem [Scalar α] [Geodesy α] (increase : (Report.times t.reports).Pairwise (· < ·))
    {r : Report α ρ} (hr : r ∈ t.reports) : t.at? r.time = some r := by
  have ordered := ordered_of_increase increase
  have inside := ordered.contains_iff.mpr ⟨ordered.first_le hr, ordered.le_last hr⟩
  rcases reading_cases ordered inside with ⟨q, hq, value⟩ | ⟨p, q, around, -⟩
  · have same : q.time = r.time := by simpa using List.find?_some hq
    rwa [Report.eq_of_time_eq increase (List.mem_of_find?_eq_some hq) hr same] at value
  · exact absurd rfl (around.absent r hr)

theorem at?_of_append [Scalar α] [Geodesy α] (hs : s.Ordered) (ht : t.Ordered)
    (happend : s.reports = front ++ t.reports) (hfront : ∀ r ∈ front, r.time < t.first.time)
    (hle : t.first.time ≤ time) : s.at? time = t.at? time := by
  have last : s.last = t.last := by
    unfold Track.last
    simp only [happend]
    exact List.getLast_append_of_ne_nil _ t.reports_ne_nil
  have span : s.span.contains time = t.span.contains time := by
    have begun : s.first.time ≤ t.first.time := by
      refine hs.first_le ?_
      rw [happend]
      exact List.mem_append_right front (List.head_mem t.reports_ne_nil)
    rw [Bool.eq_iff_iff, hs.contains_iff, ht.contains_iff, last]
    omega
  by_cases inside : t.span.contains time
  · obtain ⟨before, q, rest, hsplit, hbefore, hq⟩ :=
      exists_split (List.getLast_mem _) (ht.contains_iff.mp inside).2
    have longer : s.reports = (front ++ before) ++ q :: rest := by
      rw [happend, hsplit, List.append_assoc]
    have earlier : ∀ r ∈ front ++ before, r.time < time :=
      List.forall_mem_append.mpr ⟨fun r hr => Int.lt_of_lt_of_le (hfront r hr) hle, hbefore⟩
    rw [at?_of_split (span.trans inside) longer earlier hq, at?_of_split inside hsplit hbefore hq]
    rcases before.eq_nil_or_concat' with rfl | ⟨init, p, rfl⟩
    · have first : t.first = q := by
        unfold Track.first
        simp only [hsplit]
        rfl
      have same : q.time = time := by
        rw [first] at hle
        omega
      rw [List.append_nil]
      cases front.getLast? with
      | none => rfl
      | some p => exact if_pos same
    · rw [← List.append_assoc, List.getLast?_concat, List.getLast?_concat]
  · simp only [at?, span, inside, Bool.not_false, if_true]

theorem earlier_of_increase (increase : (Report.times (front ++ q :: rest)).Pairwise (· < ·)) :
    ∀ r ∈ front, r.time < q.time :=
  fun r hr => (List.pairwise_append.mp (List.pairwise_map.mp increase)).2.2 r hr q
    List.mem_cons_self

theorem increase_of_insert (increase : (Report.times (init ++ p :: q :: rest)).Pairwise (· < ·))
    (before : p.time < m.time) (after : m.time < q.time) :
    (Report.times (init ++ p :: m :: q :: rest)).Pairwise (· < ·) := by
  unfold Report.times at increase ⊢
  rw [List.pairwise_map] at increase ⊢
  simp only [List.pairwise_append, List.pairwise_cons, List.forall_mem_cons] at increase ⊢
  grind

section Insert

variable (ht : (Report.times t.reports).Pairwise (· < ·))
  (hs : (Report.times s.reports).Pairwise (· < ·)) (hsplit : t.reports = init ++ p :: q :: rest)
  (hinsert : s.reports = init ++ p :: m :: q :: rest)

include ht hs hsplit hinsert

theorem at?_of_insert_of_le [Scalar α] [Geodesy α] (hle : time ≤ p.time) :
    s.at? time = t.at? time := by
  let past : Track α ρ := ⟨init ++ [p], by simp⟩
  have inT : past.reports <+: t.reports := ⟨q :: rest, by simp [past, hsplit]⟩
  have inS : past.reports <+: s.reports := ⟨m :: q :: rest, by simp [past, hinsert]⟩
  have ordered := ordered_of_increase (t := past) (ht.sublist (inT.sublist.map _))
  have last : p ∈ past.reports := List.mem_append_right init (List.mem_singleton_self p)
  exact (at?_of_isPrefix (ordered_of_increase hs) ordered inS last hle).trans
    (at?_of_isPrefix (ordered_of_increase ht) ordered inT last hle).symm

theorem at?_of_insert_of_ge [Scalar α] [Geodesy α] (hle : q.time ≤ time) :
    s.at? time = t.at? time := by
  let future : Track α ρ := ⟨q :: rest, by simp⟩
  have inT : t.reports = (init ++ [p]) ++ future.reports := by simp [future, hsplit]
  have inS : s.reports = (init ++ [p, m]) ++ future.reports := by simp [future, hinsert]
  have ordered : future.Ordered := by
    have ending : future.reports <:+ t.reports := ⟨init ++ [p], inT.symm⟩
    exact ordered_of_increase (ht.sublist (ending.sublist.map _))
  have earlierT := earlier_of_increase (inT ▸ ht)
  have earlierS := earlier_of_increase (inS ▸ hs)
  exact (at?_of_append (ordered_of_increase hs) ordered inS earlierS hle).trans
    (at?_of_append (ordered_of_increase ht) ordered inT earlierT hle).symm

end Insert

variable [ExactScalar α] [ExactMultiples α] [Geodesy α]

theorem at?_between (hs : (Report.times s.reports).Pairwise (· < ·))
    (valid : ∀ r ∈ s.reports, r.Valid) (near : p.Near q)
    (hinit : ∀ r ∈ init, r.time < p.time) (before : p.time < t₀) (after : t₀ < q.time)
    (hinsert : s.reports = init ++ p :: p.blended q t₀ :: q :: rest) (hp : p.time < time)
    (hq : time < q.time) : ∃ r, s.at? time = some r ∧ r.SameMotion (p.blended q time) := by
  have ordered := ordered_of_increase hs
  obtain ⟨first, second⟩ := near.parts before after
  have split : s.reports = (init ++ [p]) ++ p.blended q t₀ :: q :: rest := by simp [hinsert]
  rcases Int.lt_trichotomy time t₀ with early | rfl | late
  · have around := neighbours_of_split ordered hinsert (fun r hr => (hinit r hr).trans hp) hp early
    exact ⟨_, at?_of_near ordered valid around first, Report.blended_first before after time⟩
  · exact ⟨_, at?_of_mem (r := p.blended q time) hs (by simp [hinsert]), .refl _⟩
  · have earlier : ∀ r ∈ init ++ [p], r.time < time :=
      List.forall_mem_append.mpr ⟨fun r hr => (hinit r hr).trans hp, by simpa using hp⟩
    have around := neighbours_of_split ordered split earlier late hq
    exact ⟨_, at?_of_near ordered valid around second, Report.blended_rest before after time⟩

theorem refined_readings (increase : (Report.times t.reports).Pairwise (· < ·))
    (valid : ∀ r ∈ t.reports, r.Valid) (hsplit : t.reports = init ++ p :: q :: rest)
    (near : p.Near q) (before : p.time < t₀) (after : t₀ < q.time)
    (hinsert : s.reports = init ++ p :: p.blended q t₀ :: q :: rest) (time : Int) :
    Option.Rel Report.SameMotion (s.at? time) (t.at? time) := by
  have increaseS : (Report.times s.reports).Pairwise (· < ·) := by
    rw [hsplit] at increase
    rw [hinsert]
    exact increase_of_insert increase before after
  by_cases early : time ≤ p.time
  · exact sameMotion_of_eq (at?_of_insert_of_le increase increaseS hsplit hinsert early)
  by_cases late : q.time ≤ time
  · exact sameMotion_of_eq (at?_of_insert_of_ge increase increaseS hsplit hinsert late)
  have ordered := ordered_of_increase increase
  have hinit : ∀ r ∈ init, r.time < p.time := earlier_of_increase (hsplit ▸ increase)
  have hp : p.Valid := valid p (by simp [hsplit])
  have hq : q.Valid := valid q (by simp [hsplit])
  have middle : (p.blended q t₀).Valid := Report.blended_valid hp hq before after
  have validS : ∀ r ∈ s.reports, r.Valid := by
    rw [hsplit] at valid
    rw [hinsert]
    grind
  have whole : t.at? time = some (p.blended q time) := by
    refine at?_of_near ordered valid (neighbours_of_split ordered hsplit ?_ (by omega) (by omega))
      near
    intro r hr
    have := hinit r hr
    omega
  obtain ⟨r, hr, same⟩ := at?_between increaseS validS near hinit before after
    hinsert (Int.not_le.mp early) (Int.not_le.mp late)
  rw [whole, hr]
  exact .some same

/-- A track of valid reports at increasing times, with what it says of one more instant added to it
in any place, says the same as before of every instant. -/
theorem reading_added_changes_nothing (increase : (Report.times t.reports).Pairwise (· < ·))
    (valid : ∀ r ∈ t.reports, r.Valid) (absent : ∀ r ∈ t.reports, r.time ≠ t₀)
    (known : t.at? t₀ = some m) {reports : List (Report α ρ)}
    (added : reports.Perm (m :: t.reports)) :
    ∃ s, Track.ofReports reports = .ok s ∧
      ∀ time, Option.Rel Report.SameMotion (s.at? time) (t.at? time) := by
  have ordered := ordered_of_increase increase
  have inside : t.span.contains t₀ := by
    by_contra outside
    rw [at?_of_outside outside] at known
    cases known
  rcases at?_split_cases ordered inside with
    ⟨r, hr, -⟩ | ⟨init, p, q, rest, hsplit, -, before, after, hat⟩
  · have same : r.time = t₀ := by simpa using List.find?_some hr
    exact absurd same (absent r (List.mem_of_find?_eq_some hr))
  · have near : p.Near q := by
      by_contra far
      rw [hat, Report.blend_of_not_near far before after] at known
      cases known
    have hp : p.Valid := valid p (by simp [hsplit])
    have hq : q.Valid := valid q (by simp [hsplit])
    rw [hat, Report.blend_of_near hp hq near before after] at known
    obtain rfl : p.blended q t₀ = m := Option.some.inj known
    let s : Track α ρ := ⟨init ++ p :: p.blended q t₀ :: q :: rest, by simp⟩
    have increaseS : (Report.times s.reports).Pairwise (· < ·) :=
      increase_of_insert (hsplit ▸ increase) before after
    have arranged : reports.Perm s.reports := by
      have moved : (init ++ [p] ++ p.blended q t₀ :: q :: rest).Perm
        (p.blended q t₀ :: (init ++ [p] ++ q :: rest)) := List.perm_middle
      simp only [List.append_assoc, List.singleton_append, ← hsplit] at moved
      exact added.trans moved.symm
    have made : ofReports? reports = some s :=
      ofReports?_eq_some_iff.mpr (Report.sort_of_perm increaseS arranged).symm
    refine ⟨s, ?_, refined_readings increase valid hsplit near before after rfl⟩
    rw [ofReports, made]

def turning : Track ℚ Unit :=
  ⟨[(0, 170, some 350), (10000, 171, some 20), (20000, 172, none)].map equatorAt, by simp⟩

/-- Twelve of the thirty degrees of a turn after four of the ten seconds. -/
theorem turning_reading_added : ∃ m s, turning.at? 4000 = some m ∧ m.course = some 2 ∧
    Track.ofReports (m :: turning.reports) = .ok s ∧
    ∀ time, Option.Rel Report.SameMotion (s.at? time) (turning.at? time) := by
  have course : (turning.at? 4000).bind (·.course) = some 2 := by decide +kernel
  obtain ⟨m, known, hm⟩ := Option.bind_eq_some_iff.mp course
  obtain ⟨s, made, same⟩ := reading_added_changes_nothing (by decide)
    (equatorAt_valid (by decide +kernel)) (by decide) known (List.Perm.refl _)
  exact ⟨m, s, known, hm, made, same⟩

end Track
end AirTraffic
