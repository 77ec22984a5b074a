import AirTraffic.Proofs.Geo.Pseudometric
import AirTraffic.Proofs.Report.Between

/-!
# Reading a track

An ordered track of valid reports says nothing of an instant only if the instant is outside its
span, or falls into a gap too wide to blend across. All else that it says is valid: the first report
of that very instant, or what lies between the last report before it and the first one after.
-/
namespace AirTraffic.Track

open Scalar

variable {α ρ : Type}

/-- The last report before an instant and the first one after, if there is none at the instant. -/
structure Neighbours (t : Track α ρ) (time : Int) (p q : Report α ρ) : Prop where
  absent : ∀ r ∈ t.reports, r.time ≠ time
  last : (t.reports.filter (·.time < time)).getLast? = some p
  first : t.reports.find? (time < ·.time) = some q

/-- The instant has neighbours, and they are too far apart. -/
def Gap [Scalar α] (t : Track α ρ) (time : Int) : Prop :=
  ∃ p q, t.Neighbours time p q ∧ ¬p.Near q

variable {t : Track α ρ} {time : Int} {p q p' q' : Report α ρ}

namespace Neighbours

theorem unique (h : t.Neighbours time p q) (h' : t.Neighbours time p' q') : p = p' ∧ q = q' :=
  ⟨Option.some.inj (h.last.symm.trans h'.last), Option.some.inj (h.first.symm.trans h'.first)⟩

theorem earlier_mem (h : t.Neighbours time p q) : p ∈ t.reports :=
  List.mem_of_mem_filter (List.mem_of_getLast? h.last)

theorem later_mem (h : t.Neighbours time p q) : q ∈ t.reports := List.mem_of_find?_eq_some h.first

theorem before (h : t.Neighbours time p q) : p.time < time :=
  of_decide_eq_true (List.mem_filter.mp (List.mem_of_getLast? h.last)).2

theorem after (h : t.Neighbours time p q) : time < q.time := by
  simpa using List.find?_some h.first

theorem inside (h : t.Neighbours time p q) (ordered : t.Ordered) : t.span.contains time := by
  have first := ordered.first_le h.earlier_mem
  have last := ordered.le_last h.later_mem
  have before := h.before
  have after := h.after
  exact ordered.contains_iff.mpr ⟨by omega, by omega⟩

end Neighbours

theorem neighbours_of_split (ordered : t.Ordered) {init rest : List (Report α ρ)}
    (hsplit : t.reports = init ++ p :: q :: rest) (hinit : ∀ r ∈ init, r.time < time)
    (hp : p.time < time) (hq : time < q.time) : t.Neighbours time p q := by
  have later : ∀ r ∈ q :: rest, time < r.time := by
    intro r hr
    have sorted := Report.inOrder_iff.mp ordered
    rw [hsplit] at sorted
    have tail := (List.pairwise_cons.mp (List.pairwise_append.mp sorted).2.1).2
    rcases List.mem_cons.mp hr with rfl | hr
    · exact hq
    · exact Int.lt_of_lt_of_le hq ((List.pairwise_cons.mp tail).1 r hr)
  constructor
  · intro r hr
    rw [hsplit] at hr
    rcases List.mem_append.mp hr with hr | hr
    · exact (hinit r hr).ne
    · rcases List.mem_cons.mp hr with rfl | hr
      · exact hp.ne
      · exact (later r hr).ne'
  · have none : (q :: rest).filter (·.time < time) = [] :=
      List.filter_eq_nil_iff.mpr fun r hr => by simpa using (later r hr).le
    rw [hsplit, List.filter_append, List.filter_cons_of_pos (by simpa using hp), none]
    exact List.getLast?_concat
  · have none : init.find? (time < ·.time) = none :=
      List.find?_eq_none.mpr fun r hr => by simpa using (hinit r hr).le
    rw [hsplit, List.find?_append, none, Option.none_or,
      List.find?_cons_of_neg (by simpa using hp.le), List.find?_cons_of_pos (by simpa using hq)]

section At

variable [Scalar α] [Geodesy α]

theorem reading_cases (ordered : t.Ordered) (inside : t.span.contains time) :
    (∃ r, t.reports.find? (·.time = time) = some r ∧ t.at? time = some r) ∨
      ∃ p q, t.Neighbours time p q ∧ t.at? time = (p.blend q time).toOption := by
  rcases at?_split_cases ordered inside with
    found | ⟨init, p, q, rest, hsplit, hinit, hp, hq, value⟩
  · exact Or.inl found
  · exact Or.inr ⟨p, q, neighbours_of_split ordered hsplit hinit hp hq, value⟩

theorem at?_of_neighbours (ordered : t.Ordered) (h : t.Neighbours time p q) :
    t.at? time = (p.blend q time).toOption := by
  rcases reading_cases ordered (h.inside ordered) with ⟨r, hr, -⟩ | ⟨p', q', h', value⟩
  · have same : r.time = time := by simpa using List.find?_some hr
    exact absurd same (h.absent r (List.mem_of_find?_eq_some hr))
  · obtain ⟨rfl, rfl⟩ := h.unique h'
    exact value

end At

variable [ExactScalar α] [Geodesy α]

theorem at?_of_gap (ordered : t.Ordered) (gap : t.Gap time) : t.at? time = none := by
  obtain ⟨p, q, h, far⟩ := gap
  rw [at?_of_neighbours ordered h, Report.blend_of_not_near far h.before h.after]
  rfl

theorem at?_of_near (ordered : t.Ordered) (valid : ∀ r ∈ t.reports, r.Valid)
    (h : t.Neighbours time p q) (near : p.Near q) : t.at? time = some (p.blended q time) := by
  have blends :=
    Report.blend_of_near (valid p h.earlier_mem) (valid q h.later_mem) near h.before h.after
  rw [at?_of_neighbours ordered h, blends]
  rfl

theorem at?_eq_none_iff (ordered : t.Ordered) (valid : ∀ r ∈ t.reports, r.Valid) :
    t.at? time = none ↔ ¬t.span.contains time ∨ t.Gap time := by
  constructor
  · intro unread
    by_cases inside : t.span.contains time
    · rcases reading_cases ordered inside with ⟨r, -, value⟩ | ⟨p, q, h, -⟩
      · exact absurd (unread.symm.trans value) (by simp)
      · refine Or.inr ⟨p, q, h, fun near => ?_⟩
        exact absurd (unread.symm.trans (at?_of_near ordered valid h near)) (by simp)
    · exact Or.inl inside
  · rintro (outside | gap)
    · exact at?_of_outside outside
    · exact at?_of_gap ordered gap

variable [ExactRemainder α]

/-- What an ordered track of valid reports says of an instant: when it says nothing, that no blend
of neighbours is ever refused, and of what it says, that it is valid, of that instant, and a report
of the track or between two neighbours in the track. -/
theorem readings_well_formed (ordered : t.Ordered) (valid : ∀ r ∈ t.reports, r.Valid) (time : Int) :
    (t.at? time = none ↔ ¬t.span.contains time ∨ t.Gap time) ∧
    (∀ p q, t.Neighbours time p q →
      (p.blendDraft q time (p.passed q time)).build = .ok (p.blended q time)) ∧
    ∀ r, t.at? time = some r → r.Valid ∧ r.time = time ∧
      (t.reports.find? (·.time = time) = some r ∨
        ∃ p q, t.Neighbours time p q ∧ p.Between q r) := by
  have unread : t.at? time = none ↔ _ := at?_eq_none_iff ordered valid
  refine ⟨unread, ?_, ?_⟩
  · intro p q h
    exact Report.build_blendDraft (valid p h.earlier_mem) (valid q h.later_mem) h.before h.after
  · intro r hr
    have known : ¬(¬t.span.contains time ∨ t.Gap time) := by
      rw [← unread, hr]
      exact Option.some_ne_none r
    obtain ⟨inside, nogap⟩ := not_or.mp known
    rcases reading_cases ordered (not_not.mp inside) with ⟨s, hs, value⟩ | ⟨p, q, h, -⟩
    · obtain rfl := Option.some.inj (hr.symm.trans value)
      have same : r.time = time := by simpa using List.find?_some hs
      exact ⟨valid r (List.mem_of_find?_eq_some hs), same, Or.inl hs⟩
    · have near : p.Near q := by
        by_contra far
        exact nogap ⟨p, q, h, far⟩
      obtain rfl := Option.some.inj (hr.symm.trans (at?_of_near ordered valid h near))
      have hp := valid p h.earlier_mem
      have hq := valid q h.later_mem
      exact ⟨Report.blended_valid hp hq h.before h.after, rfl,
        Or.inr ⟨p, q, h, Report.blended_between h.before h.after⟩⟩

def equatorAt (p : Int × ℚ × Option ℚ) : Report ℚ Unit where
  time := p.1
  position := ⟨0, p.2.1⟩
  altitude := some 5000
  speed := none
  course := p.2.2
  curvature := none
  alongTrackDistance := none
  trackId := none
  payload := ()

def aboveEquator (p : Int × ℚ) : Report ℚ Unit :=
  { equatorAt (p.1, 0, none) with altitude := some p.2 }

theorem equatorAt_valid {sights : List (Int × ℚ × Option ℚ)}
    (h : ∀ p ∈ sights, (-180 ≤ p.2.1 ∧ p.2.1 ≤ 180) ∧ ∀ c ∈ p.2.2, 0 ≤ c ∧ c < 360) :
    ∀ r ∈ sights.map equatorAt, r.Valid := by
  refine List.forall_mem_map.mpr fun p hp => ?_
  obtain ⟨longitude, course⟩ := h p hp
  exact ⟨.of_angles longitude course, by simp [equatorAt]⟩

/-- Two reports at once, then ten seconds later one on the far side of the antimeridian. -/
def crossing : Track ℚ Unit :=
  ⟨[(0, 170, some 80), (0, 171, none), (10000, 179, none), (20000, -179, none)].map equatorAt,
    by simp⟩

theorem crossing_readings : crossing.Ordered ∧ (∀ r ∈ crossing.reports, r.Valid) ∧
    crossing.at? 15000 = none ∧ crossing.Gap 15000 ∧
    ∃ r, crossing.at? 5000 = some r ∧ r.position.longitude = 175 ∧ r.Valid ∧
      ∃ p q, crossing.Neighbours 5000 p q ∧ p.Between q r := by
  have ordered : crossing.Ordered := by decide
  have valid : ∀ r ∈ crossing.reports, r.Valid := equatorAt_valid (by decide +kernel)
  have gap := readings_well_formed ordered valid 15000
  have known := readings_well_formed ordered valid 5000
  have unread : crossing.at? 15000 = none := Option.not_isSome_iff_eq_none.mp (by decide +kernel)
  have middle : (crossing.at? 5000).map (·.position.longitude) = some 175 := by decide +kernel
  obtain ⟨r, hr, longitude⟩ := Option.map_eq_some_iff.mp middle
  obtain ⟨hvalid, -, found | between⟩ := known.2.2 r hr
  · have missing : crossing.reports.find? (·.time = 5000) = none := rfl
    exact absurd (missing.symm.trans found) (by simp)
  · refine ⟨ordered, valid, unread, ?_, r, hr, longitude, hvalid, between⟩
    exact (gap.1.mp unread).resolve_left (not_not.mpr (by decide))

end AirTraffic.Track
