import Mathlib.Tactic.Linarith
import AirTraffic.Proofs.Report.Valid
import AirTraffic.Proofs.Track.Order

/-!
# Blending complete reports

Between two valid reports that are not too far apart there is always a blend. It knows altitude,
speed and course if both reports do, and so a track of such reports is known at every instant of its
span.
-/
namespace AirTraffic

open Scalar

variable {α ρ : Type}

/-- All that the questions about two aircraft ask for is there. -/
structure Report.Complete (r : Report α ρ) : Prop where
  altitude : r.altitude.isSome
  speed : r.speed.isSome
  course : r.course.isSome

/-- Close enough to draw a straight line between. -/
structure Report.Near [Scalar α] (p q : Report α ρ) : Prop where
  latitudes : Scalar.abs (q.position.latitude - p.position.latitude) ≤ ofInt 90
  longitudes : Scalar.abs (q.position.longitude - p.position.longitude) ≤ ofInt 180

variable [ExactScalar α]

theorem lerp_mem {lo hi a b f : α} (ha : lo ≤ a ∧ a ≤ hi) (hb : lo ≤ b ∧ b ≤ hi)
    (hf : 0 ≤ f ∧ f ≤ 1) : lo ≤ lerp a b f ∧ lerp a b f ≤ hi := by
  have mix : lerp a b f = (1 - f) * a + f * b := by
    unfold lerp
    ring
  have left := sub_nonneg.mpr hf.2
  rw [mix]
  constructor
  · linarith [mul_le_mul_of_nonneg_left ha.1 left, mul_le_mul_of_nonneg_left hb.1 hf.1]
  · linarith [mul_le_mul_of_nonneg_left ha.2 left, mul_le_mul_of_nonneg_left hb.2 hf.1]

namespace Report

variable [Geodesy α] {p q : Report α ρ} {time : Int}

omit [Geodesy α] in
theorem blendValue_isSome {a b near far : Option α} {fraction : α} (ha : a.isSome) (hb : b.isSome) :
    (blendValue a b near far fraction).isSome := by
  obtain ⟨a, rfl⟩ := Option.isSome_iff_exists.mp ha
  obtain ⟨b, rfl⟩ := Option.isSome_iff_exists.mp hb
  rfl

omit [Geodesy α] in
theorem blendValue_comm (a b : Option α) (fraction : α) :
    blendValue a b b a fraction = blendValue a b a b fraction := by
  cases a with
  | none => cases b <;> rfl
  | some a => cases b <;> rfl

theorem blendCourse_isSome {near far : Report α ρ} {fraction : α} (hp : p.course.isSome)
    (hq : q.course.isSome) : (blendCourse p q near far fraction).isSome := by
  obtain ⟨a, ha⟩ := Option.isSome_iff_exists.mp hp
  obtain ⟨b, hb⟩ := Option.isSome_iff_exists.mp hq
  rw [blendCourse, ha, hb]
  rfl

theorem blendCourse_comm (p q : Report α ρ) (fraction : α) :
    blendCourse p q q p fraction = blendCourse p q p q fraction := by
  unfold blendCourse
  cases p.course with
  | none => cases q.course <;> rfl
  | some a => cases q.course <;> rfl

/-- How much of the time from one report to another has passed. -/
def passed (p q : Report α ρ) (time : Int) : α := ofInt (time - p.time) / ofInt (q.time - p.time)

/-- What lies between two reports, if nothing is wrong with it. Which of the two is nearer matters
for identity and payload alone. -/
def blended (p q : Report α ρ) (time : Int) : Report α ρ :=
  let near := if time - p.time < q.time - time then p else q
  let value (field : Report α ρ → Option α) :=
    blendValue (field p) (field q) (field p) (field q) (passed p q time)
  { time
    position := {
      latitude := lerp p.position.latitude q.position.latitude (passed p q time)
      longitude := lerp p.position.longitude q.position.longitude (passed p q time) }
    altitude := value (·.altitude)
    speed := value (·.speed)
    course := (blendCourse p q p q (passed p q time)).map Angle.compass
    curvature := value (·.curvature)
    alongTrackDistance := value (·.alongTrackDistance)
    trackId := near.trackId
    payload := near.payload }

omit [Geodesy α] in
theorem passed_mem (before : p.time < time) (after : time < q.time) :
    0 ≤ (passed p q time : α) ∧ (passed p q time : α) ≤ 1 := by
  have part : (0 : α) ≤ ((time - p.time : Int) : α) := Int.cast_nonneg (by omega)
  have whole : (0 : α) < ((q.time - p.time : Int) : α) := by
    exact_mod_cast (by omega : 0 < q.time - p.time)
  have less : ((time - p.time : Int) : α) ≤ ((q.time - p.time : Int) : α) :=
    Int.cast_le.mpr (by omega)
  unfold passed
  simp only [ExactScalar.ofInt_eq]
  exact ⟨div_nonneg part whole.le, (div_le_one whole).mpr less⟩

omit [Geodesy α] in
theorem passed_lt_half_iff (before : p.time < time) (after : time < q.time) :
    passed p q time < ofDecimal 5 1 ↔ time - p.time < q.time - time := by
  have whole : (0 : α) < ((q.time - p.time : Int) : α) := by
    exact_mod_cast (by omega : 0 < q.time - p.time)
  have half :
      (5 / 10 ^ 1 : α) * ((q.time - p.time : Int) : α) = ((q.time - p.time : Int) : α) / 2 := by
    ring
  rw [passed, ExactScalar.ofDecimal_eq, ExactScalar.ofInt_eq, ExactScalar.ofInt_eq,
    div_lt_iff₀ whole]
  push_cast
  constructor
  · intro h
    have : ((time - p.time : Int) : α) < ((q.time - time : Int) : α) := by
      push_cast
      linarith
    exact_mod_cast this
  · intro h
    have : ((time - p.time : Int) : α) < ((q.time - time : Int) : α) := by exact_mod_cast h
    push_cast at this
    linarith

theorem build_blendDraft (hp : p.Valid) (hq : q.Valid) (before : p.time < time)
    (after : time < q.time) :
    (blendDraft p q time (passed p q time)).build = .ok (p.blended q time) := by
  have fraction := passed_mem (α := α) before after
  have latitude := (ReportDraft.inRange_iff 90 _).mpr (lerp_mem hp.latitude hq.latitude fraction)
  have longitude :=
    (ReportDraft.inRange_iff 180 _).mpr (lerp_mem hp.longitude hq.longitude fraction)
  have built := ReportDraft.build_eq (d := blendDraft p q time (passed p q time)) rfl rfl
  rw [ReportDraft.checkPosition_eq, latitude, longitude] at built
  rw [built]
  have half := passed_lt_half_iff (α := α) before after
  by_cases nearer : time - p.time < q.time - time
  · simp only [blended, blendDraft, if_pos (half.mpr nearer), if_pos nearer]
    rfl
  · simp only [blended, blendDraft, if_neg (mt half.mp nearer), if_neg nearer, blendValue_comm,
      blendCourse_comm]
    rfl

theorem blend_of_near (hp : p.Valid) (hq : q.Valid) (near : p.Near q) (before : p.time < time)
    (after : time < q.time) : p.blend q time = .ok (p.blended q time) := by
  have drawn : ¬(ofInt 90 < Scalar.abs (q.position.latitude - p.position.latitude) ∨
      ofInt 180 < Scalar.abs (q.position.longitude - p.position.longitude)) :=
    not_or.mpr ⟨not_lt.mpr near.latitudes, not_lt.mpr near.longitudes⟩
  have built := build_blendDraft hp hq before after
  unfold passed at built
  unfold blend
  rw [if_neg (by omega), if_neg (by omega), if_neg (by omega), if_neg (by omega)]
  dsimp only
  rw [if_neg drawn, built]
  rfl

theorem blend_of_not_near (far : ¬p.Near q) (before : p.time < time) (after : time < q.time) :
    p.blend q time = .error
      (.tooFarApart (Scalar.abs (q.position.latitude - p.position.latitude))
        (Scalar.abs (q.position.longitude - p.position.longitude))) := by
  have wide : ofInt 90 < Scalar.abs (q.position.latitude - p.position.latitude) ∨
      ofInt 180 < Scalar.abs (q.position.longitude - p.position.longitude) := by
    by_contra narrow
    rw [not_or, not_lt, not_lt] at narrow
    exact far ⟨narrow.1, narrow.2⟩
  unfold blend
  rw [if_neg (by omega), if_neg (by omega), if_neg (by omega), if_neg (by omega)]
  exact if_pos wide

theorem exists_blend (hp : p.Valid) (hq : q.Valid) (near : p.Near q) (before : p.time < time)
    (after : time < q.time) :
    ∃ r, p.blend q time = .ok r ∧ r.time = time ∧ (p.Complete → q.Complete → r.Complete) := by
  refine ⟨_, blend_of_near hp hq near before after, rfl, fun cp cq => ?_⟩
  constructor
  · exact blendValue_isSome cp.altitude cq.altitude
  · exact blendValue_isSome cp.speed cq.speed
  · exact Option.isSome_map.trans (blendCourse_isSome cp.course cq.course)

end Report

structure Track.Complete (t : Track α ρ) : Prop where
  ordered : t.Ordered
  valid : ∀ r ∈ t.reports, r.Valid
  complete : ∀ r ∈ t.reports, r.Complete
  near : t.reports.IsChain Report.Near

theorem Track.Complete.exists_at [Geodesy α] {t : Track α ρ} (h : t.Complete) {time : Int}
    (inside : t.span.contains time) :
    ∃ r, t.at? time = some r ∧ r.time = time ∧ r.Complete := by
  rcases at?_cases h.ordered inside with ⟨r, hr, htime, hat⟩ | ⟨p, q, hpq, before, after, hat⟩
  · exact ⟨r, hat, htime, h.complete r hr⟩
  · have hp : p ∈ t.reports := hpq.subset List.mem_cons_self
    have hq : q ∈ t.reports := hpq.subset (List.mem_cons_of_mem _ (List.mem_singleton_self q))
    have pair := List.IsChain.infix h.near hpq
    have near : p.Near q := List.isChain_pair.mp pair
    obtain ⟨r, hblend, htime, hcomplete⟩ :=
      Report.exists_blend (h.valid p hp) (h.valid q hq) near before after
    refine ⟨r, ?_, htime, hcomplete (h.complete p hp) (h.complete q hq)⟩
    rw [hat, hblend]
    rfl

end AirTraffic
