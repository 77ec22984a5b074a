import AirTraffic.Proofs.Basic
import AirTraffic.Proofs.Report.Subdivision
import AirTraffic.Proofs.Track.Reading

/-!
# The course between two reports

Between two reports that both know their course the aircraft turns along the shorter arc, evenly in
time: it has come as far from the first course as the time has passed, and as far from the second
one as the time is left.
-/
namespace AirTraffic

open Scalar

variable {α ρ : Type} [ExactScalar α]

namespace Angle

variable [ExactMultiples α]

/-- A course `c` a fraction `f` of the shorter way from `a` to `b`. -/
structure OnShorterArc (a b f c : α) : Prop where
  onCompass : 0 ≤ c ∧ c < 360
  passed : turn c a = f * turn b a
  within : |turn c a| ≤ 180 * f
  remaining : turn b c = (1 - f) * turn b a

theorem abs_turn_le (a b : α) : |turn a b| ≤ 180 := by
  obtain ⟨above, below⟩ := turn_mem a b
  exact abs_le.mpr ⟨above.le, below⟩

theorem onShorterArc_partWay {f : α} (hf : 0 ≤ f ∧ f ≤ 1) (a b : α) :
    OnShorterArc a b f (compass (a + f * turn b a)) := by
  have part := turn_partWay hf a b
  constructor
  · exact ExactRemainder.compass_mem _
  · exact part
  · rw [part, abs_mul, abs_of_nonneg hf.1, mul_comm]
    exact mul_le_mul_of_nonneg_right (abs_turn_le b a) hf.1
  · exact turn_rest hf a b

end Angle

theorem ReportDraft.course_of_build {d : ReportDraft α ρ} {r : Report α ρ} {time : Int}
    {p : Position α} (htime : d.time = some time) (hposition : d.position = some p)
    (h : d.build = .ok r) : r.course = d.course.map Angle.compass := by
  rw [build_eq htime hposition] at h
  cases checked : checkPosition p with
  | error e =>
    rw [checked] at h
    cases h
  | ok position =>
    rw [checked] at h
    obtain rfl := Except.ok.inj h
    rfl

namespace Report

section Course

variable [Geodesy α] {p q r : Report α ρ} {time : Int}

theorem course_blendDraft (f : α) : (blendDraft p q time f).course = blendCourse p q p q f := by
  unfold blendDraft
  dsimp only
  split
  · rfl
  · exact blendCourse_comm p q f

theorem build_of_blend (before : p.time < time) (after : time < q.time)
    (h : p.blend q time = .ok r) : (blendDraft p q time (passed p q time)).build = .ok r := by
  unfold blend at h
  rw [if_neg (by omega), if_neg (by omega), if_neg (by omega), if_neg (by omega)] at h
  dsimp only at h
  split at h
  case isTrue => cases h
  case isFalse => exact ok_of_mapError h

theorem course_of_blend (before : p.time < time) (after : time < q.time)
    (h : p.blend q time = .ok r) :
    r.course = (blendCourse p q p q (passed p q time)).map Angle.compass := by
  have built := ReportDraft.course_of_build rfl rfl (build_of_blend before after h)
  rwa [course_blendDraft] at built

variable [ExactMultiples α]

/-- The course between two courses is on the shorter arc, as far along as the time has passed. A
turn is the one number of degrees of a difference of courses that is at most a half circle either
way, and a course the one on the compass. -/
theorem course_on_shorter_arc {a b : α} (hp : p.course = some a) (hq : q.course = some b)
    (before : p.time < time) (after : time < q.time) :
    (∀ x y : α, (-180 < Angle.turn x y ∧ Angle.turn x y ≤ 180) ∧
      Angle.turn x y ≡ x - y [PMOD 360]) ∧
    (∀ x : α, (0 ≤ Angle.compass x ∧ Angle.compass x < 360) ∧ Angle.compass x ≡ x [PMOD 360]) ∧
    (∀ r, p.blend q time = .ok r →
      ∃ c, r.course = some c ∧ Angle.OnShorterArc a b (passed p q time) c) ∧
    (p.Valid → q.Valid → p.Near q → ∃ r, p.blend q time = .ok r) := by
  refine ⟨fun x y => ⟨Angle.turn_mem x y, Angle.turn_modEq x y⟩,
    fun x => ⟨ExactRemainder.compass_mem x, Angle.compass_modEq x⟩, ?_, ?_⟩
  · intro r h
    refine ⟨Angle.compass (a + passed p q time * Angle.turn b a), ?_,
      Angle.onShorterArc_partWay (passed_mem before after) a b⟩
    rw [course_of_blend before after h, blendCourse_of_both hp hq, Option.map_some,
      Angle.compass_compass]
  · intro valid valid' near
    exact ⟨_, blend_of_near valid valid' near before after⟩

end Course

def northwestward : Report ℚ Unit := Track.equatorAt (0, 0, some 350)

def northeastward : Report ℚ Unit := Track.equatorAt (10000, 1, some 10)

/-- The shorter arc leads through north, which is half way. -/
theorem halfway_through_north : northwestward.course = some 350 ∧ northeastward.course = some 10 ∧
    ∃ r, northwestward.blend northeastward 5000 = .ok r ∧ r.course = some 0 ∧
      Angle.OnShorterArc 350 10 (passed northwestward northeastward 5000) 0 := by
  have valid : ∀ r ∈ [(0, 0, some 350), (10000, 1, some 10)].map Track.equatorAt, r.Valid :=
    Track.equatorAt_valid (by decide +kernel)
  have near : northwestward.Near northeastward := ⟨by decide +kernel, by decide +kernel⟩
  obtain ⟨-, -, turned, blended⟩ := course_on_shorter_arc
    (rfl : northwestward.course = some 350) (rfl : northeastward.course = some 10)
    (by decide : northwestward.time < 5000) (by decide : 5000 < northeastward.time)
  obtain ⟨r, hr⟩ := blended (valid northwestward List.mem_cons_self)
    (valid northeastward (List.mem_cons_of_mem _ List.mem_cons_self)) near
  obtain ⟨c, hc, arc⟩ := turned r hr
  have north : (northwestward.blend northeastward 5000).toOption.bind (·.course) = some 0 := by
    decide +kernel
  have course : r.course = some 0 := by
    rw [hr] at north
    exact north
  obtain rfl := Option.some.inj (hc.symm.trans course)
  exact ⟨rfl, rfl, r, hr, course, arc⟩

end Report

end AirTraffic
