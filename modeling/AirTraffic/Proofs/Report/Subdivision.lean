import AirTraffic.Proofs.Geo.ShorterArc
import AirTraffic.Proofs.Report.Between

/-!
# Blending in two parts

A blend of two reports lies on the way between them: from the first report to the blend, and from
there to the second, the blends are those of the whole way. This holds of the values that change in
proportion to time, of those that only one report knows, and of the course, whether it turns along
the shorter arc or is that of the way itself.
-/
namespace AirTraffic

open Scalar

variable {α ρ : Type}

/-- All but identity and payload. -/
structure Report.SameMotion (r q : Report α ρ) : Prop where
  time : r.time = q.time
  position : r.position = q.position
  altitude : r.altitude = q.altitude
  speed : r.speed = q.speed
  course : r.course = q.course
  curvature : r.curvature = q.curvature
  alongTrackDistance : r.alongTrackDistance = q.alongTrackDistance

theorem Report.SameMotion.refl (r : Report α ρ) : r.SameMotion r :=
  ⟨rfl, rfl, rfl, rfl, rfl, rfl, rfl⟩

variable [ExactScalar α]

theorem lerp_self (a f : α) : lerp a a f = a := by
  unfold lerp
  ring

theorem lerp_first (a b f g : α) : lerp a (lerp a b g) f = lerp a b (f * g) := by
  unfold lerp
  ring

theorem lerp_rest (a b f g : α) : lerp (lerp a b g) b f = lerp a b (g + f * (1 - g)) := by
  unfold lerp
  ring

theorem abs_lerp_sub_le (a b : α) {g : α} (hg : 0 ≤ g ∧ g ≤ 1) : |lerp a b g - a| ≤ |b - a| := by
  have part : lerp a b g - a = g * (b - a) := by
    unfold lerp
    ring
  rw [part, abs_mul, abs_of_nonneg hg.1]
  exact mul_le_of_le_one_left (abs_nonneg _) hg.2

theorem abs_sub_lerp_le (a b : α) {g : α} (hg : 0 ≤ g ∧ g ≤ 1) : |b - lerp a b g| ≤ |b - a| := by
  have part : b - lerp a b g = (1 - g) * (b - a) := by
    unfold lerp
    ring
  rw [part, abs_mul, abs_of_nonneg (sub_nonneg.mpr hg.2)]
  exact mul_le_of_le_one_left (abs_nonneg _) (sub_le_self 1 hg.1)

namespace Report

theorem blendValue_first (a b : Option α) (f g : α) :
    blendValue a (blendValue a b a b g) a (blendValue a b a b g) f =
      blendValue a b a b (f * g) := by
  cases a with
  | none =>
    cases b with
    | none => rfl
    | some y => rfl
  | some x =>
    cases b with
    | none => exact congrArg some (lerp_self x f)
    | some y => exact congrArg some (lerp_first x y f g)

theorem blendValue_rest (a b : Option α) (f g : α) :
    blendValue (blendValue a b a b g) b (blendValue a b a b g) b f =
      blendValue a b a b (g + f * (1 - g)) := by
  cases a with
  | none =>
    cases b with
    | none => rfl
    | some y => exact congrArg some (lerp_self y f)
  | some x =>
    cases b with
    | none => rfl
    | some y => exact congrArg some (lerp_rest x y f g)

end Report

namespace Angle

variable [ExactMultiples α] {a b f g : α}

theorem compass_compass (a : α) : compass (compass a) = compass a :=
  compass_eq_of_modEq (compass_modEq a)

theorem turn_eq_zero (same : a ≡ b [PMOD 360]) : turn a b = 0 := by
  refine turn_eq_of_modEq ?_ (by norm_num) (by norm_num)
  have gone := same.symm.sub_right b
  rwa [sub_self] at gone

theorem compass_first (hg : 0 ≤ g ∧ g ≤ 1) (a b f : α) :
    compass (a + f * turn (compass (a + g * turn b a)) a) = compass (a + f * g * turn b a) := by
  rw [turn_partWay hg, mul_assoc]

theorem compass_rest (hg : 0 ≤ g ∧ g ≤ 1) (a b f : α) :
    compass (compass (a + g * turn b a) + f * turn b (compass (a + g * turn b a))) =
      compass (a + (g + f * (1 - g)) * turn b a) := by
  rw [turn_rest hg]
  have reached := (compass_modEq (a + g * turn b a)).add_right (f * ((1 - g) * turn b a))
  have sum : a + g * turn b a + f * ((1 - g) * turn b a) = a + (g + f * (1 - g)) * turn b a := by
    ring
  rw [sum] at reached
  exact compass_eq_of_modEq reached

end Angle

namespace Report

section Share

variable {p m q : Report α ρ} {time : Int}

theorem passed_first (before : p.time < m.time) (whole : p.time < q.time) :
    (passed p m time * passed p q m.time : α) = passed p q time := by
  have first : ((m.time - p.time : Int) : α) ≠ 0 := Int.cast_ne_zero.mpr (by omega)
  have all : ((q.time - p.time : Int) : α) ≠ 0 := Int.cast_ne_zero.mpr (by omega)
  unfold passed
  simp only [ExactScalar.ofInt_eq]
  field_simp

theorem passed_rest (after : m.time < q.time) (whole : p.time < q.time) :
    (passed p q m.time + passed m q time * (1 - passed p q m.time) : α) = passed p q time := by
  have rest : ((q.time - m.time : Int) : α) ≠ 0 := Int.cast_ne_zero.mpr (by omega)
  have all : ((q.time - p.time : Int) : α) ≠ 0 := Int.cast_ne_zero.mpr (by omega)
  unfold passed
  simp only [ExactScalar.ofInt_eq]
  push_cast at rest all ⊢
  field_simp
  ring

end Share

variable [Geodesy α] {p q : Report α ρ} {t₀ time : Int} {a b f : α}

theorem blendCourse_of_both (hp : p.course = some a) (hq : q.course = some b) :
    blendCourse p q p q f = some (Angle.compass (a + f * Angle.turn b a)) := by
  simp only [blendCourse, hp, hq]

theorem blendCourse_of_earlier (hp : p.course = some a) (hq : q.course = none) :
    blendCourse p q p q f = some a := by
  simp only [blendCourse, hp, hq]
  rfl

theorem blendCourse_of_later (hp : p.course = none) (hq : q.course = some b) :
    blendCourse p q p q f = some b := by
  simp only [blendCourse, hp, hq]
  rfl

theorem blendCourse_of_standing (hp : p.course = none) (hq : q.course = none)
    (standing : p.position = q.position) : blendCourse p q p q f = none := by
  simp only [blendCourse, hp, hq, Position.same_iff.mpr standing]
  rfl

theorem blendCourse_of_way (hp : p.course = none) (hq : q.course = none)
    (moving : p.position ≠ q.position) : blendCourse p q p q f = some (p.courseTo q) := by
  simp only [blendCourse, hp, hq, if_neg (mt Position.same_iff.mp moving)]
  rfl

theorem position_blended_of_standing (standing : p.position = q.position) :
    (p.blended q t₀).position = q.position := by
  simp only [blended, standing, lerp_self]

theorem Near.parts (near : p.Near q) (before : p.time < t₀) (after : t₀ < q.time) :
    p.Near (p.blended q t₀) ∧ (p.blended q t₀).Near q := by
  have hg := passed_mem (α := α) before after
  obtain ⟨latitudes, longitudes⟩ := near
  simp only [ExactScalar.abs_eq] at latitudes longitudes
  constructor
  · constructor
    · exact (ExactScalar.abs_eq _).trans_le ((abs_lerp_sub_le _ _ hg).trans latitudes)
    · exact (ExactScalar.abs_eq _).trans_le ((abs_lerp_sub_le _ _ hg).trans longitudes)
  · constructor
    · exact (ExactScalar.abs_eq _).trans_le ((abs_sub_lerp_le _ _ hg).trans latitudes)
    · exact (ExactScalar.abs_eq _).trans_le ((abs_sub_lerp_le _ _ hg).trans longitudes)

variable [ExactMultiples α]

theorem course_first (hg : 0 ≤ (passed p q t₀ : α) ∧ (passed p q t₀ : α) ≤ 1) :
    (blendCourse p (p.blended q t₀) p (p.blended q t₀) f).map Angle.compass =
      (blendCourse p q p q (f * passed p q t₀)).map Angle.compass := by
  have hm : (p.blended q t₀).course = (blendCourse p q p q (passed p q t₀)).map Angle.compass := rfl
  cases hp : p.course with
  | some a =>
    cases hq : q.course with
    | some b =>
      rw [blendCourse_of_both hp hq, Option.map_some, Angle.compass_compass] at hm
      rw [blendCourse_of_both hp hm, blendCourse_of_both hp hq, Angle.compass_first hg]
    | none =>
      rw [blendCourse_of_earlier hp hq, Option.map_some] at hm
      rw [blendCourse_of_both hp hm, blendCourse_of_earlier hp hq,
        Angle.turn_eq_zero (Angle.compass_modEq a), mul_zero, add_zero, Option.map_some,
        Option.map_some, Angle.compass_compass]
  | none =>
    cases hq : q.course with
    | some b =>
      rw [blendCourse_of_later hp hq, Option.map_some] at hm
      rw [blendCourse_of_later hp hm, blendCourse_of_later hp hq, Option.map_some, Option.map_some,
        Angle.compass_compass]
    | none =>
      by_cases standing : p.position = q.position
      · have arrived : p.position = (p.blended q t₀).position :=
          standing.trans (position_blended_of_standing standing).symm
        rw [blendCourse_of_standing hp hq standing, Option.map_none] at hm
        rw [blendCourse_of_standing hp hm arrived, blendCourse_of_standing hp hq standing]
      · rw [blendCourse_of_way hp hq standing, Option.map_some] at hm
        rw [blendCourse_of_later hp hm, blendCourse_of_way hp hq standing, Option.map_some,
          Option.map_some, Angle.compass_compass]

theorem course_rest (hg : 0 ≤ (passed p q t₀ : α) ∧ (passed p q t₀ : α) ≤ 1) :
    (blendCourse (p.blended q t₀) q (p.blended q t₀) q f).map Angle.compass =
      (blendCourse p q p q (passed p q t₀ + f * (1 - passed p q t₀))).map Angle.compass := by
  have hm : (p.blended q t₀).course = (blendCourse p q p q (passed p q t₀)).map Angle.compass := rfl
  cases hp : p.course with
  | some a =>
    cases hq : q.course with
    | some b =>
      rw [blendCourse_of_both hp hq, Option.map_some, Angle.compass_compass] at hm
      rw [blendCourse_of_both hm hq, blendCourse_of_both hp hq, Angle.compass_rest hg]
    | none =>
      rw [blendCourse_of_earlier hp hq, Option.map_some] at hm
      rw [blendCourse_of_earlier hm hq, blendCourse_of_earlier hp hq, Option.map_some,
        Option.map_some, Angle.compass_compass]
  | none =>
    cases hq : q.course with
    | some b =>
      rw [blendCourse_of_later hp hq, Option.map_some] at hm
      rw [blendCourse_of_both hm hq, blendCourse_of_later hp hq,
        Angle.turn_eq_zero (Angle.compass_modEq b).symm, mul_zero, add_zero, Option.map_some,
        Option.map_some, Angle.compass_compass, Angle.compass_compass]
    | none =>
      by_cases standing : p.position = q.position
      · have arrived : (p.blended q t₀).position = q.position :=
          position_blended_of_standing standing
        rw [blendCourse_of_standing hp hq standing, Option.map_none] at hm
        rw [blendCourse_of_standing hm hq arrived, blendCourse_of_standing hp hq standing]
      · rw [blendCourse_of_way hp hq standing, Option.map_some] at hm
        rw [blendCourse_of_earlier hm hq, blendCourse_of_way hp hq standing, Option.map_some,
          Option.map_some, Angle.compass_compass]

variable (before : p.time < t₀) (after : t₀ < q.time)

include before after

theorem blended_first (time : Int) :
    (p.blended (p.blended q t₀) time).SameMotion (p.blended q time) := by
  have hg := passed_mem (α := α) before after
  have share : (passed p (p.blended q t₀) time * passed p q t₀ : α) = passed p q time :=
    passed_first (m := p.blended q t₀) before (before.trans after)
  have value (a b : Option α) :=
    blendValue_first a b (passed p (p.blended q t₀) time) (passed p q t₀)
  have course := course_first (f := passed p (p.blended q t₀) time) hg
  rw [share] at course
  simp only [share] at value
  constructor
  · rfl
  · simp only [blended, ← share, ← lerp_first]
  · exact value _ _
  · exact value _ _
  · exact course
  · exact value _ _
  · exact value _ _

theorem blended_rest (time : Int) :
    ((p.blended q t₀).blended q time).SameMotion (p.blended q time) := by
  have hg := passed_mem (α := α) before after
  have share : (passed p q t₀ + passed (p.blended q t₀) q time * (1 - passed p q t₀) : α) =
      passed p q time := passed_rest (m := p.blended q t₀) after (before.trans after)
  have value (a b : Option α) :=
    blendValue_rest a b (passed (p.blended q t₀) q time) (passed p q t₀)
  have course := course_rest (f := passed (p.blended q t₀) q time) hg
  rw [share] at course
  simp only [share] at value
  constructor
  · rfl
  · simp only [blended, ← share, ← lerp_rest]
  · exact value _ _
  · exact value _ _
  · exact course
  · exact value _ _
  · exact value _ _

end Report
end AirTraffic
