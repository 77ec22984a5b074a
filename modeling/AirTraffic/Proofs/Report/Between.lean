import Mathlib.Order.Lattice
import AirTraffic.Proofs.Report.Blend

/-!
# What is known between two reports

A blend lies between its two reports in all that both of them know, takes over what one of them
knows, and makes nothing up but a course, which it takes from the way between two positions that
differ. It is as valid as the two.
-/
namespace AirTraffic

open Scalar

variable {α ρ : Type} [ExactScalar α]

/-- Between two values if there are two, and the one value if there is one. -/
structure Carried (a b c : Option α) : Prop where
  isSome_iff : c.isSome ↔ a.isSome ∨ b.isSome
  between : ∀ x ∈ a, ∀ y ∈ b, ∀ z ∈ c, min x y ≤ z ∧ z ≤ max x y
  alone : a = none ∨ b = none → c = a.or b

namespace Report

/-- Strictly between two reports in time, and between them in all else. -/
structure Between (p q r : Report α ρ) : Prop where
  before : p.time < r.time
  after : r.time < q.time
  latitude : min p.position.latitude q.position.latitude ≤ r.position.latitude ∧
    r.position.latitude ≤ max p.position.latitude q.position.latitude
  longitude : min p.position.longitude q.position.longitude ≤ r.position.longitude ∧
    r.position.longitude ≤ max p.position.longitude q.position.longitude
  altitude : Carried p.altitude q.altitude r.altitude
  speed : Carried p.speed q.speed r.speed
  course : r.course.isSome ↔ p.course.isSome ∨ q.course.isSome ∨ p.position ≠ q.position
  curvature : Carried p.curvature q.curvature r.curvature
  alongTrackDistance : Carried p.alongTrackDistance q.alongTrackDistance r.alongTrackDistance
  nearEarlier : r.time - p.time < q.time - r.time → r.trackId = p.trackId ∧ r.payload = p.payload
  nearLater : q.time - r.time ≤ r.time - p.time → r.trackId = q.trackId ∧ r.payload = q.payload

end Report

theorem lerp_between (a b : α) {f : α} (hf : 0 ≤ f ∧ f ≤ 1) :
    min a b ≤ lerp a b f ∧ lerp a b f ≤ max a b :=
  lerp_mem ⟨min_le_left a b, le_max_left a b⟩ ⟨min_le_right a b, le_max_right a b⟩ hf

@[simp] theorem Position.same_iff {p q : Position α} : p.same q ↔ p = q := by
  cases p
  cases q
  simp [Position.same]

namespace Report

theorem blendValue_carried (a b : Option α) {f : α} (hf : 0 ≤ f ∧ f ≤ 1) :
    Carried a b (blendValue a b a b f) := by
  cases a with
  | none =>
    have other : blendValue none b none b f = b := by cases b <;> rfl
    rw [other]
    constructor
    · simp
    · simp
    · simp
  | some x =>
    cases b with
    | none =>
      constructor
      · simp [blendValue]
      · simp
      · simp [blendValue]
    | some y =>
      constructor
      · simp [blendValue]
      · simpa [blendValue] using lerp_between x y hf
      · simp

variable [Geodesy α] {p q : Report α ρ} {time : Int}

theorem blendCourse_isSome_iff (p q : Report α ρ) (f : α) : (blendCourse p q p q f).isSome ↔
    p.course.isSome ∨ q.course.isSome ∨ p.position ≠ q.position := by
  unfold blendCourse
  cases p.course with
  | some a =>
    cases q.course with
    | some b => simp
    | none => simp
  | none =>
    cases q.course with
    | some b => simp
    | none =>
      by_cases same : p.position = q.position
      · simp [same]
      · simp [same]

theorem blended_between (before : p.time < time) (after : time < q.time) :
    p.Between q (p.blended q time) := by
  have part := passed_mem (α := α) before after
  constructor
  · exact before
  · exact after
  · exact lerp_between _ _ part
  · exact lerp_between _ _ part
  · exact blendValue_carried _ _ part
  · exact blendValue_carried _ _ part
  · exact (Bool.eq_iff_iff.mp Option.isSome_map).trans (blendCourse_isSome_iff p q _)
  · exact blendValue_carried _ _ part
  · exact blendValue_carried _ _ part
  · intro nearer
    simp only [blended] at nearer ⊢
    simp only [if_pos nearer, and_self]
  · intro further
    simp only [blended] at further ⊢
    simp only [if_neg (Int.not_lt.mpr further), and_self]

theorem blended_valid [ExactRemainder α] (hp : p.Valid) (hq : q.Valid) (before : p.time < time)
    (after : time < q.time) : (p.blended q time).Valid :=
  valid_of_build (build_blendDraft hp hq before after)

end Report
end AirTraffic
