import Mathlib.Data.List.ReduceOption
import AirTraffic.Proofs.Scalar.Remainder
import AirTraffic.Report

/-!
# Valid reports

A report is valid if its numbers are finite and its angles in range. Just the valid reports are made
from a draft, and reopened as one they come out as they were.
-/
namespace AirTraffic

open Scalar

variable {α ρ : Type}

section Scalar

variable [Scalar α]

namespace Report

def numbers (r : Report α ρ) : List α :=
  r.position.latitude :: r.position.longitude ::
    [r.altitude, r.speed, r.course, r.curvature, r.alongTrackDistance].reduceOption

/-- All that a valid report is, but for the range of its latitude. -/
structure NearlyValid (r : Report α ρ) : Prop where
  finite : ∀ x ∈ r.numbers, isFinite x
  longitude : ofInt (-180) ≤ r.position.longitude ∧ r.position.longitude ≤ ofInt 180
  course : ∀ c ∈ r.course, zero ≤ c ∧ c < ofInt 360

structure Valid (r : Report α ρ) : Prop extends r.NearlyValid where
  latitude : ofInt (-90) ≤ r.position.latitude ∧ r.position.latitude ≤ ofInt 90

end Report

end Scalar

variable [ExactScalar α]

namespace ReportDraft

theorem finite_eq (field : ReportField) (x : α) : finite field x = .ok x :=
  if_pos (ExactScalar.isFinite_eq x)

theorem finite?_eq (field : ReportField) (x : Option α) : finite? field x = .ok x := by
  cases x with
  | none => rfl
  | some x => rw [finite?, finite_eq, Except.map_ok]

theorem inRange_iff (n : Int) (x : α) :
    inRange (ofInt n) x = true ↔ ofInt (-n) ≤ x ∧ x ≤ ofInt n := by
  simp [inRange]

theorem checkPosition_eq (p : Position α) : checkPosition p =
    if !inRange (ofInt 90) p.latitude then .error (.latitudeOutOfRange p.latitude)
    else if !inRange (ofInt 180) p.longitude then .error (.longitudeOutOfRange p.longitude)
    else .ok p := by
  unfold checkPosition
  rw [finite_eq, finite_eq]
  rfl

theorem build_eq {d : ReportDraft α ρ} {time : Int} {p : Position α} (htime : d.time = some time)
    (hposition : d.position = some p) : d.build = (checkPosition p).map fun p =>
      { time, position := p, altitude := d.altitude, speed := d.speed
        course := d.course.map Angle.compass, curvature := d.curvature
        alongTrackDistance := d.alongTrackDistance, trackId := d.trackId,
        payload := d.payload } := by
  unfold build
  simp only [htime, hposition, required, finite?_eq]
  rfl

end ReportDraft

namespace Report

variable {r : Report α ρ}

theorem NearlyValid.of_angles
    (hlongitude : -180 ≤ r.position.longitude ∧ r.position.longitude ≤ 180)
    (hcourse : ∀ c ∈ r.course, 0 ≤ c ∧ c < 360) : r.NearlyValid := by
  constructor
  · exact fun x _ => ExactScalar.isFinite_eq x
  · simpa using hlongitude
  · simpa using hcourse

variable [ExactRemainder α]

theorem NearlyValid.rebuild (h : r.NearlyValid) : r.draft.build =
    if ReportDraft.inRange (ofInt 90) r.position.latitude then .ok r
    else .error (.latitudeOutOfRange r.position.latitude) := by
  have onCompass : r.course.map Angle.compass = r.course := by
    refine (Option.map_congr ?_).trans Option.map_id'
    intro c hc
    obtain ⟨above, below⟩ := h.course c hc
    exact ExactRemainder.compass_of_mem (by simpa using above) (by simpa using below)
  have inside := (ReportDraft.inRange_iff 180 r.position.longitude).mpr h.longitude
  rw [ReportDraft.build_eq rfl rfl, ReportDraft.checkPosition_eq, inside]
  simp only [draft, onCompass]
  cases ReportDraft.inRange (ofInt 90) r.position.latitude <;> rfl

theorem valid_of_build {d : ReportDraft α ρ} (h : d.build = .ok r) : r.Valid := by
  obtain ⟨time, htime⟩ : ∃ time, d.time = some time := by
    cases htime : d.time with
    | none =>
      rw [ReportDraft.build, htime] at h
      cases h
    | some time => exact ⟨time, rfl⟩
  obtain ⟨p, hposition⟩ : ∃ p, d.position = some p := by
    cases hposition : d.position with
    | none =>
      rw [ReportDraft.build, htime, hposition] at h
      cases h
    | some p => exact ⟨p, rfl⟩
  rw [ReportDraft.build_eq htime hposition, ReportDraft.checkPosition_eq] at h
  split at h
  case isTrue => cases h
  case isFalse hlatitude =>
    split at h
    case isTrue => cases h
    case isFalse hlongitude =>
      obtain rfl := Except.ok.inj h
      rw [Bool.not_eq_true, Bool.not_eq_false', ReportDraft.inRange_iff] at hlatitude hlongitude
      refine ⟨.of_angles (by simpa using hlongitude) ?_, hlatitude⟩
      intro c hc
      obtain ⟨b, -, rfl⟩ := Option.mem_map.mp hc
      exact ExactRemainder.compass_mem b

theorem valid_iff_rebuild : r.Valid ↔ r.draft.build = .ok r := by
  constructor
  · intro h
    rw [h.toNearlyValid.rebuild, if_pos ((ReportDraft.inRange_iff 90 _).mpr h.latitude)]
  · exact valid_of_build

end Report

end AirTraffic
