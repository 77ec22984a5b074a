import AirTraffic.Proofs.Geo.ShorterArc
import AirTraffic.Geo.Position

/-!
# Half way between two meridians

The average of two longitudes lies half way between them, unless they are more than half a circle
apart as numbers: then the shorter way leads over the antimeridian, and its middle is half a circle
from the average. Which of the two it is, there is one turn that leads from the first meridian to
the middle, and once more to the second.
-/
namespace AirTraffic

open Scalar AddCommGroup

variable {α : Type} [ExactScalar α]

namespace Angle

theorem midMeridian_of_near {a b : α} (near : |a - b| ≤ 180) : midMeridian a b = (a + b) / 2 := by
  unfold midMeridian
  simp only [ExactScalar.ofInt_eq, ExactScalar.abs_eq, Int.cast_ofNat]
  exact if_neg (not_lt.mpr near)

theorem midMeridian_of_far {a b : α} (far : 180 < |a - b|) :
    midMeridian a b = meridian ((a + b) / 2 + 180) := by
  unfold midMeridian
  simp only [ExactScalar.ofInt_eq, ExactScalar.abs_eq, Int.cast_ofNat]
  exact if_pos far

theorem midMeridian_comm (a b : α) : midMeridian a b = midMeridian b a := by
  unfold midMeridian
  simp only [ExactScalar.abs_eq, abs_sub_comm a b, add_comm a b]

variable {a b m h : α}

/-- One turn of at most a quarter circle leads from `a` to `m`, and on from `m` to `b`. -/
structure Halved (a b m h : α) : Prop where
  first : m ≡ a + h [PMOD 360]
  second : b ≡ m + h [PMOD 360]
  quarter : |h| ≤ 90

theorem Halved.symm (halved : Halved a b m h) : Halved b a m (-h) := by
  constructor
  · have back := halved.second.symm.add_right (-h)
    rwa [add_neg_cancel_right] at back
  · have back := halved.first.symm.add_right (-h)
    rwa [add_neg_cancel_right] at back
  · rw [abs_neg]
    exact halved.quarter

theorem halved_of_near (near : |a - b| ≤ 180) : Halved a b (midMeridian a b) ((b - a) / 2) := by
  have half : |(b - a) / 2| = |a - b| / 2 := by rw [abs_div, abs_two, abs_sub_comm]
  have first : (a + b) / 2 = a + (b - a) / 2 := by ring
  have second : (a + b) / 2 + (b - a) / 2 = b := by ring
  refine ⟨?_, ?_, by linarith⟩
  · rw [midMeridian_of_near near, first]
  · rw [midMeridian_of_near near, second]

variable [ExactMultiples α]

theorem Halved.turn_first (halved : Halved a b m h) : turn m a = h := by
  obtain ⟨above, below⟩ := abs_le.mp halved.quarter
  exact turn_eq_of_modEq_add halved.first (by linarith) (by linarith)

theorem Halved.turn_second (halved : Halved a b m h) : turn b m = h := by
  obtain ⟨above, below⟩ := abs_le.mp halved.quarter
  exact turn_eq_of_modEq_add halved.second (by linarith) (by linarith)

theorem Halved.turn_whole (halved : Halved a b m h) (less : |h| < 90) : turn b a = h + h := by
  obtain ⟨above, below⟩ := abs_lt.mp less
  have whole := halved.second.trans (halved.first.add_right h)
  rw [add_assoc] at whole
  exact turn_eq_of_modEq_add whole (by linarith) (by linarith)

theorem midMeridian_mem (ha : -180 ≤ a ∧ a ≤ 180) (hb : -180 ≤ b ∧ b ≤ 180) :
    -180 ≤ midMeridian a b ∧ midMeridian a b ≤ 180 := by
  by_cases near : |a - b| ≤ 180
  · rw [midMeridian_of_near near]
    constructor
    · linarith [ha.1, hb.1]
    · linarith [ha.2, hb.2]
  · rw [midMeridian_of_far (not_le.mp near)]
    obtain ⟨above, below⟩ := ExactRemainder.meridian_mem ((a + b) / 2 + 180)
    exact ⟨above, below.le⟩

theorem halved_of_far (ha : -180 ≤ a) (hb : b ≤ 180) (far : 180 < b - a) :
    Halved a b (midMeridian a b) ((b - a) / 2 - 180) := by
  have middle := meridian_modEq ((a + b) / 2 + 180)
  rw [← midMeridian_of_far (lt_abs.mpr (Or.inr (far.trans_eq (neg_sub a b).symm)))] at middle
  have first : (a + b) / 2 + 180 = a + ((b - a) / 2 - 180) + 360 := by ring
  have second : (a + b) / 2 + 180 + ((b - a) / 2 - 180) = b := by ring
  refine ⟨?_, ?_, abs_le.mpr ⟨by linarith, by linarith⟩⟩
  · rw [first] at middle
    exact middle.trans (add_circle_modEq _ 360)
  · have reached := middle.add_right ((b - a) / 2 - 180)
    rw [second] at reached
    exact reached.symm

theorem exists_halved (ha : -180 ≤ a ∧ a ≤ 180) (hb : -180 ≤ b ∧ b ≤ 180) :
    ∃ h, Halved a b (midMeridian a b) h ∧ (|a - b| ≠ 180 → |h| < 90) := by
  by_cases near : |a - b| ≤ 180
  · refine ⟨(b - a) / 2, halved_of_near near, fun uneven => ?_⟩
    rw [abs_div, abs_two, abs_sub_comm]
    linarith [lt_of_le_of_ne near uneven]
  · rcases lt_abs.mp (not_le.mp near) with west | east
    · have halved := (halved_of_far hb.1 ha.2 west).symm
      rw [midMeridian_comm] at halved
      refine ⟨_, halved, fun _ => ?_⟩
      rw [abs_neg]
      exact abs_lt.mpr ⟨by linarith, by linarith⟩
    · rw [neg_sub] at east
      exact ⟨_, halved_of_far ha.1 hb.2 east, fun _ => abs_lt.mpr ⟨by linarith, by linarith⟩⟩

/-- A meridian `m` as far from `a` as `b` is from it, by the shorter way from one to the other.
Between opposite meridians neither way is shorter. -/
structure HalfWay (a b m : α) : Prop where
  inRange : -180 ≤ m ∧ m ≤ 180
  even : turn m a = turn b m
  quarter : |turn m a| ≤ 90
  shorter : |a - b| ≠ 180 → |turn m a| < 90 ∧ turn m a + turn b m = turn b a

end Angle

namespace Position

variable [ExactMultiples α] {p q : Position α}

/-- The middle of two positions is half way along the shorter arc between their meridians. -/
theorem midpoint_halves_shorter_arc (hp : -180 ≤ p.longitude ∧ p.longitude ≤ 180)
    (hq : -180 ≤ q.longitude ∧ q.longitude ≤ 180) :
    Angle.HalfWay p.longitude q.longitude (p.midpoint q).longitude := by
  obtain ⟨h, halved, less⟩ := Angle.exists_halved hp hq
  have first : Angle.turn (p.midpoint q).longitude p.longitude = h := halved.turn_first
  have second : Angle.turn q.longitude (p.midpoint q).longitude = h := halved.turn_second
  constructor
  · exact Angle.midMeridian_mem hp hq
  · rw [first, second]
  · rw [first]
    exact halved.quarter
  · intro uneven
    rw [first, second]
    exact ⟨less uneven, (halved.turn_whole (less uneven)).symm⟩

/-- Two degrees and four either side of the antimeridian. -/
theorem midpoint_over_antimeridian :
    let p : Position ℚ := ⟨10, 178⟩
    let q : Position ℚ := ⟨12, -176⟩
    (-180 ≤ p.longitude ∧ p.longitude ≤ 180) ∧ (-180 ≤ q.longitude ∧ q.longitude ≤ 180) ∧
    |p.longitude - q.longitude| ≠ 180 ∧ (p.midpoint q).longitude = -179 ∧
    Angle.turn (p.midpoint q).longitude p.longitude = 3 ∧
    Angle.HalfWay p.longitude q.longitude (p.midpoint q).longitude := by
  intro p q
  have hp : -180 ≤ p.longitude ∧ p.longitude ≤ 180 := by decide +kernel
  have hq : -180 ≤ q.longitude ∧ q.longitude ≤ 180 := by decide +kernel
  refine ⟨hp, hq, ?_, ?_, ?_, midpoint_halves_shorter_arc hp hq⟩
  · decide +kernel
  · decide +kernel
  · decide +kernel

end Position

end AirTraffic
