import AirTraffic.Cleaning.TrendOutlier
import AirTraffic.Proofs.InPlace.Neighbours
import AirTraffic.Proofs.Track.Order

/-!
# Trends in place

Each report is looked up by its index, and so are its neighbours. All outliers are found before the
first one is corrected.
-/
namespace AirTraffic

open Scalar Report

variable {α ρ : Type}

def InPlace.neighbours (test : TrendTest α) (reports : List (Report α ρ)) (i : Nat) :
    InPlace.Checked (Option (List (Report α ρ))) := do
  let candidate ← read reports i
  let nearby ← nearestIndices (times reports) candidate.time test.sampleSize
  if nearby.length < test.sampleSize then return none
  else return some (← (nearby.filter (· ≠ i)).mapM (read reports))

section Index

open InPlace

variable (test : TrendTest α) {reports : List (Report α ρ)} {i : Nat} (hi : i < reports.length)

include hi

theorem TrendTest.neighbours?_eq : test.neighbours? reports i =
    if test.sampleSize ≤ (nearest reports reports[i].time test.sampleSize).length then
      some (reports[i], ((nearest reports reports[i].time test.sampleSize).indices.filter
        (· ≠ i)).filterMap (reports[·]?))
    else none := by
  unfold neighbours?
  rw [List.getElem?_eq_getElem hi]
  by_cases full : test.sampleSize ≤ (nearest reports reports[i].time test.sampleSize).length
  · simp [full, guard]
  · simp [full, guard]

theorem TrendTest.neighbours_eq (order : InOrder reports) :
    InPlace.neighbours test reports i = .ok ((test.neighbours? reports i).map Prod.snd) := by
  have near := nearestIndices_eq order reports[i].time test.sampleSize
  have inside : ∀ j ∈ (nearest reports reports[i].time test.sampleSize).indices.filter (· ≠ i),
      j < reports.length := by
    intro j hj
    have within := stretch_stop_le (times reports) reports[i].time test.sampleSize
    have bounds := List.mem_range'_1.mp (List.mem_of_mem_filter hj)
    rw [times, List.length_map] at within
    exact Nat.lt_of_lt_of_le bounds.2 within
  have size : (nearest reports reports[i].time test.sampleSize).indices.length =
      (nearest reports reports[i].time test.sampleSize).length := List.length_range'
  unfold InPlace.neighbours
  rw [read_of_lt hi, ok_bind, near, ok_bind, neighbours?_eq test hi]
  change (if (nearest reports reports[i].time test.sampleSize).indices.length < test.sampleSize then
    _ else _) = _
  rw [size]
  split
  case isTrue few =>
    rw [if_neg (Nat.not_le.mpr few)]
    rfl
  case isFalse full =>
    rw [if_pos (Nat.not_lt.mp full)]
    exact congrArg (· >>= fun others => .ok (some others)) (mapM_read inside)

end Index

variable [Scalar α]

namespace TrendTest

def altitudeOnTrend? (test : TrendTest α) (candidate : Report α ρ) (altitude : α)
    (others : List (Report α ρ)) : Option α := do
  let without := observe (·.altitude) candidate others
  let predicted ← (without.predict? zero).filter isFinite
  let drop := without.fitQuality - Observations.fitQuality (without ++ [(zero, altitude)])
  guard (test.fitDrop < drop ∧ test.minimumError < abs (predicted - altitude))
  return predicted

def positionOffTrend [Geodesy α] (test : TrendTest α) (candidate : Report α ρ)
    (others : List (Report α ρ)) : Bool :=
  let latitudes := observe (some ·.position.latitude) candidate others
  let longitudes := observe (some ·.position.longitude) candidate others
  match (latitudes.predict? zero).filter isFinite, (longitudes.predict? zero).filter isFinite with
  | some latitude, some longitude =>
    let drop := positionQuality latitudes longitudes
      - positionQuality (latitudes ++ [(zero, candidate.position.latitude)])
          (longitudes ++ [(zero, candidate.position.longitude)])
    test.fitDrop < drop &&
      test.minimumError < Geodesy.distance ⟨latitude, longitude⟩ candidate.position
  | _, _ => false

end TrendTest

namespace InPlace

def correctedAltitude (test : TrendTest α) (reports : List (Report α ρ)) (i : Nat) :
    Checked (Option α) := do
  let candidate ← read reports i
  match candidate.altitude with
  | none => return none
  | some altitude =>
    return (← neighbours test reports i).bind (test.altitudeOnTrend? candidate altitude)

def correctAltitudes (test : TrendTest α) (reports : List (Report α ρ)) :
    Checked (List (Report α ρ)) :=
  reviseFound (correctedAltitude test reports) (fun altitude r => r.withAltitude (some altitude))
    reports

def isPositionOutlier [Geodesy α] (test : TrendTest α) (reports : List (Report α ρ)) (i : Nat) :
    Checked Bool := do
  let candidate ← read reports i
  return (← neighbours test reports i).any (test.positionOffTrend candidate)

def positionFlags [Geodesy α] (test : TrendTest α) (reports : List (Report α ρ)) :
    Checked (List Bool) :=
  (List.range reports.length).mapM (isPositionOutlier test reports)

end InPlace

namespace TrendTest

open InPlace

section Index

variable (test : TrendTest α) {reports : List (Report α ρ)} (order : InOrder reports) {i : Nat}
  (hi : i < reports.length)

include hi

theorem correctedAltitude?_eq : test.correctedAltitude? reports i =
    reports[i].altitude.bind fun altitude => (test.neighbours? reports i).bind fun around =>
      test.altitudeOnTrend? reports[i] altitude around.2 := by
  unfold correctedAltitude?
  rw [List.getElem?_eq_getElem hi]
  rfl

theorem isPositionOutlier_eq_any [Geodesy α] : test.isPositionOutlier reports i =
    (test.neighbours? reports i).any fun around => test.positionOffTrend reports[i] around.2 := by
  unfold isPositionOutlier
  rw [neighbours?_eq test hi]
  split
  · next none => rw [none]; rfl
  · next candidate others known =>
    rw [known]
    obtain ⟨-, same⟩ := Option.ite_none_right_eq_some.mp known
    obtain ⟨rfl, rfl⟩ := Prod.mk.inj (Option.some.inj same)
    rfl

include order

theorem correctedAltitude_eq :
    InPlace.correctedAltitude test reports i = .ok (test.correctedAltitude? reports i) := by
  unfold InPlace.correctedAltitude
  rw [read_of_lt hi, ok_bind, correctedAltitude?_eq test hi, neighbours_eq test hi order]
  cases reports[i].altitude with
  | none => rfl
  | some altitude =>
    cases test.neighbours? reports i with
    | none => rfl
    | some around => rfl

theorem isPositionOutlier_eq [Geodesy α] :
    InPlace.isPositionOutlier test reports i = .ok (test.isPositionOutlier reports i) := by
  unfold InPlace.isPositionOutlier
  rw [read_of_lt hi, ok_bind, isPositionOutlier_eq_any test hi, neighbours_eq test hi order]
  cases test.neighbours? reports i with
  | none => rfl
  | some around => rfl

end Index

theorem correctAltitudes_eq (test : TrendTest α) {reports : List (Report α ρ)}
    (order : InOrder reports) :
    InPlace.correctAltitudes test reports = .ok (test.correctAltitudes reports) := by
  have found (i : Nat) (hi : i < reports.length) := correctedAltitude_eq test order hi
  refine (reviseFound_ok _ _ found).trans ?_
  unfold correctAltitudes
  rw [List.mapIdx_eq_zipIdx_map]
  refine congrArg Except.ok (List.map_congr_left fun p _ => ?_)
  dsimp only
  cases test.correctedAltitude? reports p.2 with
  | none => rfl
  | some altitude => rfl

theorem positionFlags_eq [Geodesy α] (test : TrendTest α) {reports : List (Report α ρ)}
    (order : InOrder reports) :
    InPlace.positionFlags test reports = .ok (test.positionFlags reports) := by
  refine mapM_ok ?_
  intro i hi
  exact isPositionOutlier_eq test order (List.mem_range.mp hi)

end TrendTest

end AirTraffic
