import AirTraffic.Cleaning.LocalMotion
import AirTraffic.Cleaning.Spacing
import AirTraffic.Proofs.InPlace.Access
import AirTraffic.Proofs.Track.Order

/-!
# Motion fitted in place

The reports around one of them are a slice of the track, and so are the coordinates that the cubics
are fitted to.
-/
namespace AirTraffic

open Scalar Report AirTraffic.Units

variable {α ρ : Type}

section Around

open InPlace

variable {reports : List (Report α ρ)} (order : InOrder reports)

include order

theorem Report.InOrder.ends_of_le {P : Int → Prop} [DecidablePred P]
    (hP : ∀ t u, t ≤ u → P u → P t) :
    reports.Pairwise fun r q => decide (P q.time) → decide (P r.time) := by
  refine (inOrder_iff.mp order).imp fun {r q} hrq hq => ?_
  exact decide_eq_true (hP r.time q.time hrq (of_decide_eq_true hq))

theorem MotionFit.slice_eq_nearby (centre : Report α ρ) {halfMs : Int} (hhalf : 0 ≤ halfMs) :
    slice reports (reports.takeWhile (·.time < centre.time - halfMs)).length
      (reports.takeWhile (·.time ≤ centre.time + halfMs)).length =
        .ok (nearby reports centre halfMs) := by
  have early := order.ends_of_le fun t u htu (hu : u < centre.time - halfMs) =>
    Int.lt_of_le_of_lt htu hu
  have reached := order.ends_of_le fun t u htu (hu : u ≤ centre.time + halfMs) =>
    Int.le_trans htu hu
  have within : ∀ r ∈ reports, decide (r.time < centre.time - halfMs) →
      decide (r.time ≤ centre.time + halfMs) := by
    intro r _ hr
    have := of_decide_eq_true hr
    exact decide_eq_true (by omega)
  rw [slice_takeWhile early reached within]
  refine congrArg Except.ok (List.filter_congr fun r _ => ?_)
  rw [← decide_not, ← Bool.decide_and]
  exact decide_eq_decide.mpr (by omega)

end Around

variable [Scalar α]

def MotionFit.motionOf? (plane : LocalPlane α) (east north eastward northward : α) :
    Option (Motion α) := do
  guard (isFinite east && isFinite north && isFinite eastward && isFinite northward)
  return {
    position := plane.position ⟨east, north⟩
    speed := greatest (hypot eastward northward * secondsPerHour) zero
    course := Angle.compass (atan2 eastward northward * degreesPerRadian) }

namespace InPlace

variable [TableInverse α]

def polyfit (degree : Nat) (xs ys : List α) : Checked (Option (List α)) := do
  let abscissas ← (List.range xs.length).mapM (read xs)
  match Polynomial.shares? degree (abscissas.map (·, one)) with
  | none => return none
  | some rows =>
    if xs.length = ys.length then return some (rows.map fun row => dot row ys).toList
    else .error (.shape xs.length ys.length)

def cubic (centre : Report α ρ) (coordinate : Position α → α) (around : List (Report α ρ)) :
    Checked (Option (List α)) :=
  polyfit MotionFit.degree (around.map fun r => ofInt (r.time - centre.time) / msPerSecond)
    (around.map fun r => coordinate r.position)

def fittedMotion (plane : LocalPlane α) (centre : Report α ρ) (around : List (Report α ρ)) :
    Checked (Option (Motion α)) := do
  match ← cubic centre (fun p => (plane.offset p).east) around with
  | none => return none
  | some easts =>
    match ← cubic centre (fun p => (plane.offset p).north) around with
    | none => return none
    | some norths =>
      return MotionFit.motionOf? plane (← read easts 0) (← read norths 0) (← read easts 1)
        (← read norths 1)

def motionWithin (reports : List (Report α ρ)) (i : Nat) (halfMs : Int) :
    Checked (Option (Motion α)) := do
  let centre ← read reports i
  let lo ← partitionPoint (·.time < centre.time - halfMs) reports 0 reports.length
  let hi ← partitionPoint (·.time ≤ centre.time + halfMs) reports 0 reports.length
  let around ← slice reports lo hi
  if around.length < MotionFit.degree + 2 then return none
  else fittedMotion (.around centre.position) centre around

def motionAt (s : MotionFit) (reports : List (Report α ρ)) (i : Nat) :
    Checked (Option (Motion α)) := do
  match ← motionWithin reports i (s.windowMs / 2) with
  | some m => return some m
  | none => motionWithin reports i s.windowMs

/-- Reports that have a motion are moved, the others flagged. -/
def fitMotion (s : MotionFit) (reports : List (Report α ρ)) :
    Checked (Option (List (Report α ρ))) := do
  if reports.length = 1 then return some (← revise reports 0 (·.withSpeed (some zero)))
  else
    let fits ← (List.range reports.length).mapM (motionAt s reports)
    let moved := List.zipWith (fun r fit => fit.elim r (MotionFit.move · r)) reports fits
    let kept := dropFlagged (fits.map (·.isNone)) moved
    let _ ← difference moved.length kept.length
    return if kept.isEmpty then none else some kept

end InPlace

namespace MotionFit

open InPlace

variable {reports : List (Report α ρ)}

theorem dropFlagged_zipWith (fit : Report α ρ → Option (Motion α)) (reports : List (Report α ρ)) :
    dropFlagged ((reports.map fit).map (·.isNone))
      (List.zipWith (fun r fit => fit.elim r (move · r)) reports (reports.map fit)) =
        reports.filterMap fun r => (fit r).map (move · r) := by
  induction reports with
  | nil => rfl
  | cons r reports ih =>
    rw [List.map_cons, List.map_cons, List.zipWith_cons_cons, dropFlagged, ih]
    cases hr : fit r with
    | none => simp [hr]
    | some m => simp [hr]

variable [TableInverse α]

theorem polyfit_eq (degree : Nat) (observations : List (α × α)) :
    polyfit degree (observations.map (·.1)) (observations.map (·.2)) =
      .ok ((Polynomial.fit? degree observations).map Vector.toList) := by
  have abscissas : (List.range (observations.map (·.1)).length).mapM
      (read (observations.map (·.1))) = .ok ((observations.map (·.1)).map id) :=
    mapM_range fun i hi => read_of_lt hi
  unfold polyfit Polynomial.fit?
  rw [abscissas, ok_bind, List.map_id, List.map_map]
  simp only [Function.comp_def, List.length_map, if_true]
  cases Polynomial.shares? degree (observations.map fun o => (o.1, one)) with
  | none => rfl
  | some rows => rfl

theorem cubic_eq (centre : Report α ρ) (coordinate : Position α → α)
    (around : List (Report α ρ)) : cubic centre coordinate around =
      .ok ((Polynomial.fit? degree (observe centre coordinate around)).map Vector.toList) := by
  have fitted := polyfit_eq degree (observe centre coordinate around)
  rw [observe, List.map_map, List.map_map] at fitted
  exact fitted

theorem read_toList {β : Type} {n i : Nat} (v : Vector β n) (h : i < n) :
    read v.toList i = .ok v[i] := by
  have inside : i < v.toList.length := by rwa [Vector.length_toList]
  rw [read_of_lt inside, Vector.getElem_toList]

def motionAmong? (plane : LocalPlane α) (centre : Report α ρ) (around : List (Report α ρ)) :
    Option (Motion α) :=
  (Polynomial.fit? degree (observe centre (fun p => (plane.offset p).east) around)).bind fun east =>
    (Polynomial.fit? degree (observe centre (fun p => (plane.offset p).north) around)).bind
      fun north => motionOf? plane (east.get 0) (north.get 0) (east.get 1) (north.get 1)

theorem fittedMotion_eq (plane : LocalPlane α) (centre : Report α ρ) (around : List (Report α ρ)) :
    fittedMotion plane centre around = .ok (motionAmong? plane centre around) := by
  unfold fittedMotion motionAmong?
  rw [cubic_eq, ok_bind]
  cases Polynomial.fit? degree (observe centre (fun p => (plane.offset p).east) around) with
  | none => rfl
  | some east =>
    rw [Option.map_some, Option.bind_some]
    dsimp only
    rw [cubic_eq, ok_bind]
    cases Polynomial.fit? degree (observe centre (fun p => (plane.offset p).north) around) with
    | none => rfl
    | some north =>
      rw [Option.map_some, Option.bind_some]
      dsimp only
      have value : 0 < degree + 1 := by decide
      have slope : 1 < degree + 1 := by decide
      rw [read_toList east value, ok_bind, read_toList north value, ok_bind, read_toList east slope,
        ok_bind, read_toList north slope]
      rfl

theorem motionWithin?_eq (reports : List (Report α ρ)) (centre : Report α ρ) (halfMs : Int) :
    motionWithin? reports centre halfMs =
      if (nearby reports centre halfMs).length < degree + 2 then none
      else motionAmong? (.around centre.position) centre (nearby reports centre halfMs) := by
  unfold motionWithin?
  by_cases few : (nearby reports centre halfMs).length < degree + 2
  · simp [few, guard]
  · simp only [few, guard, Nat.not_lt.mp few, if_true, if_false]
    rfl

theorem motionWithin_eq {reports : List (Report α ρ)} (order : InOrder reports) {i : Nat}
    (hi : i < reports.length) {halfMs : Int} (hhalf : 0 ≤ halfMs) :
    InPlace.motionWithin reports i halfMs = .ok (motionWithin? reports reports[i] halfMs) := by
  have early := order.ends_of_le fun t u htu (hu : u < reports[i].time - halfMs) =>
    Int.lt_of_le_of_lt htu hu
  have reached := order.ends_of_le fun t u htu (hu : u ≤ reports[i].time + halfMs) =>
    Int.le_trans htu hu
  unfold InPlace.motionWithin
  rw [read_of_lt hi, ok_bind, partitionPoint_eq early, ok_bind, partitionPoint_eq reached, ok_bind,
    slice_eq_nearby order reports[i] hhalf, ok_bind, motionWithin?_eq]
  split
  · rfl
  · exact fittedMotion_eq _ _ _

theorem motionAt_eq (s : MotionFit) {reports : List (Report α ρ)} (order : InOrder reports)
    {i : Nat}
    (hi : i < reports.length) : motionAt s reports i = .ok (s.motion? reports reports[i]) := by
  have whole := s.positive
  unfold motionAt motion?
  rw [motionWithin_eq order hi (by omega), ok_bind]
  cases motionWithin? reports reports[i] (s.windowMs / 2) with
  | some m => rfl
  | none => exact motionWithin_eq order hi (Int.le_of_lt whole)

theorem clean_eq_fitted (s : MotionFit) (several : ¬reports.length = 1) : s.clean reports =
    let fitted := reports.filterMap fun r => (s.motion? reports r).map (move · r)
    if fitted.isEmpty then none else some fitted := by
  match reports, several with
  | [], _ => rfl
  | _ :: _ :: _, _ => rfl

theorem clean_eq (s : MotionFit) {reports : List (Report α ρ)} (order : InOrder reports) :
    fitMotion s reports = .ok (s.clean reports) := by
  have fits : (List.range reports.length).mapM (motionAt s reports) =
      .ok (reports.map (s.motion? reports)) := mapM_range fun i hi => motionAt_eq s order hi
  unfold fitMotion
  split
  case isTrue single =>
    obtain ⟨r, rfl⟩ := List.length_eq_one_iff.mp single
    rfl
  case isFalse several =>
    have fewer : (reports.filterMap fun r => (s.motion? reports r).map (move · r)).length ≤
        (List.zipWith (fun r fit => fit.elim r (move · r)) reports
          (reports.map (s.motion? reports))).length := by
      rw [List.length_zipWith, List.length_map, Nat.min_self]
      exact List.length_filterMap_le _ _
    rw [fits, ok_bind]
    dsimp only
    rw [dropFlagged_zipWith, difference_of_le fewer, ok_bind]
    rw [clean_eq_fitted s several]
    rfl

end MotionFit

end AirTraffic
