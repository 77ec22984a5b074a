import AirTraffic.Fit.Polynomial
import AirTraffic.Settings
/-!
# Smoothing by a moving polynomial

Savitzky-Golay filters: around every sample of an evenly spaced signal a polynomial is fitted to a
window of odd length, and its value and slope at the middle replace the sample. Both are fixed
weighted sums over the window.
-/
namespace AirTraffic

open Scalar

structure MovingFit (α : Type) where
  timeStep : α
  order : Nat
  /-- Weights over the window that give the value in its middle. -/
  valueWeights : List α
  /-- Weights over the window that give the slope in its middle, per sample. -/
  slopeWeights : List α

namespace MovingFit

variable {α : Type} [Scalar α]

def defaultOrder : Nat := 1

def defaultWeights : List α := [1, 1, 1, 2, 2, 3, 3, 3, 2, 2, 1, 1, 1].map ofInt

def checkWeights (order : Nat) (weights : List α) : Except (SettingError α) Unit :=
  if order < 1 then .error (.orderTooLow order)
  else if weights.length % 2 = 0 then .error (.evenWeightCount weights.length)
  else if weights.length < order + 1 then .error (.tooFewWeights weights.length order)
  else
    match weights.find? fun w => !(decide (zero < w) && isFinite w) with
    | some w => .error (.notPositive "weight" w)
    | none => .ok ()

def windowSamples (weights : List α) : Polynomial.Samples α :=
  weights.zipIdx.map fun (w, i) => (ofInt i + -ofInt (weights.length / 2 : Nat), w)

def withWeights [TableInverse α] (timeStep : α) (order : Nat) (weights : List α) :
    Except (SettingError α) (MovingFit α) := do
  if !(decide (zero < timeStep) && isFinite timeStep) then throw (.stepNotPositive timeStep)
  checkWeights order weights
  match Polynomial.shares? order (windowSamples weights) with
  | none => throw .singularFit
  | some rows => return ⟨timeStep, order, rows.toList.getD 0 [], rows.toList.getD 1 []⟩

def standard [TableInverse α] (timeStep : α) : Except (SettingError α) (MovingFit α) :=
  withWeights timeStep defaultOrder defaultWeights

variable (m : MovingFit α)

def windowLength : Nat := m.valueWeights.length

def halfWindow : Nat := m.windowLength / 2

def windows (length : Nat) : List α → List (List α)
  | [] => []
  | x :: rest =>
    let window := (x :: rest).take length
    if window.length < length then [] else window :: windows length rest

/-- Samples that no full window surrounds stay as they are. -/
def smooth (signal : List α) : List α :=
  if signal.length < m.windowLength then signal
  else
    signal.take m.halfWindow ++ (windows m.windowLength signal).map (dot m.valueWeights)
      ++ signal.drop (signal.length - m.halfWindow)

def meanSlope (signal : List α) : List α :=
  if signal.length < 2 then List.replicate signal.length zero
  else
    let steps := List.zipWith (fun x y => y - x) signal signal.tail
    List.replicate signal.length (sum steps / ofInt (signal.length - 1 : Nat) / m.timeStep)

/-- The slope per time step of the smoothed signal, continued to both ends. A signal shorter than
the window has its mean slope throughout. -/
def smoothSlope (signal : List α) : List α :=
  if signal.length < m.windowLength then m.meanSlope signal
  else
    let inner := (windows m.windowLength signal).map fun w => dot m.slopeWeights w / m.timeStep
    List.replicate m.halfWindow (inner.head?.getD zero) ++ inner
      ++ List.replicate m.halfWindow (inner.getLast?.getD zero)

end MovingFit
end AirTraffic
