import AirTraffic.Proximity.Reckoning
import AirTraffic.Settings
/-!
# Screens

A second look at pairs that the metric found: which of them are worth keeping.
-/
namespace AirTraffic

open Scalar

structure Cylinder (α : Type) where
  radiusFt : α
  halfHeightFt : α
  /-- Whether a pair with an altitude missing counts as inside vertically. -/
  admitsMissingAltitude : Bool

structure ReckonedBall (α : Type) where
  radiusFt : α
  limitMs : Int

inductive Screen (α : Type) where
  | cylinder (c : Cylinder α)
  | reckoned (b : ReckonedBall α)

variable {α ρ : Type} [Scalar α]

def checkNotNegative (setting : String) (value : α) : Except (SettingError α) α :=
  if zero ≤ value then .ok value else .error (.negative setting value)

def Cylinder.ofLimits (radiusFt halfHeightFt : α) (admitsMissingAltitude : Bool) :
    Except (SettingError α) (Cylinder α) := do
  let radiusFt ← checkNotNegative "max horizontal distance" radiusFt
  let halfHeightFt ← checkNotNegative "max vertical distance" halfHeightFt
  return ⟨radiusFt, halfHeightFt, admitsMissingAltitude⟩

def ReckonedBall.ofLimits (radiusFt : α) (limitMs : Int) :
    Except (SettingError α) (ReckonedBall α) := do
  if limitMs < 0 then throw (.negative "max time delta" (ofInt limitMs))
  return ⟨← checkNotNegative "max distance" radiusFt, limitMs⟩

variable [Geodesy α]

namespace Cylinder

def containsVertically (c : Cylinder α) (r q : Report α ρ) : Bool :=
  match r.altitude, q.altitude with
  | some x, some y => abs (x - y) ≤ c.halfHeightFt
  | _, _ => c.admitsMissingAltitude

def accepts (c : Cylinder α) (r q : Report α ρ) : Bool :=
  c.containsVertically r q && Metric.feetApart r q ≤ c.radiusFt

end Cylinder

/-- Without an estimate a pair does not pass. -/
def ReckonedBall.accepts (b : ReckonedBall α) (r q : Report α ρ) : Bool :=
  match r.reckonedFeet q b.limitMs with
  | .ok feet => feet ≤ b.radiusFt
  | .error _ => false

def Screen.accepts : Screen α → Report α ρ → Report α ρ → Bool
  | cylinder c => c.accepts
  | reckoned b => b.accepts

end AirTraffic
