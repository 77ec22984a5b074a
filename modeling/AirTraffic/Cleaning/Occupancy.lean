import AirTraffic.Track
import AirTraffic.Settings
/-!
# Occupied cells

Radar returns off towers and buildings occupy very few cells of a grid, however many reports they
make. Both rules look at a whole track and say whether it is to be discarded.
-/
namespace AirTraffic

open Scalar

variable {α ρ : Type} [Scalar α]

namespace Occupancy

/-- Cell of a grid with `scale` cells to a degree, cut toward the equator and the prime meridian. -/
def cell (scale : α) (r : Report α ρ) : Int × Int :=
  (truncate (r.position.latitude * scale), truncate (r.position.longitude * scale))

def cells (scale : α) (reports : List (Report α ρ)) : Nat :=
  (reports.map (cell scale)).eraseDups.length

def checkScale (scale : α) : Except (SettingError α) Unit :=
  if decide (zero < scale) && isFinite scale then .ok ()
  else .error (.notPositive "grid scale" scale)

end Occupancy

structure Repetition (α : Type) where
  requiredReports : Nat
  fraction : α
  scale : α

namespace Repetition

def standard : Repetition α := ⟨1000, ofDecimal 2 1, ofInt 100000⟩

def ofLimits (requiredReports : Nat) (fraction scale : α) :
    Except (SettingError α) (Repetition α) := do
  if requiredReports = 0 then throw (.notPositive "required points" zero)
  if !(decide (zero ≤ fraction) && decide (fraction ≤ one)) then
    throw (.notFraction "unique fraction" fraction)
  Occupancy.checkScale scale
  return ⟨requiredReports, fraction, scale⟩

def applies (s : Repetition α) (reports : List (Report α ρ)) : Bool :=
  s.requiredReports ≤ reports.length
    && ofInt (Occupancy.cells s.scale reports) / ofInt reports.length ≤ s.fraction

end Repetition

structure Confinement (α : Type) where
  maximumCells : Nat
  scale : α

namespace Confinement

def standard : Confinement α := ⟨2, ofInt 1000⟩

def ofLimits (maximumCells : Nat) (scale : α) : Except (SettingError α) (Confinement α) := do
  if maximumCells = 0 then throw (.notPositive "maximum cells" zero)
  Occupancy.checkScale scale
  return ⟨maximumCells, scale⟩

def applies (s : Confinement α) (reports : List (Report α ρ)) : Bool :=
  Occupancy.cells s.scale reports ≤ s.maximumCells

end Confinement

inductive DiscardRule (α : Type) where
  | repetition (rule : Repetition α)
  | confinement (rule : Confinement α)

def DiscardRule.applies : DiscardRule α → List (Report α ρ) → Bool
  | repetition rule, reports => rule.applies reports
  | confinement rule, reports => rule.applies reports

end AirTraffic
