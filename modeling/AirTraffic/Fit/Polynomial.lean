import AirTraffic.Fit.Inverse
/-!
# Least-squares polynomials

The coefficients of the best polynomial are linear in the observed values. What is solved for is the
share that each sample has in each coefficient, which depends on abscissas and weights alone.
-/
namespace AirTraffic.Polynomial

open Scalar

variable {α : Type} [Scalar α]

abbrev Samples (α : Type) := List (α × α)

def normalTable (degree : Nat) (samples : Samples α) : Table (degree + 1) (degree + 1) α :=
  Table.ofFn fun i j => sum (samples.map fun s => power s.1 i.val * s.2 * power s.1 j.val)

/-- For each coefficient, lowest order first, the share of each sample in it. -/
def shares? [TableInverse α] (degree : Nat) (samples : Samples α) :
    Option (Vector (List α) (degree + 1)) :=
  (TableInverse.inverse? (normalTable degree samples)).map fun inverse =>
    inverse.map fun row =>
      samples.map fun s =>
        dot row.toList (List.ofFn fun k : Fin (degree + 1) => power s.1 k.val * s.2)

/-- Coefficients of the polynomial through observations `(x, y)` of equal weight, lowest order
first. -/
def fit? [TableInverse α] (degree : Nat) (observations : List (α × α)) :
    Option (Vector α (degree + 1)) :=
  (shares? degree (observations.map fun o => (o.1, one))).map fun rows =>
    rows.map fun row => dot row (observations.map (·.2))

end AirTraffic.Polynomial
