import AirTraffic.Scalar
/-!
# Least-squares lines

Everything is computed from sums about the means, which stays accurate when the abscissas are large
offsets. What a set of observations does not determine is absent.
-/
namespace AirTraffic

abbrev Observations (α : Type) := List (α × α)

namespace Observations

open Scalar

variable {α : Type} [Scalar α]

def xs (o : Observations α) : List α := o.map (·.1)

def ys (o : Observations α) : List α := o.map (·.2)

def deviations (values : List α) : List α :=
  let centre := mean values
  values.map (· - centre)

def sxx (o : Observations α) : α := dot (deviations o.xs) (deviations o.xs)

def syy (o : Observations α) : α := dot (deviations o.ys) (deviations o.ys)

def sxy (o : Observations α) : α := dot (deviations o.xs) (deviations o.ys)

/-- Needs two observations and some spread in `x`. -/
def slope? (o : Observations α) : Option α :=
  if o.length < 2 ∨ (sxx o == zero) then none else some (sxy o / sxx o)

def intercept? (o : Observations α) : Option α :=
  if o.length < 2 then none else some (mean o.ys - (sxy o / sxx o) * mean o.xs)

def predict? (o : Observations α) (x : α) : Option α :=
  match o.intercept?, o.slope? with
  | some b, some m => some (b + m * x)
  | _, _ => none

/-- The share of the variance in `y` that the line explains; undefined when there is none to
explain. -/
def explained? (o : Observations α) : Option α :=
  if o.length < 2 ∨ (sxx o == zero) ∨ (syy o == zero) then none
  else some (sxy o * sxy o / sxx o / syy o)

/-- The sum of squared residuals over the degrees of freedom. -/
def residualVariance? (o : Observations α) : Option α :=
  if o.length < 3 then none
  else some (greatest (syy o - sxy o * sxy o / sxx o) zero / (ofInt o.length - ofInt 2))

def fitQuality (o : Observations α) : α :=
  match o.explained? with
  | some r => if isFinite r then r else one
  | none => one

end Observations
end AirTraffic
