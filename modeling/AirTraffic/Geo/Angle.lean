import AirTraffic.Scalar
/-!
# Angles on the compass

Courses live on `[0, 360)`, longitudes on `[-180, 180)`, and the turn from one course to another is
the shorter one, a half turn counting as clockwise.
-/
namespace AirTraffic.Angle

open Scalar

variable {α : Type} [Scalar α]

/-- The turn that takes `b` to `a`, in `(-180, 180]`. -/
def turn (a b : α) : α :=
  let d := remainder (a - b) (ofInt 360)
  if ofInt 180 < d then d - ofInt 360
  else if d ≤ ofInt (-180) then d + ofInt 360
  else d

/-- The same direction in `[0, 360)`. A tiny negative angle can round up to a full turn, which is
north. -/
def compass (x : α) : α :=
  let c := modulo x (ofInt 360)
  if ofInt 360 ≤ c then zero else c

/-- The same meridian in `[-180, 180)`. -/
def meridian (x : α) : α := modulo (x + ofInt 540) (ofInt 360) - ofInt 180

def midMeridian (a b : α) : α :=
  if ofInt 180 < abs (a - b) then meridian ((a + b) / ofInt 2 + ofInt 180) else (a + b) / ofInt 2

end AirTraffic.Angle
