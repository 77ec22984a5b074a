import AirTraffic.Geo.Angle
import AirTraffic.Units
/-!
# Positions and the geometry between them

What the rest of the library knows of the shape of the earth is the class `Geodesy`.
`Geodesy.greatCircle` is the sphere, on which the program runs.
-/
namespace AirTraffic

open Scalar AirTraffic.Units

structure Position (α : Type) where
  latitude : α
  longitude : α
  deriving Repr

class Geodesy (α : Type) where
  /-- Distance between two positions, in nautical miles. -/
  distance : Position α → Position α → α
  /-- Course at the first position toward the second. -/
  course : Position α → Position α → α
  /-- Where a course leads after a distance; a negative distance goes backwards. -/
  destination : Position α → (course distance : α) → Position α

variable {α : Type} [Scalar α]

namespace Position

def same (p q : Position α) : Bool := p.latitude == q.latitude && p.longitude == q.longitude

def midpoint (p q : Position α) : Position α where
  latitude := (p.latitude + q.latitude) / ofInt 2
  longitude := Angle.midMeridian p.longitude q.longitude

end Position

namespace Geodesy

/-- The haversine form keeps separations of a few feet accurate. -/
def haversine (p q : Position α) : α :=
  let φ := p.latitude * radiansPerDegree
  let ψ := q.latitude * radiansPerDegree
  let Δφ := (q.latitude - p.latitude) * radiansPerDegree
  let Δl := (q.longitude - p.longitude) * radiansPerDegree
  let a := square (sin (Δφ / ofInt 2)) + cos φ * cos ψ * square (sin (Δl / ofInt 2))
  ofInt 2 * earthRadiusNm * asin (least (sqrt a) one)

def initialCourse (p q : Position α) : α :=
  let φ := p.latitude * radiansPerDegree
  let ψ := q.latitude * radiansPerDegree
  let Δl := (q.longitude - p.longitude) * radiansPerDegree
  let east := sin Δl * cos ψ
  let north := cos φ * sin ψ - sin φ * cos ψ * cos Δl
  Angle.compass (atan2 east north * degreesPerRadian)

def follow (p : Position α) (course distance : α) : Position α :=
  let φ := p.latitude * radiansPerDegree
  let l := p.longitude * radiansPerDegree
  let θ := course * radiansPerDegree
  let δ := distance / earthRadiusNm
  let sinLatitude := sin φ * cos δ + cos φ * sin δ * cos θ
  let latitude := asin (clamp (ofInt (-1)) one sinLatitude)
  let longitude := l + atan2 (sin θ * sin δ * cos φ) (cos δ - sin φ * sinLatitude)
  ⟨latitude * degreesPerRadian, Angle.meridian (longitude * degreesPerRadian)⟩

@[reducible] def greatCircle : Geodesy α where
  distance := haversine
  course := initialCourse
  destination := follow

end Geodesy
end AirTraffic
