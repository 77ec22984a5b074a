import AirTraffic.Geo.Position
/-!
# Flat coordinates around an origin

Good within a few tens of miles, which is all that short-range motion needs.
-/
namespace AirTraffic

open Scalar AirTraffic.Units

structure Offset (α : Type) where
  east : α
  north : α
  deriving Repr

structure LocalPlane (α : Type) where
  origin : Position α
  nmPerDegreeLongitude : α

namespace LocalPlane

variable {α : Type} [Scalar α]

def around (origin : Position α) : LocalPlane α where
  origin := origin
  nmPerDegreeLongitude := nmPerDegreeLatitude * cos (origin.latitude * radiansPerDegree)

def offset (plane : LocalPlane α) (p : Position α) : Offset α where
  east := Angle.turn p.longitude plane.origin.longitude * plane.nmPerDegreeLongitude
  north := (p.latitude - plane.origin.latitude) * nmPerDegreeLatitude

def position (plane : LocalPlane α) (o : Offset α) : Position α where
  latitude := plane.origin.latitude + o.north / nmPerDegreeLatitude
  longitude := Angle.meridian (plane.origin.longitude + o.east / plane.nmPerDegreeLongitude)

end LocalPlane
end AirTraffic
