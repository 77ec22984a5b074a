import AirTraffic.Scalar
/-!
# Units

Times are whole milliseconds, distances nautical miles, altitudes feet, speeds knots, angles
degrees.
-/
namespace AirTraffic.Units

open Scalar

variable {α : Type} [Scalar α]

def feetPerNm : α := ofDecimal 607611 2

def metersPerNm : α := ofInt 1852

def nmPerDegreeLatitude : α := ofDecimal 600068669107676 13

def earthRadiusNm : α := ofInt 6371000 / metersPerNm

def msPerSecond : α := ofInt 1000

def msPerHour : α := ofInt 3600000

def secondsPerHour : α := ofInt 3600

def radiansPerDegree : α := pi / ofInt 180

def degreesPerRadian : α := ofInt 180 / pi

/-- Way made good at a speed; a negative duration goes backwards. -/
def nmTravelled (speed : α) (durationMs : Int) : α := speed * (ofInt durationMs / msPerHour)

end AirTraffic.Units
