import AirTraffic.Fit.Inverse
import AirTraffic.Geo.Position
import AirTraffic.Scalar.Floating
/-!
# The model that the program runs on

Floating-point numbers on a spherical earth.
-/
namespace AirTraffic

instance : Geodesy Float := Geodesy.greatCircle

instance : TableInverse Float := TableInverse.standard

end AirTraffic
