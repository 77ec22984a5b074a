import AirTraffic.Json.Record
import AirTraffic.Proximity.Criteria
import AirTraffic.Scalar.Floating
/-!
# Pairing criteria as JSON records
-/
namespace AirTraffic.PairingCriteria

def fieldNames : List String := ["time_window_ms", "pairing_distance_nm", "time_coef", "dist_coef"]

def ofJson? (text : String) : Option (PairingCriteria Float) := do
  match ← (← Json.parse? text).fields? fieldNames 4 with
  | [window, distance, time, feet] =>
    return ⟨← (← window).int64?, ← (← distance).float?, ⟨← (← time).float?, ← (← feet).float?⟩⟩
  | _ => none

def json (c : PairingCriteria Float) : String :=
  Json.objectText <| fieldNames.zip
    [ toString c.windowMs, Decimal.recordText c.distanceNm, Decimal.recordText c.weights.time,
      Decimal.recordText c.weights.distance ]

end AirTraffic.PairingCriteria
