import AirTraffic.Proximity.Metric
/-!
# Pairing errors
-/
namespace AirTraffic

inductive PairingError (α : Type) where
  | windowTooSmall (ms : Int)
  | distanceNotPositive (nm : α)
  | invalidWeight (name : String) (value : α)
  | invalidThreshold (value : α)
  | outOfOrder (current received : Int)
  | tooFarInTime (apartMs limitMs : Int)
  | unmeasurable (cause : MetricError)
  deriving Repr

def PairingError.message : PairingError Float → String
  | windowTooSmall ms => s!"time window must exceed 100 ms, got {ms} ms"
  | distanceNotPositive nm => s!"pairing distance must be positive, got {Decimal.messageText nm} NM"
  | invalidWeight name value =>
    s!"{name} coefficient must be finite and non-negative, got {Decimal.messageText value}"
  | invalidThreshold value =>
      s!"distance threshold must be a non-negative number, got {Decimal.messageText value}"
  | outOfOrder current received =>
    s!"point at {received} arrived after point at {current}; input must be time ordered"
  | tooFarInTime apartMs limitMs => s!"time delta {apartMs} ms exceeds limit of {limitMs} ms"
  | unmeasurable cause => cause.message

end AirTraffic
