import AirTraffic.Decimal.Text
/-!
# Refused settings

Filters are checked when they are set up, never while they run.
-/
namespace AirTraffic

inductive SettingError (α : Type) where
  | stepNotPositive (value : α)
  | orderTooLow (order : Nat)
  | evenWeightCount (count : Nat)
  | tooFewWeights (count order : Nat)
  | singularFit
  | notPositive (setting : String) (value : α)
  | negative (setting : String) (value : α)
  | notFraction (setting : String) (value : α)
  deriving Repr

def SettingError.message : SettingError Float → String
  | stepNotPositive value =>
      s!"time step must be strictly positive, got {Decimal.messageText value}"
  | orderTooLow order => s!"order of interpolation must be at least 1, got {order}"
  | evenWeightCount count => s!"weight array must have odd length, got {count}"
  | tooFewWeights count order =>
      "weight array is too short (" ++ toString count ++ ") for a polynomial of order "
        ++ toString order
  | singularFit => "the weighted normal equations are singular"
  | notPositive setting value => s!"{setting} must be positive, got {Decimal.messageText value}"
  | negative setting value => s!"{setting} must not be negative, got {Decimal.messageText value}"
  | notFraction setting value => s!"{setting} must lie in [0, 1], got {Decimal.messageText value}"

end AirTraffic
