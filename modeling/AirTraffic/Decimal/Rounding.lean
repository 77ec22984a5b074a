import AirTraffic.Scalar.Powers
/-!
# Rounding a fraction to decimal places
-/
namespace AirTraffic.Decimal

/-- The whole number nearest to a quotient; a tie goes to the even neighbour. -/
def roundDiv (num den : Nat) : Nat :=
  let q := num / den
  let r := num % den
  if den < 2 * r ∨ (2 * r = den ∧ q % 2 = 1) then q + 1 else q

def zeros (n : Nat) : String := String.ofList (List.replicate n '0')

def padded (width n : Nat) : String :=
  let digits := toString n
  zeros (width - digits.length) ++ digits

def fixedText (places num den : Nat) : String :=
  let scaled := roundDiv (num * tenPow places) den
  if places = 0 then toString scaled
  else toString (scaled / tenPow places) ++ "." ++ padded places (scaled % tenPow places)

end AirTraffic.Decimal
