import AirTraffic.Json.Reader
/-!
# Records

A record has named fields in a fixed order. It is written as an object, in which members of other
names are passed over and no field may come twice, or as an array with the fields in order.
-/
namespace AirTraffic.Json

def uniqueMember? (members : List (Option String × Json)) (name : String) : Option (Option Json) :=
  match members.filter (·.1 == some name) with
  | [] => some none
  | [m] => some (some m.2)
  | _ => none

/-- The fields of a record by name; an array may stop after the first `required` of them. -/
def fields? (names : List String) (required : Nat) : Json → Option (List (Option Json))
  | object members => do
    guard (members.all (·.1.isSome))
    names.mapM (uniqueMember? members)
  | array items => do
    guard (required ≤ items.length ∧ items.length ≤ names.length)
    return items.map some ++ List.replicate (names.length - items.length) none
  | _ => none

def float? : Json → Option Float
  | number n => n.scaled?
  | _ => none

def int64? : Json → Option Int
  | number n => n.int?.filter Numeral.isInt64
  | _ => none

def string? : Json → Option String
  | text s => s
  | _ => none

def bool? : Json → Option Bool
  | bool b => some b
  | _ => none

def optionalFloat? : Option Json → Option (Option Float)
  | none => some none
  | some null => some none
  | some v => some <$> v.float?

end AirTraffic.Json
