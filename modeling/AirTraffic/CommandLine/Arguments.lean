import AirTraffic.CommandLine.Options
/-!
# Reading the arguments

A setting takes its value from the same argument or from the next one. In the second case the value
is looked at only when the next flag or the end has been seen, so a fault in between is the one
reported.
-/
namespace AirTraffic.CommandLine

structure Reading where
  options : Options
  given : List Flag
  /-- The setting before, and its value if that has come. -/
  pending : Option (Setting × Option String)

namespace Reading

def start : Reading := ⟨.standard, [], none⟩

def note (r : Reading) (f : Flag) : Except Stop Reading :=
  if f ∈ r.given then refuse .givenTwice else .ok { r with given := f :: r.given }

def assign (r : Reading) (s : Setting) (value : Option String) : Except Stop Reading :=
  match value with
  | none => refuse .missingValue
  | some value => do
    let r ← r.note (.setting s)
    return { r with options := ← s.apply value r.options }

def settle (r : Reading) : Except Stop Reading :=
  match r.pending with
  | none => .ok r
  | some (s, value) => assign { r with pending := none } s value

def turnOn (r : Reading) (s : Switch) : Except Stop Reading := do
  let r ← r.note (.switch s)
  return { r with options := s.apply r.options }

def await (r : Reading) (s : Setting) : Reading := { r with pending := some (s, none) }

def long (r : Reading) (name : String) (value : Option String) : Except Stop Reading :=
  match Flag.ofLong? name, value with
  | none, _ => refuse .unknownArgument
  | some (.setting s), none => do return (← r.settle).await s
  | some (.setting s), some value => do (← r.settle).assign s (some value)
  | some (.switch s), none => do (← r.settle).turnOn s
  | some (.question q), none => do
    let _ ← r.settle
    throw (.asked q)
  | some _, some _ => refuse .unexpectedValue

/-- A value that follows a letter may be set off by an equals sign. -/
def attached : List Char → String
  | '=' :: cs => String.ofList cs
  | cs => String.ofList cs

/-- Several letters behind one dash; what follows a setting is its value. -/
def letters (r : Reading) : List Char → Except Stop Reading
  | [] => .ok r
  | c :: cs =>
    match Flag.ofShort? c with
    | none => refuse .unknownArgument
    | some (.setting s) =>
      if cs.isEmpty then do return (← r.settle).await s
      else do (← r.settle).assign s (some (attached cs))
    | some (.switch s) => do
      let r ← r.settle
      letters (← r.turnOn s) cs
    | some (.question q) => do
      let _ ← r.settle
      throw (.asked q)

/-- There are no arguments but flags and their values. -/
def bare (r : Reading) (value : String) : Except Stop Reading :=
  match r.pending with
  | some (s, none) => .ok { r with pending := some (s, some value) }
  | _ => refuse .unknownArgument

def splitValue (cs : List Char) : String × Option String :=
  (String.ofList (cs.takeWhile (· ≠ '=')), (cs.dropWhile (· ≠ '=')).tail? |>.map String.ofList)

def argument (r : Reading) (arg : String) : Except Stop Reading :=
  match arg.toList with
  | '-' :: '-' :: cs =>
    let (name, value) := splitValue cs
    r.long name value
  | '-' :: c :: cs => r.letters (c :: cs)
  | _ => r.bare arg

def arguments (r : Reading) : List String → Except Stop Reading
  | [] => r.settle
  | arg :: rest =>
    if arg == "--" then (if rest.isEmpty then r.settle else refuse .unknownArgument)
    else do (← r.argument arg).arguments rest

end Reading

def Options.ofArguments (args : List String) : Except Stop Options := do
  return (← Reading.start.arguments args).options

end AirTraffic.CommandLine
