import AirTraffic.Scalar
import AirTraffic.Proximity.Tally
/-!
# Ball trees

Everything in a ball is within its radius of its pivot, so a search can pass over a ball that is
further away than its radius and the range together. Entries carry a number of their owner's choice,
by which a search can leave entries out. A distance that cannot be measured stops what is going on;
the tree stays as far as it got.
-/
namespace AirTraffic

open Scalar

structure Entry (β : Type) where
  id : Nat
  item : β
  deriving Repr, DecidableEq

inductive Ball (α β : Type) where
  | leaf (pivot : β) (radius : α) (entries : List (Entry β))
  | node (pivot : β) (radius : α) (left right : Ball α β)

structure Hit (α β : Type) where
  entry : Entry β
  distance : α

namespace Ball

variable {α β ε : Type} [Scalar α] (distance : β → β → Except ε α)

def capacity : Nat := 16

def pivot : Ball α β → β
  | leaf pivot _ _ => pivot
  | node pivot _ _ _ => pivot

def radius : Ball α β → α
  | leaf _ radius _ => radius
  | node _ radius _ _ => radius

def entries : Ball α β → List (Entry β)
  | leaf _ _ entries => entries
  | node _ _ left right => left.entries ++ right.entries

def further (x : α) : Option α → Bool
  | none => isFinite x || decide (zero < x)
  | some best => best < x

def farthest (origin : β) : List (Entry β) → (item : β) → (best : Option α) → ExceptT ε Tally β
  | [], item, _ => return item
  | e :: rest, item, best => do
    let x ← Tally.measure distance origin e.item
    if further x best then farthest origin rest e.item (some x) else farthest origin rest item best

structure Half (α β : Type) where
  radius : α
  entries : List (Entry β)

def Half.add (h : Half α β) (e : Entry β) (x : α) : Half α β :=
  ⟨greatest h.radius x, h.entries ++ [e]⟩

/-- Whether an item is at least as near to `a` as to `b`, and how far it is from the nearer one. -/
def nearer (a b item : β) : ExceptT ε Tally (Bool × α) := do
  let x ← Tally.measure distance a item
  let y ← Tally.measure distance b item
  return if x ≤ y then (true, x) else (false, y)

/-- Each entry goes to the nearer of two pivots, to the first when both are equally near. -/
def divide (a b : β) :
    List (Entry β) → (left right : Half α β) → ExceptT ε Tally (Half α β × Half α β)
  | [], left, right => return (left, right)
  | e :: rest, left, right => do
    let (toLeft, x) ← nearer distance a b e.item
    if toLeft then divide a b rest (left.add e x) right else divide a b rest left (right.add e x)

/-- Two leaves around two entries about as far apart as any; none when all entries are at one spot.
-/
def split? : List (Entry β) → ExceptT ε Tally (Option (Ball α β × Ball α β))
  | [] => return none
  | first :: rest => do
    let all := first :: rest
    let a ← farthest distance first.item all first.item none
    let b ← farthest distance a all first.item none
    let (left, right) ← divide distance a b all ⟨zero, []⟩ ⟨zero, []⟩
    return if right.entries.isEmpty then none
      else some (leaf a left.radius left.entries, leaf b right.radius right.entries)

def insertLeaf (pivot : β) (radius : α) (entries : List (Entry β)) :
    Tally (Ball α β × Except ε Unit) := do
  if entries.length ≤ capacity then return (leaf pivot radius entries, .ok ())
  match ← (split? distance entries).run with
  | .error e => return (leaf pivot radius entries, .error e)
  | .ok none => return (leaf pivot radius entries, .ok ())
  | .ok (some (left, right)) => return (node pivot radius left right, .ok ())

def insert (new : Entry β) : Ball α β → Tally (Ball α β × Except ε Unit)
  | leaf pivot radius entries => do
    match ← (Tally.measure distance pivot new.item).run with
    | .error e => return (leaf pivot radius entries, .error e)
    | .ok x => insertLeaf distance pivot (greatest radius x) (entries ++ [new])
  | node pivot radius left right => do
    match ← (Tally.measure distance pivot new.item).run with
    | .error e => return (node pivot radius left right, .error e)
    | .ok x =>
      let radius := greatest radius x
      match ← (nearer distance left.pivot right.pivot new.item).run with
      | .error e => return (node pivot radius left right, .error e)
      | .ok (true, _) =>
        let (left, outcome) ← insert new left
        return (node pivot radius left right, outcome)
      | .ok (false, _) =>
        let (right, outcome) ← insert new right
        return (node pivot radius left right, outcome)

def scan (query : β) (range : α) : List (Entry β) → ExceptT ε Tally (List (Hit α β))
  | [] => return []
  | e :: rest => do
    let x ← Tally.measure distance query e.item
    let hits ← scan query range rest
    return if x ≤ range then ⟨e, x⟩ :: hits else hits

def within (query : β) (range : α) (keep : Nat → Bool) : Ball α β → ExceptT ε Tally (List (Hit α β))
  | leaf pivot radius entries => do
    let x ← Tally.measure distance query pivot
    if radius + range < x then return []
    scan distance query range (entries.filter (keep ·.id))
  | node pivot radius left right => do
    let x ← Tally.measure distance query pivot
    if radius + range < x then return []
    let hits ← within query range keep left
    return hits ++ (← within query range keep right)

end Ball

structure BallTree (α β : Type) where
  root : Option (Ball α β)
  size : Nat

namespace BallTree

variable {α β ε : Type} [Scalar α] (distance : β → β → Except ε α)

def empty : BallTree α β := ⟨none, 0⟩

def isEmpty (t : BallTree α β) : Bool := t.size = 0

def entries (t : BallTree α β) : List (Entry β) :=
  match t.root with
  | none => []
  | some ball => ball.entries

/-- The item is measured against itself first, so that even an empty tree refuses what cannot be
measured. -/
def insert (t : BallTree α β) (new : Entry β) : Tally (BallTree α β × Except ε Unit) := do
  match ← (Tally.measure distance new.item new.item).run with
  | .error e => return (t, .error e)
  | .ok _ =>
    match t.root with
    | none => return (⟨some (.leaf new.item zero [new]), t.size + 1⟩, .ok ())
    | some ball =>
      match ← ball.insert distance new with
      | (ball, .ok _) => return (⟨some ball, t.size + 1⟩, .ok ())
      | (ball, .error e) => return (⟨some ball, t.size⟩, .error e)

def within (t : BallTree α β) (query : β) (range : α) (keep : Nat → Bool) :
    ExceptT ε Tally (List (Hit α β)) :=
  match t.root with
  | none => return []
  | some ball => ball.within distance query range keep

end BallTree
end AirTraffic
