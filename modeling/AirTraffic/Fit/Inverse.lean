import AirTraffic.Scalar
/-!
# Square tables of numbers and their inverses

`TableInverse` is what least squares needs to know of linear algebra. `TableInverse.standard`
inverts by cofactors up to four rows, and by elimination with the largest pivot beyond.
-/
namespace AirTraffic

abbrev Table (m n : Nat) (α : Type) := Vector (Vector α n) m

namespace Table

def ofFn {α : Type} {m n : Nat} (f : Fin m → Fin n → α) : Table m n α :=
  Vector.ofFn fun i => Vector.ofFn fun j => f i j

end Table

/-- Inverts a square table, if it can. -/
class TableInverse (α : Type) where
  inverse? {n : Nat} : Table n n α → Option (Table n n α)

namespace TableInverse

open Scalar

variable {α : Type} [Scalar α]

def minor {n : Nat} (t : Table (n + 1) (n + 1) α) (i j : Fin (n + 1)) : Table n n α :=
  Table.ofFn fun k l =>
    t[if k.val < i.val then k.castSucc else k.succ][if l.val < j.val then l.castSucc else l.succ]

/-- Determinants of up to three rows, as alternating sums over all ways to pick an entry in every
row. -/
def smallDeterminant : {n : Nat} → Table n n α → α
  | 0, _ => one
  | 1, t => t[0][0]
  | 2, t => t[0][0] * t[1][1] - t[1][0] * t[0][1]
  | 3, t =>
    t[0][0] * t[1][1] * t[2][2] - t[0][0] * t[2][1] * t[1][2] - t[0][1] * t[1][0] * t[2][2]
      + t[0][1] * t[2][0] * t[1][2] + t[0][2] * t[1][0] * t[2][1] - t[0][2] * t[2][0] * t[1][1]
  | _ + 4, _ => zero

def cofactor {n : Nat} (t : Table (n + 1) (n + 1) α) (i j : Fin (n + 1)) : α :=
  let d := smallDeterminant (minor t i j)
  if (i.val + j.val) % 2 = 0 then d else -d

def adjugate {n : Nat} (t : Table (n + 1) (n + 1) α) : Table (n + 1) (n + 1) α :=
  Table.ofFn fun i j => cofactor t j i

/-- Up to three rows. Every entry is divided by the determinant, whose inverse may be out of range.
-/
def byDivision? {n : Nat} (t : Table (n + 1) (n + 1) α) : Option (Table (n + 1) (n + 1) α) :=
  let determinant := sum (List.ofFn fun j : Fin (n + 1) => t[(0 : Fin (n + 1))][j] * cofactor t 0 j)
  if determinant == zero then none else some ((adjugate t).map (·.map (· / determinant)))

def byScaling? {n : Nat} (t : Table (n + 1) (n + 1) α) : Option (Table (n + 1) (n + 1) α) :=
  let determinant := sum (List.ofFn fun i : Fin (n + 1) => t[i][(0 : Fin (n + 1))] * cofactor t i 0)
  let scale := one / determinant
  if determinant == zero then none else some ((adjugate t).map (·.map (· * scale)))

abbrev Row (α : Type) := List α

def leading (row : Row α) : α := row.headD zero

def placeOfLargestAfter (place : Nat) (best : α) (next : Nat) : List α → Nat
  | [] => place
  | x :: rest =>
    if best < abs x then placeOfLargestAfter next (abs x) (next + 1) rest
    else placeOfLargestAfter place best (next + 1) rest

def placeOfLargest : List α → Nat
  | [] => 0
  | x :: rest => placeOfLargestAfter 0 (abs x) 1 rest

/-- The row with the largest leading entry, and the others, among which the first row takes its
place. -/
def takePivot? (rows : List (Row α)) : Option (Row α × List (Row α)) := do
  let place := placeOfLargest (rows.map leading)
  let pivot ← rows[place]?
  return (pivot, if place = 0 then rows.tail else rows.tail.set (place - 1) (rows.headD []))

def clear (pivot row : Row α) : Row α :=
  let multiple := leading row * (one / leading pivot)
  List.zipWith (fun p x => x - multiple * p) pivot.tail row.tail

/-- The pivot rows, each a column shorter than the one before. -/
def triangle? : Nat → List (Row α) → Option (List (Row α))
  | 0, _ => some []
  | columns + 1, rows => do
    let (pivot, others) ← takePivot? rows
    if leading pivot == zero then none
    else return pivot :: (← triangle? columns (others.map (clear pivot)))

def solveRow (pivot : Row α) (later : List (Row α)) : Row α :=
  let right := pivot.tail.drop later.length
  let known := List.zip pivot.tail later
  (known.foldr (fun (u, xs) right => List.zipWith (fun r x => r - x * u) right xs) right).map
    (· / leading pivot)

def substituteBack (pivots : List (Row α)) : List (Row α) :=
  pivots.foldr (fun pivot later => solveRow pivot later :: later) []

def byElimination? {n : Nat} (t : Table n n α) : Option (Table n n α) := do
  let unit (i j : Nat) : α := if i = j then one else zero
  let rows := List.ofFn fun i : Fin n => t[i].toList ++ (List.range n).map (unit i)
  let inverse := substituteBack (← triangle? n rows)
  return Table.ofFn fun i j => (inverse.getD i []).getD j zero

def standard? : {n : Nat} → Table n n α → Option (Table n n α)
  | 0, t => some t
  | n + 1, t => if n < 3 then byDivision? t else if n = 3 then byScaling? t else byElimination? t

@[reducible] def standard : TableInverse α := ⟨standard?⟩

end TableInverse
end AirTraffic
