import AirTraffic.Track
/-!
# Neighbours in time

The `k` reports nearest to an instant stand together in a list ordered by time, so they are a
stretch of it, grown outward from the instant one report at a time.
-/
namespace AirTraffic

structure Stretch where
  start : Nat
  length : Nat
  deriving DecidableEq, Repr

namespace Stretch

def stop (s : Stretch) : Nat := s.start + s.length

def indices (s : Stretch) : List Nat := List.range' s.start s.length

def contains (s : Stretch) (i : Nat) : Bool := s.start ≤ i && i < s.stop

def slice {β : Type} (s : Stretch) (xs : List β) : List β := (xs.drop s.start).take s.length

def upTo (start stop : Nat) : Stretch := ⟨start, stop - start⟩

end Stretch

namespace Nearest

/-- How many to take from each side, nearest first, given how far away each is; an equally near
earlier one goes first. -/
def takeSides : Nat → (before after : List Int) → Nat × Nat
  | 0, _, _ => (0, 0)
  | _, [], [] => (0, 0)
  | k + 1, _ :: before, [] => let (l, r) := takeSides k before []; (l + 1, r)
  | k + 1, [], _ :: after => let (l, r) := takeSides k [] after; (l, r + 1)
  | k + 1, b :: before, a :: after =>
    if b ≤ a then let (l, r) := takeSides k before (a :: after); (l + 1, r)
    else let (l, r) := takeSides k (b :: before) after; (l, r + 1)

/-- The `k` instants nearest to `t` in an ordered list of times, or all of them. -/
def stretch (times : List Int) (t : Int) (k : Nat) : Stretch :=
  let before := times.takeWhile (· < t)
  let after := times.dropWhile (· < t)
  let (l, r) := takeSides k (before.reverse.map (t - ·)) (after.map (· - t))
  ⟨before.length - l, l + r⟩

end Nearest

namespace Report

variable {α ρ : Type}

def times (reports : List (Report α ρ)) : List Int := reports.map (·.time)

def nearest (reports : List (Report α ρ)) (t : Int) (k : Nat) : Stretch :=
  Nearest.stretch (times reports) t k

end Report
end AirTraffic
