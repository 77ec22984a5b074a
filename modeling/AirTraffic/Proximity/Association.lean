import AirTraffic.Proximity.Stream
import AirTraffic.Track
/-!
# Associated tracks

Two tracks are associated when a report of one pairs with a report of the other.
-/
namespace AirTraffic.Association

variable {α ρ : Type} [Scalar α] [Geodesy α]

def stream (tracks : List (Track α ρ)) : List (Report α ρ) :=
  (tracks.flatMap (·.reports)).mergeSort fun r q => r.time ≤ q.time

/-- Index of the last track of that identity. -/
def indexOf? (tracks : List (Track α ρ)) (id : String) : Option Nat :=
  (tracks.zipIdx.reverse.find? fun p => p.1.id? == some id).map (·.2)

def tracksOf? (tracks : List (Track α ρ)) (p : ReportPair α ρ) : Option (Nat × Nat) := do
  let a ← indexOf? tracks (← p.newer.trackId)
  let b ← indexOf? tracks (← p.older.trackId)
  guard (a ≠ b)
  return (min a b, max a b)

def pairs (order : RebuildOrder (Entry (Report α ρ))) (s : PairStream α ρ) :
    List (Report α ρ) → Except (PairingError α) (List (ReportPair α ρ))
  | [] => .ok []
  | r :: rest =>
    match s.accept order r with
    | (_, .error e) => .error e
    | (s, .ok found) => (found ++ ·) <$> pairs order s rest

def before (p q : Nat × Nat) : Bool := p.1 < q.1 || (p.1 == q.1 && p.2 ≤ q.2)

/-- Indices of associated tracks, in order and each once. -/
def candidates (order : RebuildOrder (Entry (Report α ρ))) (tracks : List (Track α ρ))
    (criteria : PairingCriteria α) : Except (PairingError α) (List (Nat × Nat)) := do
  let start ← PairStream.ofCriteria criteria
  let found ← pairs order start (stream tracks)
  return ((found.filterMap (tracksOf? tracks)).eraseDups).mergeSort before

end AirTraffic.Association
