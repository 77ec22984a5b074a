import AirTraffic.Proximity.BallTree
import AirTraffic.Proximity.Criteria
import AirTraffic.Scalar.Word
/-!
# Pairing a stream of reports

Reports arrive in order of time, and each is paired with the earlier ones that are close to it and
not older than a window. The live reports stand in a list by arrival; a ball tree indexes them by
number. Reports that leave the window leave the list at once, while the tree is only told to pass
over their numbers, and is built anew from the live reports once a window.
-/
namespace AirTraffic

open Scalar

/-- The order in which live reports go into a new tree. The pairs found do not depend on it. -/
structure RebuildOrder (β : Type) where
  order : Nat → List β → List β
  perm : ∀ k xs, (order k xs).Perm xs

def RebuildOrder.arrival {β : Type} : RebuildOrder β := ⟨fun _ xs => xs, fun _ _ => .rfl⟩

structure StreamClock where
  current : Int
  nextRebuild : Int
  deriving DecidableEq, Repr

structure PairStream (α ρ : Type) where
  windowMs : Int
  metric : Metric α ρ
  threshold : α
  tree : BallTree α (Report α ρ)
  live : List (Report α ρ)
  /-- Number of the first live report; the others follow. -/
  firstId : Nat
  clock : Option StreamClock
  /-- The most reports that were live at once. -/
  peak : Nat
  rebuilds : Nat
  /-- Distance evaluations so far. -/
  calls : Nat

structure ReportPair (α ρ : Type) where
  newer : Report α ρ
  older : Report α ρ
  distance : α

/-- Both reports say that they are of one aircraft. -/
def ReportPair.sameTrack {α ρ : Type} (p : ReportPair α ρ) : Bool :=
  match p.newer.trackId, p.older.trackId with
  | some a, some b => a == b
  | _, _ => false

namespace PairStream

variable {α ρ : Type} [Scalar α]

/-- A threshold of zero pairs reports at one spot; one that is not a number pairs nothing and is
refused. -/
def start (windowMs : Int) (metric : Metric α ρ) (threshold : α) :
    Except (PairingError α) (PairStream α ρ) :=
  if windowMs ≤ PairingCriteria.windowLimitMs then .error (.windowTooSmall windowMs)
  else if zero ≤ threshold then .ok {
    windowMs, metric, threshold
    tree := .empty
    live := []
    firstId := 0
    clock := none
    peak := 0
    rebuilds := 0
    calls := 0 }
  else .error (.invalidThreshold threshold)

def ofCriteria [Geodesy α] (c : PairingCriteria α) : Except (PairingError α) (PairStream α ρ) :=
  start c.windowMs (Metric.flat c.weights) c.threshold

def size (s : PairStream α ρ) : Nat := s.live.length

def entries (s : PairStream α ρ) : List (Entry (Report α ρ)) :=
  s.live.zipIdx.map fun (r, i) => ⟨s.firstId + i, r⟩

def counting {β : Type} (s : PairStream α ρ) (t : Tally β) : PairStream α ρ :=
  { s with calls := s.calls + t.calls }

/-- The next rebuild is due after a window. As that may be as long as words can tell, sums and
differences with it are those of the machine. -/
def advance (s : PairStream α ρ) (time : Int) : Except (PairingError α) (PairStream α ρ) :=
  match s.clock with
  | none => .ok { s with clock := some ⟨time, Word.sum time s.windowMs⟩ }
  | some clock =>
    if time < clock.current then .error (.outOfOrder clock.current time)
    else .ok { s with clock := some { clock with current := time } }

/-- A report is stale once it is a full window older than the newest. -/
def stale (s : PairStream α ρ) (now : Int) (r : Report α ρ) : Bool :=
  r.time ≤ Word.difference now s.windowMs

def evict (s : PairStream α ρ) (now : Int) : PairStream α ρ :=
  let gone := s.live.takeWhile (s.stale now)
  { s with live := s.live.drop gone.length, firstId := s.firstId + gone.length }

/-- Finds what is close to a report, then adds the report itself. -/
def pairAndInsert (s : PairStream α ρ) (r : Report α ρ) :
    PairStream α ρ × Except MetricError (List (Hit α (Report α ρ))) :=
  let search := (s.tree.within s.metric r s.threshold (s.firstId ≤ ·)).run
  let s := s.counting search
  match search.value with
  | .error e => (s, .error e)
  | .ok hits =>
    let insertion := s.tree.insert s.metric ⟨s.firstId + s.live.length, r⟩
    let s := { s.counting insertion with tree := insertion.value.1 }
    match insertion.value.2 with
    | .error e => (s, .error e)
    | .ok _ => ({ s with live := s.live ++ [r] }, .ok hits)

def treeOf (metric : Metric α ρ) (entries : List (Entry (Report α ρ))) :
    Tally (BallTree α (Report α ρ)) :=
  entries.foldlM (fun tree e => Prod.fst <$> tree.insert metric e) .empty

def rebuild (order : RebuildOrder (Entry (Report α ρ))) (s : PairStream α ρ) : PairStream α ρ :=
  let fresh := treeOf s.metric (order.order s.rebuilds s.entries)
  { s.counting fresh with tree := fresh.value, rebuilds := s.rebuilds + 1 }

def rebuildIfDue (order : RebuildOrder (Entry (Report α ρ))) (s : PairStream α ρ) (now : Int) :
    PairStream α ρ :=
  match s.clock with
  | none => s
  | some clock =>
    if now ≤ clock.nextRebuild then s
    else rebuild order
      { s with clock := some { clock with nextRebuild := Word.sum now s.windowMs } }

def notePeak (s : PairStream α ρ) : PairStream α ρ := { s with peak := max s.peak s.size }

/-- Takes the next report and gives the pairs it forms with earlier ones. A report that cannot be
measured, or that comes out of order, is refused before anything changes. -/
def accept (order : RebuildOrder (Entry (Report α ρ))) (s : PairStream α ρ) (r : Report α ρ) :
    PairStream α ρ × Except (PairingError α) (List (ReportPair α ρ)) :=
  let self := (Tally.measure s.metric r r).run
  let s := s.counting self
  match self.value with
  | .error e => (s, .error (.unmeasurable e))
  | .ok _ =>
    match s.advance r.time with
    | .error e => (s, .error e)
    | .ok s =>
      let (s, found) := (s.evict r.time).pairAndInsert r
      let s := (s.rebuildIfDue order r.time).notePeak
      match found with
      | .error e => (s, .error (.unmeasurable e))
      | .ok hits => (s, .ok (hits.map fun h => ⟨r, h.entry.item, h.distance⟩))

end PairStream
end AirTraffic
