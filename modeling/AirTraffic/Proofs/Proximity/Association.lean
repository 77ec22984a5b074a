import AirTraffic.Proofs.Basic
import AirTraffic.Proofs.Proximity.Pairing
import AirTraffic.Proximity.Association

/-!
# Association misses nothing and invents nothing

Any two reports meet in the stream, the newer one after the other, so what the stream pairs
can be said of the tracks alone. The order among simultaneous reports is left open.
-/
namespace AirTraffic

variable {α ρ : Type}

namespace PairingCriteria

variable [ExactScalar α]

end PairingCriteria

namespace Association

section Identified

variable {tracks : List (Track α ρ)} {a b : Nat} {s t : Track α ρ}

end Identified

theorem stream_perm (tracks : List (Track α ρ)) :
    (stream tracks).Perm (tracks.flatMap (·.reports)) := List.mergeSort_perm ..

theorem stream_ordered (tracks : List (Track α ρ)) :
    (stream tracks).Pairwise fun r q => r.time ≤ q.time := by
  have sorted : (stream tracks).Pairwise fun r q => decide (r.time ≤ q.time) := by
    refine List.pairwise_mergeSort ?_ ?_ _
    · intro a b c hab hbc
      simp only [decide_eq_true_eq] at *
      omega
    · intro a b
      simp only [Bool.or_eq_true, decide_eq_true_eq]
      omega
  exact sorted.imp of_decide_eq_true

section Stream

variable [ExactScalar α] {d : Report α ρ → Report α ρ → α} {windowMs : Int}
  {metric : Metric α ρ} {threshold : α}

end Stream

section Tracks

variable [ExactScalar α] [Geodesy α]

/-- Close in time and in the weighted sum of distance and time. -/
def CloseReports (criteria : PairingCriteria α) (p q : Report α ρ) : Prop :=
  |p.time - q.time| < criteria.windowMs ∧
    criteria.weights.distance * (p.distanceTo q * Units.feetPerNm) +
      criteria.weights.time * (|p.time - q.time| : ℤ) ≤ criteria.threshold

instance (criteria : PairingCriteria α) (p q : Report α ρ) :
    Decidable (CloseReports criteria p q) := inferInstanceAs (Decidable (_ ∧ _))

theorem CloseReports.symm (hg : Geodesy.IsPseudoMetric α) {criteria : PairingCriteria α}
    {p q : Report α ρ} (h : CloseReports criteria p q) : CloseReports criteria q p := by
  unfold CloseReports Report.distanceTo at *
  rw [abs_sub_comm q.time, hg.symm q.position]
  exact h

variable {criteria : PairingCriteria α} {tracks : List (Track α ρ)}
  {reports : List (Report α ρ)}

end Tracks

def trackOf (id : String) (time : Int) (latitude : ℚ) : Track ℚ Unit where
  reports := [time, time + 5000].map fun time =>
    { PairStream.reportAt time latitude none with trackId := some id }
  reports_ne_nil := by simp

/-- The first two fly three miles apart, and the third is far to the north. -/
def threeTracks : List (Track ℚ Unit) :=
  [trackOf "A" 0 50, trackOf "B" 1000 (50 + 1 / 20), trackOf "C" 0 60]

end Association
end AirTraffic
