import AirTraffic.Encounter.Error
import AirTraffic.Polyline
import AirTraffic.TimeSpan
/-!
# Separation over time

Horizontal and vertical separation of two aircraft, sampled at increasing times and read off between
the samples. Closure rates are positive while a separation shrinks.
-/
namespace AirTraffic

open Scalar

structure Separation (α : Type) where
  time : Int
  horizontalNm : α
  verticalFt : α
  deriving Repr

def timesIncrease {α : Type} (samples : List (Separation α)) : Prop :=
  samples.Pairwise (·.time < ·.time)

def neighboursIncrease {α : Type} : List (Separation α) → Bool
  | a :: b :: rest => a.time < b.time && neighboursIncrease (b :: rest)
  | _ => true

theorem neighboursIncrease_iff {α : Type} (samples : List (Separation α)) :
    neighboursIncrease samples = true ↔ timesIncrease samples := by
  unfold timesIncrease
  fun_induction neighboursIncrease samples with
  | case1 a b rest ih =>
    rw [Bool.and_eq_true, decide_eq_true_eq, ih]
    constructor
    · rintro ⟨h, hp⟩
      refine List.pairwise_cons.2 ⟨fun c hc => ?_, hp⟩
      rcases List.mem_cons.1 hc with rfl | hc
      · exact h
      · exact Int.lt_trans h ((List.pairwise_cons.1 hp).1 c hc)
    · intro hp
      obtain ⟨h, hp⟩ := List.pairwise_cons.1 hp
      exact ⟨h b List.mem_cons_self, hp⟩
  | case2 samples h =>
    match samples, h with
    | [], _ => simp
    | [_], _ => simp
    | a :: b :: rest, h => exact absurd rfl (h a b rest)

instance {α : Type} (samples : List (Separation α)) : Decidable (timesIncrease samples) :=
  decidable_of_iff _ (neighboursIncrease_iff samples)

structure SeparationProfile (α : Type) where
  first : Separation α
  rest : List (Separation α)
  rest_ne_nil : rest ≠ []
  increasing : timesIncrease (first :: rest)

namespace SeparationProfile

variable {α : Type} [Scalar α]

def ofSamples : List (Separation α) → Except (SeparationError α) (SeparationProfile α)
  | [] => .error (.tooFewSamples 0)
  | [_] => .error (.tooFewSamples 1)
  | first :: second :: rest =>
    if h : timesIncrease (first :: second :: rest) then .ok ⟨first, second :: rest, by simp, h⟩
    else .error .timesNotIncreasing

def ofLists (times : List Int) (vertical horizontal : List α) :
    Except (SeparationError α) (SeparationProfile α) :=
  if times.length < 2 then .error (.tooFewSamples times.length)
  else if times.length ≠ vertical.length ∨ times.length ≠ horizontal.length then
    .error .unequalLengths
  else ofSamples (times.zip (horizontal.zip vertical) |>.map fun s => ⟨s.1, s.2.1, s.2.2⟩)

variable (p : SeparationProfile α)

def samples : List (Separation α) := p.first :: p.rest

def last : Separation α := p.rest.getLast p.rest_ne_nil

def span : TimeSpan := .between p.first.time p.last.time

def horizontal : Polyline α := p.samples.map fun s => (s.time, s.horizontalNm)

def vertical : Polyline α := p.samples.map fun s => (s.time, s.verticalFt)

def inSpan {β : Type} (time : Int) (value : Option β) : Except (SeparationError α) β :=
  match value with
  | some v => .ok v
  | none => .error (.outsideSpan time p.span.start p.span.stop)

def valueAt (line : Polyline α) (time : Int) : Except (SeparationError α) α :=
  p.inSpan time (line.value? time)

/-- Per millisecond. -/
def closureAt (line : Polyline α) (time : Int) : Except (SeparationError α) α :=
  p.inSpan time (line.descent? time)

/-- Milliseconds until the line would reach zero, if it falls. -/
def untilZero (line : Polyline α) (time : Int) : Except (SeparationError α) (Option Int) := do
  let value ← p.valueAt line time
  let rate ← p.closureAt line time
  return if zero < rate then some (truncate (round (value / rate))) else none

def extrapolate (line : Polyline α) (time stepMs : Int) : Except (SeparationError α) α :=
  if stepMs < 0 then .error (.stepNegative stepMs)
  else do
    let rate ← p.closureAt line time
    let value ← p.valueAt line time
    return abs (value - rate * ofInt stepMs)

def horizontalAt (time : Int) : Except (SeparationError α) α := p.valueAt p.horizontal time

def verticalAt (time : Int) : Except (SeparationError α) α := p.valueAt p.vertical time

/-- Knots. -/
def horizontalClosure (time : Int) : Except (SeparationError α) α := do
  return (← p.closureAt p.horizontal time) * Units.msPerHour

/-- Feet per second. -/
def verticalClosure (time : Int) : Except (SeparationError α) α := do
  return (← p.closureAt p.vertical time) * Units.msPerSecond

def untilHorizontalZero (time : Int) : Except (SeparationError α) (Option Int) :=
  p.untilZero p.horizontal time

def untilVerticalZero (time : Int) : Except (SeparationError α) (Option Int) :=
  p.untilZero p.vertical time

def horizontalAfter (time stepMs : Int) : Except (SeparationError α) α :=
  p.extrapolate p.horizontal time stepMs

def verticalAfter (time stepMs : Int) : Except (SeparationError α) α :=
  p.extrapolate p.vertical time stepMs

def verticalAtHorizontalZero (time : Int) : Except (SeparationError α) (Option α) := do
  match ← p.untilHorizontalZero time with
  | some ms => some <$> p.verticalAfter time ms
  | none => return none

def horizontalAtVerticalZero (time : Int) : Except (SeparationError α) (Option α) := do
  match ← p.untilVerticalZero time with
  | some ms => some <$> p.horizontalAfter time ms
  | none => return none

/-- The sample of least horizontal separation, the first of equals. -/
def closest : Separation α :=
  p.rest.foldl (fun best s => if s.horizontalNm < best.horizontalNm then s else best) p.first

end SeparationProfile
end AirTraffic
