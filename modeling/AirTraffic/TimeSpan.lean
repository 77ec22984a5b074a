import AirTraffic.Scalar
/-!
# Spans of time

Closed intervals of milliseconds.
-/
namespace AirTraffic

/-- Times, durations and steps are idealised to unbounded integers, as `Report.time` is. -/
structure TimeSpan where
  start : Int
  stop : Int
  start_le_stop : start ≤ stop
  deriving DecidableEq, Repr

namespace TimeSpan

def between (a b : Int) : TimeSpan := ⟨min a b, max a b, by omega⟩

def duration (w : TimeSpan) : Int := w.stop - w.start

def contains (w : TimeSpan) (t : Int) : Bool := w.start ≤ t && t ≤ w.stop

def overlap? (w v : TimeSpan) : Option TimeSpan :=
  if h : max w.start v.start ≤ min w.stop v.stop then
    some ⟨max w.start v.start, min w.stop v.stop, h⟩
  else none

def fraction {α : Type} [Scalar α] (w : TimeSpan) (t : Int) : α :=
  if w.duration = 0 then Scalar.zero else Scalar.ofInt (t - w.start) / Scalar.ofInt w.duration

/-- Every `step` milliseconds from the start, and the end. A step that does not lead forward leaves
the two ends. -/
def steps (w : TimeSpan) (step : Int) : List Int :=
  if 0 < step then
    let count := ((w.duration + step - 1) / step).toNat
    (List.range count).map (fun i : Nat => w.start + i * step) ++ [w.stop]
  else if w.start = w.stop then [w.start]
  else [w.start, w.stop]

end TimeSpan
end AirTraffic
