import AirTraffic.Proofs.InPlace.Separation

/-!
# Questions to a profile

What a profile says of an instant is one straight line on each segment, whether it is read off or
carried on at the rate of an earlier instant of the segment. Outside the span there is no answer,
and no step leads back.
-/
namespace AirTraffic

open Scalar

variable {α : Type}

def Axis.other : Axis → Axis
  | horizontal => vertical
  | vertical => horizontal

/-- A question about one instant. -/
inductive Query where
  | value (axis : Axis)
  | closure (axis : Axis)
  | untilZero (axis : Axis)
  /-- The value some milliseconds later, at the rate of the instant. -/
  | after (axis : Axis) (stepMs : Int)
  /-- The other separation at the time at which this one would reach zero. -/
  | otherAtZero (axis : Axis)
  deriving DecidableEq, Repr

def Query.StepsBack : Query → Prop
  | after _ stepMs => stepMs < 0
  | _ => False

namespace SeparationProfile

section Ask

variable [Scalar α] (p : SeparationProfile α)

def ask (t : Int) : Query → Except (SeparationError α) Unit
  | .value .horizontal => (fun _ => ()) <$> p.horizontalAt t
  | .value .vertical => (fun _ => ()) <$> p.verticalAt t
  | .closure .horizontal => (fun _ => ()) <$> p.horizontalClosure t
  | .closure .vertical => (fun _ => ()) <$> p.verticalClosure t
  | .untilZero .horizontal => (fun _ => ()) <$> p.untilHorizontalZero t
  | .untilZero .vertical => (fun _ => ()) <$> p.untilVerticalZero t
  | .after .horizontal stepMs => (fun _ => ()) <$> p.horizontalAfter t stepMs
  | .after .vertical stepMs => (fun _ => ()) <$> p.verticalAfter t stepMs
  | .otherAtZero .horizontal => (fun _ => ()) <$> p.verticalAtHorizontalZero t
  | .otherAtZero .vertical => (fun _ => ()) <$> p.horizontalAtVerticalZero t

/-- The other separation at the time at which that of the axis would reach zero. -/
def otherAtZero (t : Int) (axis : Axis) : Except (SeparationError α) (Option α) := do
  match ← p.untilZero (p.line axis) t with
  | some ms => some <$> p.extrapolate (p.line axis.other) t ms
  | none => return none

variable {p} {axis : Axis} {t stepMs : Int} {value rate : α}

theorem ask_value (t : Int) (axis : Axis) :
    p.ask t (.value axis) = (fun _ => ()) <$> p.valueAt (p.line axis) t := by
  cases axis with
  | horizontal => rfl
  | vertical => rfl

theorem ask_closure (t : Int) (axis : Axis) :
    p.ask t (.closure axis) = (fun _ => ()) <$> p.closureAt (p.line axis) t := by
  have scaled (rate : Except (SeparationError α) α) (unit : α) :
      (fun _ => ()) <$> (do return (← rate) * unit) = (fun _ => ()) <$> rate := by
    cases rate with
    | error e => rfl
    | ok rate => rfl
  cases axis with
  | horizontal => exact scaled _ _
  | vertical => exact scaled _ _

theorem ask_untilZero (t : Int) (axis : Axis) :
    p.ask t (.untilZero axis) = (fun _ => ()) <$> p.untilZero (p.line axis) t := by
  cases axis with
  | horizontal => rfl
  | vertical => rfl

theorem ask_after (t : Int) (axis : Axis) (stepMs : Int) : p.ask t (.after axis stepMs) =
    (fun _ => ()) <$> p.extrapolate (p.line axis) t stepMs := by
  cases axis with
  | horizontal => rfl
  | vertical => rfl

theorem ask_otherAtZero (t : Int) (axis : Axis) :
    p.ask t (.otherAtZero axis) = (fun _ => ()) <$> p.otherAtZero t axis := by
  cases axis with
  | horizontal => rfl
  | vertical => rfl

theorem extrapolate_back (h : stepMs < 0) (line : Polyline α) (t : Int) :
    p.extrapolate line t stepMs = .error (.stepNegative stepMs) := if_pos h

theorem extrapolate_of_read {line : Polyline α} (h : 0 ≤ stepMs)
    (hvalue : p.valueAt line t = .ok value) (hrate : p.closureAt line t = .ok rate) :
    p.extrapolate line t stepMs = .ok (Scalar.abs (value - rate * ofInt stepMs)) := by
  rw [extrapolate, if_neg (Int.not_lt.mpr h)]
  exact bind_of_ok hrate (bind_of_ok hvalue rfl)

theorem untilZero_of_read {line : Polyline α} (hvalue : p.valueAt line t = .ok value)
    (hrate : p.closureAt line t = .ok rate) : p.untilZero line t =
      .ok (if zero < rate then some (truncate (round (value / rate))) else none) :=
  bind_of_ok hvalue (bind_of_ok hrate rfl)

theorem extrapolate_of_outside (outside : ¬p.span.contains t) (h : 0 ≤ stepMs) (axis : Axis) :
    p.extrapolate (p.line axis) t stepMs =
      .error (.outsideSpan t p.span.start p.span.stop) := by
  rw [extrapolate, if_neg (Int.not_lt.mpr h), closureAt_of_outside outside]
  rfl

theorem untilZero_of_outside (outside : ¬p.span.contains t) (axis : Axis) :
    p.untilZero (p.line axis) t = .error (.outsideSpan t p.span.start p.span.stop) := by
  rw [untilZero, valueAt_of_outside outside]
  rfl

theorem otherAtZero_of_outside (outside : ¬p.span.contains t) (axis : Axis) :
    p.otherAtZero t axis = .error (.outsideSpan t p.span.start p.span.stop) := by
  rw [otherAtZero, untilZero_of_outside outside]
  rfl

theorem exists_untilZero (inside : p.span.contains t) (axis : Axis) :
    ∃ ms?, p.untilZero (p.line axis) t = .ok ms? := by
  obtain ⟨value, hvalue⟩ := exists_valueAt inside axis
  obtain ⟨rate, hrate⟩ := exists_closureAt_of_contains inside axis
  exact ⟨_, untilZero_of_read hvalue hrate⟩

theorem exists_extrapolate (inside : p.span.contains t) (h : 0 ≤ stepMs) (axis : Axis) :
    ∃ later, p.extrapolate (p.line axis) t stepMs = .ok later := by
  obtain ⟨value, hvalue⟩ := exists_valueAt inside axis
  obtain ⟨rate, hrate⟩ := exists_closureAt_of_contains inside axis
  exact ⟨_, extrapolate_of_read h hvalue hrate⟩

theorem otherAtZero_of_none (huntil : p.untilZero (p.line axis) t = .ok none) :
    p.otherAtZero t axis = .ok none := by
  rw [otherAtZero, huntil]
  rfl

theorem otherAtZero_of_back {ms : Int} (huntil : p.untilZero (p.line axis) t = .ok (some ms))
    (passed : ms < 0) : p.otherAtZero t axis = .error (.stepNegative ms) := by
  rw [otherAtZero, huntil]
  dsimp only [bind, Except.bind]
  rw [extrapolate_back passed]
  rfl

theorem exists_otherAtZero (inside : p.span.contains t) {ms : Int}
    (huntil : p.untilZero (p.line axis) t = .ok (some ms)) (ahead : 0 ≤ ms) :
    ∃ later, p.otherAtZero t axis = .ok (some later) := by
  obtain ⟨later, hlater⟩ := exists_extrapolate inside ahead axis.other
  refine ⟨later, ?_⟩
  rw [otherAtZero, huntil]
  dsimp only [bind, Except.bind]
  rw [hlater]
  rfl

theorem otherAtZero_cases (inside : p.span.contains t) (axis : Axis) :
    (∃ answer, p.otherAtZero t axis = .ok answer) ∨
      ∃ ms, p.untilZero (p.line axis) t = .ok (some ms) ∧ ms < 0 ∧
        p.otherAtZero t axis = .error (.stepNegative ms) := by
  obtain ⟨ms?, huntil⟩ := exists_untilZero inside axis
  cases ms? with
  | none => exact Or.inl ⟨none, otherAtZero_of_none huntil⟩
  | some ms =>
    by_cases passed : ms < 0
    · exact Or.inr ⟨ms, huntil, passed, otherAtZero_of_back huntil passed⟩
    · obtain ⟨later, hlater⟩ := exists_otherAtZero inside huntil (Int.not_lt.mp passed)
      exact Or.inl ⟨some later, hlater⟩

/-- Which questions are answered. Backward steps are refused at every instant, and all other
questions outside the span. Inside it all others are answered, but for one about a time that has
passed. -/
structure Answering (p : SeparationProfile α) : Prop where
  back : ∀ t axis stepMs, stepMs < 0 → p.ask t (.after axis stepMs) = .error (.stepNegative stepMs)
  outside : ∀ t query, ¬p.span.contains t → ¬query.StepsBack →
    p.ask t query = .error (.outsideSpan t p.span.start p.span.stop)
  inside : ∀ t query, p.span.contains t → ¬query.StepsBack → p.ask t query = .ok () ∨
    ∃ axis ms, query = .otherAtZero axis ∧ p.untilZero (p.line axis) t = .ok (some ms) ∧ ms < 0 ∧
      p.ask t query = .error (.stepNegative ms)

theorem answering (p : SeparationProfile α) : p.Answering where
  back t axis stepMs h := by
    rw [ask_after, extrapolate_back h]
    rfl
  outside t query outside forward := by
    cases query with
    | value axis =>
      rw [ask_value, valueAt_of_outside outside]
      rfl
    | closure axis =>
      rw [ask_closure, closureAt_of_outside outside]
      rfl
    | untilZero axis =>
      rw [ask_untilZero, untilZero_of_outside outside]
      rfl
    | after axis stepMs =>
      rw [ask_after, extrapolate_of_outside outside (Int.not_lt.mp forward)]
      rfl
    | otherAtZero axis =>
      rw [ask_otherAtZero, otherAtZero_of_outside outside]
      rfl
  inside t query inside forward := by
    cases query with
    | value axis =>
      obtain ⟨value, h⟩ := exists_valueAt inside axis
      rw [ask_value, h]
      exact Or.inl rfl
    | closure axis =>
      obtain ⟨rate, h⟩ := exists_closureAt_of_contains inside axis
      rw [ask_closure, h]
      exact Or.inl rfl
    | untilZero axis =>
      obtain ⟨ms?, h⟩ := exists_untilZero inside axis
      rw [ask_untilZero, h]
      exact Or.inl rfl
    | after axis stepMs =>
      obtain ⟨later, h⟩ := exists_extrapolate inside (Int.not_lt.mp forward) axis
      rw [ask_after, h]
      exact Or.inl rfl
    | otherAtZero axis =>
      rw [ask_otherAtZero]
      rcases otherAtZero_cases inside axis with ⟨answer, h⟩ | ⟨ms, huntil, passed, h⟩
      · rw [h]
        exact Or.inl rfl
      · rw [h]
        exact Or.inr ⟨axis, ms, rfl, huntil, passed, rfl⟩

end Ask

variable [ExactScalar α]

/-- What the readings of one separation have to do with each other. Both searches by index find the
segment that the line is read on. -/
structure Coherent (p : SeparationProfile α) (axis : Axis) : Prop where
  value_by_index : ∀ t, InPlace.inSpan p t (InPlace.separationAt p.times (p.values axis) t) =
    .ok (p.valueAt (p.line axis) t)
  closure_by_index : ∀ t, InPlace.inSpan p t (InPlace.closureAt p.times (p.values axis) t) =
    .ok (p.closureAt (p.line axis) t)
  sample : ∀ s ∈ p.samples, p.valueAt (p.line axis) s.time = .ok (s.on axis)
  segment : ∀ s q, [s, q] <:+: p.samples → ∀ t u, s.time ≤ t → t < q.time → t ≤ u → u ≤ q.time →
    ∃ value rate later, p.valueAt (p.line axis) t = .ok value ∧
      p.closureAt (p.line axis) t = .ok rate ∧ p.valueAt (p.line axis) u = .ok later ∧
      later = value - rate * ofInt (u - t) ∧
      p.extrapolate (p.line axis) t (u - t) = .ok |later|
  final : ∀ s, [s, p.last] <:+ p.samples → p.closureAt (p.line axis) p.last.time =
    .ok ((s.on axis - p.last.on axis) / ofInt (p.last.time - s.time))

theorem coherent (p : SeparationProfile α) (axis : Axis) : p.Coherent axis where
  value_by_index := p.inSpan_separationAt axis
  closure_by_index := p.inSpan_closureAt axis
  sample s hs := p.valueAt_sample (·.on axis) hs
  segment s q neighbours t u after before later before' := by
    obtain ⟨earlier, rest, same⟩ := neighbours
    have cut : p.samples = earlier ++ s :: q :: rest := by
      rw [← same, List.append_assoc]
      rfl
    have hvalue := valueAt_between cut after (Int.le_of_lt before) axis
    have hrate := closureAt_of_cut cut after (Int.le_of_lt before) (Or.inl before) axis
    have hlater := valueAt_between cut (Int.le_trans after later) before' axis
    have step := Polyline.between_eq_sub (p := (s.time, s.on axis)) (q := (q.time, q.on axis))
      (neighbours_lt cut) t u
    refine ⟨_, _, _, hvalue, hrate, hlater, step, ?_⟩
    rw [extrapolate_of_read (Int.sub_nonneg.mpr later) hvalue hrate, ← step, ExactScalar.abs_eq]
  final s ends := by
    obtain ⟨earlier, same⟩ := ends
    exact closureAt_of_cut same.symm (Int.le_of_lt (neighbours_lt same.symm)) (Int.le_refl _)
      (Or.inr rfl) axis

/-- A line carried on at its rate is the line read off, to the end of the segment. -/
theorem interpolation_meets_extrapolation (p : SeparationProfile α) :
    (∀ axis, p.Coherent axis) ∧ p.Answering :=
  ⟨p.coherent, p.answering⟩

def fourSamples : SeparationProfile ℚ where
  first := ⟨0, 5, 1000⟩
  rest := [⟨10000, 4, 800⟩, ⟨20000, 3, 600⟩, ⟨30000, 7 / 2, 700⟩]
  rest_ne_nil := by decide
  increasing := by decide

/-- A step back is refused before the span is looked at, outside it and inside it. -/
theorem fourSamples_step_back :
    (¬∀ t query, ¬fourSamples.span.contains t → fourSamples.ask t query =
      .error (.outsideSpan t fourSamples.span.start fourSamples.span.stop)) ∧
    ¬∀ t query, fourSamples.span.contains t → fourSamples.ask t query = .ok () := by
  constructor
  · intro refused
    have answer := refused 30001 (.after .vertical (-1)) (by decide)
    rw [fourSamples.answering.back _ _ _ (by decide)] at answer
    cases answer
  · intro answered
    have answer := answered 5000 (.after .vertical (-1000)) (by decide)
    rw [fourSamples.answering.back _ _ _ (by decide)] at answer
    cases answer

end SeparationProfile
end AirTraffic
