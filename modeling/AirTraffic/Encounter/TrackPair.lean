import AirTraffic.Encounter.Instant
import AirTraffic.Encounter.Profile
import AirTraffic.Track
/-!
# Two tracks over their common time

The separation of two tracks is sampled over the span in which both have reports, more finely while
they are close.
-/
namespace AirTraffic

open Scalar

structure TrackPair (α ρ : Type) where
  first : Track α ρ
  second : Track α ρ
  /-- A profile made beforehand, used in place of the finely sampled one. -/
  fixedProfile : Option (SeparationProfile α)

namespace TrackPair

variable {α ρ : Type} [Scalar α]

def of (first second : Track α ρ) : TrackPair α ρ := ⟨first, second, none⟩

def sampleStepMs (nm : α) : Nat :=
  if nm < ofInt 15 then 2500
  else if nm < ofInt 30 then 5000
  else if nm < ofInt 50 then 10000
  else 20000

theorem sampleStepMs_pos (nm : α) : 0 < sampleStepMs nm := by
  unfold sampleStepMs
  repeat' split
  all_goals decide

variable (p : TrackPair α ρ)

def overlap? : Option TimeSpan := p.first.span.overlap? p.second.span

def overlapContains (time : Int) : Bool := p.overlap?.any (·.contains time)

/-- Every `stepMs` of the overlap, and its end. -/
def overlapSteps (stepMs : Int) : List Int := (p.overlap?.map (·.steps stepMs)).getD []

def overlap : Except (SeparationError α) TimeSpan :=
  match p.overlap? with
  | some span => .ok span
  | none => .error .noOverlap

variable [Geodesy α]

def instantAt (time : Int) : Except (SeparationError α) (Instant α ρ) := do
  let overlap ← p.overlap
  match p.first.at? time, p.second.at? time with
  | some r, some q => return ⟨r, q⟩
  | _, _ => throw (.outsideSpan time overlap.start overlap.stop)

def separationAt (time : Int) : Except (SeparationError α) (Separation α) := do
  let instant ← p.instantAt time
  return ⟨time, instant.lateral, ← instant.altitudeDelta⟩

def profileOfStep (stepMs : Int) : Except (SeparationError α) (SeparationProfile α) := do
  if stepMs ≤ 0 then throw (.stepNotPositive stepMs)
  SeparationProfile.ofSamples (← (p.overlapSteps stepMs).mapM p.separationAt)

/-- Samples from an instant on to the end of the overlap. -/
def sampleFrom (stop time : Int) : Except (SeparationError α) (List (Separation α)) :=
  if time < stop then do
    let sample ← p.separationAt time
    return sample :: (← sampleFrom stop (time + sampleStepMs sample.horizontalNm))
  else do
    return [← p.separationAt stop]
termination_by (stop - time).toNat
decreasing_by
  have := sampleStepMs_pos sample.horizontalNm
  omega

/-- The times of the samples are idealised to unbounded integers: where the machine's last time is
less than a step away, the step does not fit in its words. -/
def finelySampled : Except (SeparationError α) (SeparationProfile α) := do
  let overlap ← p.overlap
  SeparationProfile.ofSamples (← p.sampleFrom overlap.stop overlap.start)

def profile : Except (SeparationError α) (SeparationProfile α) :=
  match p.fixedProfile with
  | some profile => .ok profile
  | none => p.finelySampled

def withStep (stepMs : Int) : Except (SeparationError α) (TrackPair α ρ) := do
  return { p with fixedProfile := some (← p.profileOfStep stepMs) }

def scanStepMs : Int := 2000

def anyFurther (nm : α) : List Int → Except (SeparationError α) Bool
  | [] => .ok false
  | time :: rest => do
    let instant ← p.instantAt time
    if nm < instant.lateral then return true else anyFurther nm rest

/-- Whether the tracks are ever more than a distance apart. -/
def everFurther (nm : α) : Except (SeparationError α) Bool := do
  p.anyFurther nm ((← p.overlap).steps scanStepMs)

def comesWithin (nm : α) : Except (SeparationError α) Bool := do
  return (← p.profile).samples.any fun s => s.horizontalNm ≤ nm

def comesWithinBoth (nm ft : α) : Except (SeparationError α) Bool := do
  return (← p.profile).samples.any fun s => s.horizontalNm ≤ nm && s.verticalFt ≤ ft

end TrackPair
end AirTraffic
