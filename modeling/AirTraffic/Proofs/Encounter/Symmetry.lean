import AirTraffic.Proofs.Scalar.Magnitude
import AirTraffic.Proofs.Encounter.Coverage
import AirTraffic.Proofs.TimeSpan

/-!
# Which of two tracks comes first

Two tracks overlap, are sampled and come close alike in either order, and what cannot be said of
them fails for the same cause. All that this takes is that distances do not depend on the order: the
overlap is the same, both tracks are read at the same instants, and the reports read there carry the
time that an error names.
-/
namespace AirTraffic

open Scalar

variable {α ρ : Type}

section Time

variable [Scalar α]

theorem ReportDraft.time_of_build {d : ReportDraft α ρ} {r : Report α ρ} (h : d.build = .ok r) :
    d.time = some r.time := by
  obtain ⟨time, htime, h⟩ := exists_of_bind h
  obtain ⟨position, -, h⟩ := exists_of_bind h
  obtain ⟨checked, -, h⟩ := exists_of_bind h
  obtain ⟨altitude, -, h⟩ := exists_of_bind h
  obtain ⟨speed, -, h⟩ := exists_of_bind h
  obtain ⟨course, -, h⟩ := exists_of_bind h
  obtain ⟨curvature, -, h⟩ := exists_of_bind h
  obtain ⟨along, -, h⟩ := exists_of_bind h
  obtain rfl := Except.ok.inj h
  cases hd : d.time with
  | none =>
    rw [hd] at htime
    cases htime
  | some t =>
    rw [hd] at htime
    exact congrArg some (Except.ok.inj htime)

variable [Geodesy α]

theorem Report.time_of_blend {p q r : Report α ρ} {time : Int} (h : p.blend q time = .ok r) :
    r.time = time := by
  unfold Report.blend at h
  split at h
  · cases h
  split at h
  · cases h
  split at h
  case isTrue same =>
    obtain rfl := Except.ok.inj h
    exact same.symm
  split at h
  case isTrue same =>
    obtain rfl := Except.ok.inj h
    exact same.symm
  dsimp only at h
  split at h
  · cases h
  cases built : (p.blendDraft q time (ofInt (time - p.time) / ofInt (q.time - p.time))).build with
  | error e =>
    rw [built] at h
    cases h
  | ok r' =>
    rw [built] at h
    obtain rfl := Except.ok.inj h
    exact (Option.some.inj (ReportDraft.time_of_build built)).symm

theorem Track.time_of_at? {t : Track α ρ} (ordered : t.Ordered) {time : Int} {r : Report α ρ}
    (h : t.at? time = some r) : r.time = time := by
  have inside : t.span.contains time := by
    by_contra outside
    rw [Track.at?_of_outside outside] at h
    cases h
  rcases Track.at?_cases ordered inside with ⟨s, -, hs, hat⟩ | ⟨p, q, -, -, -, hat⟩
  · obtain rfl := Option.some.inj (hat.symm.trans h)
    exact hs
  · cases hblend : p.blend q time with
    | error e =>
      rw [hat, hblend] at h
      cases h
    | ok s =>
      rw [hat, hblend] at h
      obtain rfl := Option.some.inj h
      exact Report.time_of_blend hblend

end Time

namespace Instant

def swap (p : Instant α ρ) : Instant α ρ := ⟨p.second, p.first⟩

theorem altitudeDelta_swap [Scalar α] [AbsSubComm α] {p : Instant α ρ}
    (simultaneous : p.first.time = p.second.time) : p.swap.altitudeDelta = p.altitudeDelta := by
  unfold altitudeDelta altitude required swap
  cases p.first.altitude with
  | none =>
    cases p.second.altitude with
    | none =>
      have same := congrArg (SeparationError.missing (α := α) · .altitude) simultaneous.symm
      exact congrArg Except.error same
    | some b => rfl
  | some a =>
    cases p.second.altitude with
    | none => rfl
    | some b => exact congrArg Except.ok (AbsSubComm.abs_sub_comm b a)

end Instant

namespace TrackPair

/-- The tracks exchanged; samples made beforehand stay. -/
def swap (p : TrackPair α ρ) : TrackPair α ρ := ⟨p.second, p.first, p.fixedProfile⟩

/-- Nothing that is asked of the separation of two pairs tells them apart. -/
structure SameSeparation [Scalar α] [Geodesy α] (p q : TrackPair α ρ) : Prop where
  overlap : p.overlap? = q.overlap?
  overlapSteps : ∀ stepMs, p.overlapSteps stepMs = q.overlapSteps stepMs
  finelySampled : p.finelySampled = q.finelySampled
  profileOfStep : ∀ stepMs, p.profileOfStep stepMs = q.profileOfStep stepMs
  profile : p.profile = q.profile
  everFurther : ∀ nm, p.everFurther nm = q.everFurther nm
  comesWithin : ∀ nm, p.comesWithin nm = q.comesWithin nm
  comesWithinBoth : ∀ nm ft, p.comesWithinBoth nm ft = q.comesWithinBoth nm ft

theorem overlap?_swap (p : TrackPair α ρ) : p.swap.overlap? = p.overlap? :=
  TimeSpan.overlap?_comm p.second.span p.first.span

section Questions

variable [Scalar α] [Geodesy α] {p q : TrackPair α ρ}

theorem instantAt_swap (p : TrackPair α ρ) (time : Int) :
    p.swap.instantAt time = Instant.swap <$> p.instantAt time := by
  unfold instantAt overlap
  rw [overlap?_swap]
  cases p.overlap? with
  | none => rfl
  | some span =>
    simp only [swap]
    cases p.first.at? time with
    | none => cases p.second.at? time <;> rfl
    | some r => cases p.second.at? time <;> rfl

theorem sampleFrom_congr (same : ∀ u, p.separationAt u = q.separationAt u) (stop time : Int) :
    p.sampleFrom stop time = q.sampleFrom stop time := by
  fun_induction sampleFrom p stop time with
  | case1 time before ih =>
    rw [sampleFrom, if_pos before, ← same time]
    cases p.separationAt time with
    | error e => rfl
    | ok s => exact congrArg (· >>= fun rest => .ok (s :: rest)) (ih s)
  | case2 time after => rw [sampleFrom, if_neg after, same stop]

end Questions

section Symmetric

variable [Scalar α] [Geodesy α] {p : TrackPair α ρ}
  (symmetric : ∀ a b : Position α, Geodesy.distance a b = Geodesy.distance b a)

include symmetric

theorem anyFurther_swap (nm : α) (times : List Int) :
    p.swap.anyFurther nm times = p.anyFurther nm times := by
  induction times with
  | nil => rfl
  | cons time rest ih =>
    rw [anyFurther, anyFurther, instantAt_swap, ih]
    cases p.instantAt time with
    | error e => rfl
    | ok instant =>
      have lateral : instant.swap.lateral = instant.lateral := symmetric _ _
      simp only [Functor.map, Except.map, bind, Except.bind, lateral]

variable [AbsSubComm α] (hfirst : p.first.Ordered) (hsecond : p.second.Ordered)

include hfirst hsecond

theorem separationAt_swap (time : Int) : p.swap.separationAt time = p.separationAt time := by
  rw [separationAt, separationAt, instantAt_swap]
  cases hinstant : p.instantAt time with
  | error e => rfl
  | ok instant =>
    have simultaneous : instant.first.time = instant.second.time := by
      obtain ⟨span, hoverlap, -⟩ := exists_of_bind hinstant
      rcases instantAt_cases hoverlap time with ⟨r, s, hr, hs, known⟩ | ⟨-, unknown⟩
      · obtain rfl := Except.ok.inj (hinstant.symm.trans known)
        exact (Track.time_of_at? hfirst hr).trans (Track.time_of_at? hsecond hs).symm
      · exact absurd (hinstant.symm.trans unknown) (by simp)
    have delta := Instant.altitudeDelta_swap simultaneous
    have lateral : instant.swap.lateral = instant.lateral := symmetric _ _
    simp only [Functor.map, Except.map, bind, Except.bind, delta, lateral]

/-- The separation of two tracks is the same in either order, errors included. -/
theorem separation_ignores_order : p.swap.SameSeparation p := by
  have overlap := p.overlap?_swap
  have separation := separationAt_swap symmetric hfirst hsecond
  have steps : ∀ stepMs, p.swap.overlapSteps stepMs = p.overlapSteps stepMs := by
    intro stepMs
    rw [overlapSteps, overlap]
    rfl
  have sampled : p.swap.finelySampled = p.finelySampled := by
    simp only [finelySampled, TrackPair.overlap, overlap, sampleFrom_congr separation]
  have profile : p.swap.profile = p.profile := by
    rw [TrackPair.profile, sampled]
    rfl
  constructor
  · exact overlap
  · exact steps
  · exact sampled
  · intro stepMs
    simp only [profileOfStep, steps stepMs, funext separation]
  · exact profile
  · intro nm
    simp only [everFurther, TrackPair.overlap, overlap, anyFurther_swap symmetric]
  · intro nm
    rw [comesWithin, profile]
    rfl
  · intro nm ft
    rw [comesWithinBoth, profile]
    rfl

end Symmetric

def northwardAt (p : Int × Float × Float) : Report Float Unit where
  time := p.1
  position := ⟨p.2.1, 0⟩
  altitude := some p.2.2
  speed := none
  course := none
  curvature := none
  alongTrackDistance := none
  trackId := none
  payload := ()

def climbingNorth : Track Float Unit :=
  ⟨[(0, 40.1, 5000.0), (20000, 40.3, 5100.7)].map northwardAt, by simp⟩

def levelSouth : Track Float Unit :=
  ⟨[(2000, 40.6, 5050.0), (7000, 40.5, 5050.0), (17000, 40.3, 5050.0)].map northwardAt, by simp⟩

/-- The two have fifteen seconds in common, in which they are sampled five times. -/
theorem climbingNorth_from_either_side :
    let _ : Geodesy Float := Geodesy.meridian Float
    (TrackPair.of climbingNorth levelSouth).profile.toOption.map (·.samples.length) = some 5 ∧
      (TrackPair.of levelSouth climbingNorth).SameSeparation (.of climbingNorth levelSouth) := by
  intro meridian
  have symmetric : ∀ a b : Position Float, meridian.distance a b = meridian.distance b a := by
    intro a b
    exact congrArg (fun d : Float => Units.earthRadiusNm * (Units.radiansPerDegree * d))
      (AbsSubComm.abs_sub_comm a.latitude b.latitude)
  refine ⟨by decide +kernel, ?_⟩
  exact separation_ignores_order (p := .of climbingNorth levelSouth) symmetric
    (by decide) (by decide)

end TrackPair
end AirTraffic
