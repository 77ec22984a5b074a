import Mathlib.Order.Interval.Set.OrdConnected
import AirTraffic.Proofs.Polyline.Exact
import AirTraffic.Proofs.Cleaning.Guarantees
import AirTraffic.Proofs.Track.Reading

/-!
# Gaps in the altitudes

Between two known altitudes a gap is filled along the line from the one to the other, at an end of
the track with the one that is nearest. That leaves nothing to fill.
-/
namespace AirTraffic.MissingValues

open Report

variable {α ρ : Type}

section Gap

variable {gap : List (Report α ρ)} (unknown : ∀ r ∈ gap, r.altitude = none)

include unknown

theorem findSome?_of_unknown (rest : List (Report α ρ)) :
    (gap ++ rest).findSome? known? = rest.findSome? known? := by
  have none : gap.findSome? known? = none :=
    List.findSome?_eq_none_iff.mpr fun r hr => Option.map_eq_none_iff.mpr (unknown r hr)
  rw [List.findSome?_append, none, Option.none_or]

variable [Scalar α]

theorem fillAltitudesFrom_gap (before : Option (Int × α)) (rest : List (Report α ρ)) :
    fillAltitudesFrom before (gap ++ rest) =
      (gap.map fun r => r.withAltitude (estimate? before (rest.findSome? known?) r.time)) ++
        fillAltitudesFrom before rest := by
  induction gap with
  | nil => rfl
  | cons r gap ih =>
    obtain ⟨hr, hgap⟩ := List.forall_mem_cons.mp unknown
    have own : known? r = none := Option.map_eq_none_iff.mpr hr
    rw [List.cons_append, fillAltitudesFrom, own, ih hgap, findSome?_of_unknown hgap]
    rfl

omit unknown in
theorem fillAltitudesFrom_split (before : Option (Int × α)) (early : List (Report α ρ))
    {p : Report α ρ} {a : α} (hp : p.altitude = some a) :
    ∃ filled : List (Report α ρ), filled.length = early.length ∧ ∀ late,
      fillAltitudesFrom before (early ++ p :: late) =
        filled ++ p :: fillAltitudesFrom (some (p.time, a)) late := by
  have own : known? p = some (p.time, a) := congrArg (Option.map (p.time, ·)) hp
  induction early generalizing before with
  | nil =>
    refine ⟨[], rfl, fun late => ?_⟩
    rw [List.nil_append, fillAltitudesFrom, own]
    rfl
  | cons r early ih =>
    cases hr : known? r with
    | some q =>
      obtain ⟨filled, length, rest⟩ := ih (some q)
      refine ⟨r :: filled, congrArg Nat.succ length, fun late => ?_⟩
      rw [List.cons_append, fillAltitudesFrom, hr]
      exact congrArg (r :: ·) (rest late)
    | none =>
      obtain ⟨filled, length, rest⟩ := ih before
      have ahead (late : List (Report α ρ)) : (early ++ p :: late).findSome? known? =
          (early.findSome? known?).or (some (p.time, a)) := by
        rw [List.findSome?_append, List.findSome?_cons, own]
      refine ⟨r.withAltitude (estimate? before
        ((early.findSome? known?).or (some (p.time, a))) r.time) :: filled,
        congrArg Nat.succ length, fun late => ?_⟩
      rw [List.cons_append, fillAltitudesFrom, hr, ahead]
      exact congrArg (_ :: ·) (rest late)

end Gap

section Whole

variable [Scalar α] {reports out : List (Report α ρ)}

theorem fillAltitudes_eq_none_iff :
    fillAltitudes reports = none ↔ ∀ r ∈ reports, r.altitude = none := by
  rw [fillAltitudes, ite_eq_right_iff]
  simp

theorem fillAltitudesFrom_of_known (before : Option (Int × α))
    (known : ∀ r ∈ reports, r.altitude.isSome) : fillAltitudesFrom before reports = reports := by
  induction reports generalizing before with
  | nil => rfl
  | cons r rest ih =>
    obtain ⟨hr, hrest⟩ := List.forall_mem_cons.mp known
    obtain ⟨a, ha⟩ := Option.isSome_iff_exists.mp hr
    have own : known? r = some (r.time, a) := congrArg (Option.map (r.time, ·)) ha
    rw [fillAltitudesFrom, own]
    exact congrArg (r :: ·) (ih _ hrest)

theorem fillAltitudesFrom_keeps (before : Option (Int × α)) (reports : List (Report α ρ)) :
    List.Forall₂ (fun new old => new = { old with altitude := new.altitude } ∧
      ∀ a ∈ old.altitude, new.altitude = some a) (fillAltitudesFrom before reports) reports := by
  fun_induction fillAltitudesFrom before reports with
  | case1 => exact .nil
  | case2 before r rest p hp ih => exact .cons ⟨rfl, fun a ha => ha⟩ ih
  | case3 before r rest hr ih =>
    refine .cons ⟨rfl, fun a ha => ?_⟩ ih
    rw [Option.map_eq_none_iff.mp hr] at ha
    cases ha

theorem times_fillAltitudesFrom (before : Option (Int × α)) (reports : List (Report α ρ)) :
    times (fillAltitudesFrom before reports) = times reports := by
  rw [times, times, ← List.forall₂_eq_eq_eq, List.forall₂_map_left_iff, List.forall₂_map_right_iff]
  refine (fillAltitudesFrom_keeps before reports).imp ?_
  intro new old kept
  rw [kept.1]

end Whole

section Exact

variable [ExactScalar α]

/-- By the fraction of the time that has passed; of two altitudes at once the first. -/
def interpolated (p q : Int × α) (t : Int) : α :=
  if q.1 = p.1 then p.2 else p.2 + ((t - p.1 : Int) : α) / ((q.1 - p.1 : Int) : α) * (q.2 - p.2)

theorem estimate?_between (p q : Int × α) (t : Int) :
    estimate? (some p) (some q) t = some (interpolated p q t) := by
  unfold estimate? interpolated Polyline.between Scalar.lerp
  simp only [ExactScalar.ofInt_eq, ExactScalar.zero_eq, zero_mul, add_zero]

theorem interpolated_mem {p q : Int × α} {t : Int} (after : p.1 ≤ t) (before : t ≤ q.1) :
    interpolated p q t ∈ Set.uIcc p.2 q.2 := by
  by_cases same : q.1 = p.1
  · rw [interpolated, if_pos same]
    exact Set.left_mem_uIcc
  · have forward : p.1 < q.1 := by omega
    have line : interpolated p q t = Polyline.between p q t := by
      rw [interpolated, if_neg same, Polyline.between, Scalar.lerp, ExactScalar.ofInt_eq,
        ExactScalar.ofInt_eq]
    rw [line, Set.mem_uIcc]
    rcases le_total p.2 q.2 with up | down
    · exact Or.inl ⟨Polyline.le_between forward after before le_rfl up,
        Polyline.between_le forward after before up le_rfl⟩
    · exact Or.inr ⟨Polyline.le_between forward after before down le_rfl,
        Polyline.between_le forward after before le_rfl down⟩

theorem fillAltitudesFrom_mem {s : Set α} (connected : s.OrdConnected) (before : Option (Int × α))
    (reports : List (Report α ρ)) (order : InOrder reports)
    (start : ∀ p ∈ before, p.2 ∈ s ∧ ∀ r ∈ reports, p.1 ≤ r.time)
    (known : ∀ r ∈ reports, ∀ a ∈ r.altitude, a ∈ s) :
    ∀ r ∈ fillAltitudesFrom before reports, ∀ a ∈ r.altitude, a ∈ s := by
  rw [inOrder_iff] at order
  fun_induction fillAltitudesFrom before reports with
  | case1 => exact List.forall_mem_nil _
  | case2 before r rest p hp ih =>
    obtain ⟨later, order⟩ := List.pairwise_cons.mp order
    obtain ⟨own, known⟩ := List.forall_mem_cons.mp known
    obtain ⟨a, ha, rfl⟩ := Option.map_eq_some_iff.mp hp
    refine List.forall_mem_cons.mpr ⟨own, ih order ?_ known⟩
    rintro _ ⟨⟩
    exact ⟨own a ha, later⟩
  | case3 before r rest hr ih =>
    obtain ⟨later, order⟩ := List.pairwise_cons.mp order
    obtain ⟨-, known⟩ := List.forall_mem_cons.mp known
    have ahead : ∀ q ∈ rest.findSome? known?, q.2 ∈ s ∧ r.time ≤ q.1 := by
      intro q hq
      obtain ⟨x, hx, found⟩ := List.exists_of_findSome?_eq_some hq
      obtain ⟨a, ha, rfl⟩ := Option.map_eq_some_iff.mp found
      exact ⟨known x hx a ha, later x hx⟩
    have further : ∀ p ∈ before, p.2 ∈ s ∧ ∀ q ∈ rest, p.1 ≤ q.time := fun p hp =>
      ⟨(start p hp).1, (List.forall_mem_cons.mp (start p hp).2).2⟩
    refine List.forall_mem_cons.mpr ⟨?_, ih order further known⟩
    rw [withAltitude_altitude]
    cases before with
    | none =>
      cases after : rest.findSome? known? with
      | none => exact fun a ha => absurd ha (Option.not_mem_none a)
      | some q =>
        rintro _ ⟨⟩
        exact (ahead q after).1
    | some p =>
      obtain ⟨hp, reached⟩ := start p rfl
      cases after : rest.findSome? known? with
      | none =>
        rintro _ ⟨⟩
        exact hp
      | some q =>
        obtain ⟨hq, next⟩ := ahead q after
        rw [estimate?_between]
        rintro _ ⟨⟩
        exact connected.uIcc_subset hp hq (interpolated_mem (reached r List.mem_cons_self) next)

/-- What is made of the gaps between known altitudes and of those at the ends. -/
structure Filled (reports out : List (Report α ρ)) : Prop where
  complete : ∀ r ∈ out, r.altitude.isSome
  keeps : List.Forall₂ (fun new old => new = { old with altitude := new.altitude } ∧
    ∀ a ∈ old.altitude, new.altitude = some a) out reports
  leading : ∀ (gap : List (Report α ρ)) (p : Report α ρ) (late : List (Report α ρ)) (a : α),
    reports = gap ++ p :: late → (∀ r ∈ gap, r.altitude = none) → p.altitude = some a →
    ∃ late', out = (gap.map fun r => { r with altitude := some a }) ++ p :: late'
  trailing : ∀ (early : List (Report α ρ)) (p : Report α ρ) (gap : List (Report α ρ)) (a : α),
    reports = early ++ p :: gap → (∀ r ∈ gap, r.altitude = none) → p.altitude = some a →
    ∃ early', early'.length = early.length ∧
      out = early' ++ p :: gap.map fun r => { r with altitude := some a }
  between : ∀ (early : List (Report α ρ)) (p : Report α ρ) (gap : List (Report α ρ))
    (q : Report α ρ) (late : List (Report α ρ)) (a b : α),
    reports = early ++ p :: (gap ++ q :: late) → (∀ r ∈ gap, r.altitude = none) →
    p.altitude = some a → q.altitude = some b →
    (∃ early' late', early'.length = early.length ∧ out = early' ++ p :: ((gap.map fun r =>
      { r with altitude := some (interpolated (p.time, a) (q.time, b) r.time) }) ++ q :: late')) ∧
    ∀ r ∈ gap, interpolated (p.time, a) (q.time, b) r.time ∈ Set.uIcc a b

theorem filled_of_known {reports : List (Report α ρ)} (order : InOrder reports)
    (known : ∃ r ∈ reports, r.altitude.isSome) :
    Filled reports (fillAltitudesFrom none reports) := by
  constructor
  case complete => exact fillAltitudesFrom_known none reports (Or.inr known)
  case keeps => exact fillAltitudesFrom_keeps none reports
  case leading =>
    rintro gap p late a rfl unknown hp
    have own : known? p = some (p.time, a) := congrArg (Option.map (p.time, ·)) hp
    refine ⟨fillAltitudesFrom (some (p.time, a)) late, ?_⟩
    rw [fillAltitudesFrom_gap unknown, fillAltitudesFrom, List.findSome?_cons, own]
    simp only [withAltitude_eq, estimate?]
  case trailing =>
    rintro early p gap a rfl unknown hp
    obtain ⟨filled, length, rest⟩ := fillAltitudesFrom_split none early hp
    have after := fillAltitudesFrom_gap unknown (some (p.time, a)) []
    rw [List.append_nil] at after
    refine ⟨filled, length, ?_⟩
    rw [rest, after]
    simp only [withAltitude_eq, List.findSome?_nil, estimate?, fillAltitudesFrom, List.append_nil]
  case between =>
    rintro early p gap q late a b rfl unknown hp hq
    have own : known? q = some (q.time, b) := congrArg (Option.map (q.time, ·)) hq
    constructor
    · obtain ⟨filled, length, rest⟩ := fillAltitudesFrom_split none early hp
      refine ⟨filled, fillAltitudesFrom (some (q.time, b)) late, length, ?_⟩
      rw [rest, fillAltitudesFrom_gap unknown, fillAltitudesFrom, List.findSome?_cons, own]
      simp only [withAltitude_eq, estimate?_between]
    · intro r hr
      obtain ⟨-, tail, -⟩ := List.pairwise_append.mp (inOrder_iff.mp order)
      obtain ⟨after, tail⟩ := List.pairwise_cons.mp tail
      obtain ⟨-, -, before⟩ := List.pairwise_append.mp tail
      have start := after r (List.mem_append_left _ hr)
      have stop := before r hr q List.mem_cons_self
      exact interpolated_mem (p := (p.time, a)) (q := (q.time, b)) start stop

/-- Missing altitudes are filled in wherever one is known, once and for all. -/
theorem fillAltitudes_spec {reports : List (Report α ρ)} (order : InOrder reports) :
    (fillAltitudes reports = none ↔ ∀ r ∈ reports, r.altitude = none) ∧
      ∀ out, fillAltitudes reports = some out →
        Filled reports out ∧ fillAltitudes out = some out := by
  refine ⟨fillAltitudes_eq_none_iff, ?_⟩
  intro out h
  obtain ⟨any, same⟩ := Option.ite_none_right_eq_some.mp h
  obtain rfl := Option.some.inj same
  have filled := filled_of_known order (List.any_eq_true.mp any)
  refine ⟨filled, ?_⟩
  have left : (fillAltitudesFrom none reports).any (·.altitude.isSome) := by
    obtain ⟨r, hr, known⟩ := List.any_eq_true.mp any
    obtain ⟨q, hq⟩ := List.exists_mem_of_length_pos
      (filled.keeps.length_eq ▸ List.length_pos_of_mem hr)
    exact List.any_eq_true.mpr ⟨q, hq, filled.complete q hq⟩
  rw [fillAltitudes, if_pos left, fillAltitudesFrom_of_known none filled.complete]

end Exact

def flightWithGaps : List (Report ℚ Unit) :=
  [(0, none), (4000, some 1000), (8000, none), (12000, some 2000), (12000, none),
    (12000, some 1800), (16000, none)].map fun p =>
      { Track.aboveEquator (p.1, 0) with altitude := p.2 }

theorem flightWithGaps_filled : InOrder flightWithGaps ∧
    (fillAltitudes flightWithGaps).map (List.filterMap (·.altitude)) =
      some [1000, 1000, 1500, 2000, 2000, 1800, 1800] ∧
    ∃ out, fillAltitudes flightWithGaps = some out ∧ Filled flightWithGaps out ∧
      fillAltitudes out = some out := by
  have order : InOrder flightWithGaps := by
    rw [InOrder]
    decide
  have values : (fillAltitudes flightWithGaps).map (List.filterMap (·.altitude)) =
      some [1000, 1000, 1500, 2000, 2000, 1800, 1800] := by
    decide +kernel
  obtain ⟨out, found, -⟩ := Option.map_eq_some_iff.mp values
  exact ⟨order, values, out, found, (fillAltitudes_spec order).2 out found⟩

end AirTraffic.MissingValues
