import AirTraffic.Proofs.Polyline.Exact
import AirTraffic.Proofs.Fit.WeightedMean
import AirTraffic.Proofs.Track.Reading
import AirTraffic.Proofs.Cleaning.Edits
import AirTraffic.Proofs.InPlace.AltitudeProfile

/-!
# What smoothing does to altitudes

The samples are taken from the measured line, the filter takes means of them, and what is read back
lies between two of the means: so no altitude leaves the range of the measured ones. A steady climb
passes all three steps unchanged, and what lies past the last whole step is not reached by any.
-/
namespace AirTraffic.AltitudeProfile

open Scalar Report MovingFit

variable {α ρ : Type}

section Steps

variable {stepMs : Int} (forward : 0 < stepMs) (span : TimeSpan)

include forward

theorem sampleTimes_eq_range : sampleTimes stepMs span =
    (List.range ((span.duration / stepMs).toNat + 1)).map fun i : Nat =>
      span.start + i * stepMs := by
  have some : 0 ≤ span.duration / stepMs :=
    Int.ediv_nonneg (Int.sub_nonneg_of_le span.start_le_stop) forward.le
  have whole := Int.ediv_mul_add_emod span.duration stepMs
  have rest := Int.emod_nonneg span.duration forward.ne'
  have less := Int.emod_lt_of_pos span.duration forward
  have stop : span.stop = span.start + span.duration := by
    rw [TimeSpan.duration]
    omega
  have count (k : Int) (hk : span.duration % stepMs + stepMs - 1 = k) :
      (span.duration + stepMs - 1) / stepMs = k / stepMs + span.duration / stepMs := by
    rw [← Int.add_mul_ediv_right _ _ forward.ne', ← hk]
    congr 1
    omega
  rw [sampleTimes, TimeSpan.steps, if_pos forward]
  dsimp only
  by_cases reached : span.duration % stepMs = 0
  · have none : (stepMs - 1) / stepMs = 0 := Int.ediv_eq_zero_of_lt (by omega) (by omega)
    rw [if_pos reached, count (stepMs - 1) (by omega), none, Int.zero_add, List.range_succ,
      List.map_append, List.map_singleton, Int.toNat_of_nonneg some, stop]
    congr 2
    omega
  · have one : (span.duration % stepMs - 1 + 1 * stepMs) / stepMs = 1 := by
      rw [Int.add_mul_ediv_right _ _ forward.ne', Int.ediv_eq_zero_of_lt (by omega) (by omega),
        Int.zero_add]
    rw [if_neg reached, count (span.duration % stepMs - 1 + 1 * stepMs) (by omega), one,
      List.dropLast_concat, Int.add_comm, Int.toNat_add some (by decide)]
    rfl

end Steps

section Known

variable [Scalar α] {reports : List (Report α ρ)}

/-- Time and altitude of reports that all have one. -/
def heights (reports : List (Report α ρ)) : Polyline α :=
  reports.map fun r => (r.time, r.altitude.getD zero)

variable (known : ∀ r ∈ reports, r.altitude.isSome)

include known

theorem measured?_of_known : measured? reports = some (heights reports) := by
  induction reports with
  | nil => rfl
  | cons r reports ih =>
    obtain ⟨hr, hreports⟩ := List.forall_mem_cons.mp known
    obtain ⟨a, ha⟩ := Option.isSome_iff_exists.mp hr
    rw [measured?, List.mapM_cons, ha, Option.map_some]
    rw [measured?] at ih
    rw [ih hreports, heights, heights, List.map_cons, ha]
    rfl

theorem mem_heights {p : Int × α} (hp : p ∈ heights reports) :
    ∃ r ∈ reports, r.time = p.1 ∧ r.altitude = some p.2 := by
  obtain ⟨r, hr, rfl⟩ := List.mem_map.mp hp
  obtain ⟨a, ha⟩ := Option.isSome_iff_exists.mp (known r hr)
  refine ⟨r, hr, rfl, ?_⟩
  rw [ha, Option.getD_some]

theorem clean_of_known (s : AltitudeProfile α) {first last : Report α ρ}
    (hfirst : reports.head? = some first) (hlast : reports.getLast? = some last) :
    s.clean reports =
      if (TimeSpan.between first.time last.time).duration < 2 * s.stepMs then reports
      else reports.map
        (follow (s.smoothed (.between first.time last.time) (heights reports))) := by
  rw [clean, hfirst, hlast, measured?_of_known known]

end Known

section Smooth

variable [ExactScalar α] {s : AltitudeProfile α} {reports : List (Report α ρ)} {span : TimeSpan}
  {measured : Polyline α} {lo hi base rate : α}

theorem smoothed_mem (averaging : s.filter.Averaging)
    (within : ∀ p ∈ measured, lo ≤ p.2 ∧ p.2 ≤ hi) :
    ∀ p ∈ s.smoothed span measured, lo ≤ p.2 ∧ p.2 ≤ hi := by
  intro p hp
  refine averaging.smooth_mem ?_ p.2 (List.of_mem_zip hp).2
  intro x hx
  obtain ⟨t, -, ht⟩ := List.mem_filterMap.mp hx
  exact Polyline.value?_mem within ht

theorem smoothed_time_le {p : Int × α} (hp : p ∈ s.smoothed span measured) :
    p.1 ≤ span.start + span.duration / s.stepMs * s.stepMs := by
  have sampled := (List.of_mem_zip hp).1
  rw [sampleTimes_eq_range s.positive, List.mem_map] at sampled
  obtain ⟨i, hi, early⟩ := sampled
  rw [List.mem_range] at hi
  have some : 0 ≤ span.duration / s.stepMs :=
    Int.ediv_nonneg (Int.sub_nonneg_of_le span.start_le_stop) s.positive.le
  have steps : (i : Int) ≤ span.duration / s.stepMs := by omega
  rw [← early]
  exact Int.add_le_add_left (Int.mul_le_mul_of_nonneg_right steps s.positive.le) _

theorem smoothed_straight (reproducing : Reproducing 1 s.filter)
    (read : ∀ t ∈ sampleTimes s.stepMs span, measured.value? t = some (base + rate * t)) :
    ∀ p ∈ s.smoothed span measured, p.2 = base + rate * p.1 := by
  let times := sampleTimes s.stepMs span
  let line : Polynomial α := .C (rate * s.stepMs) * .X + .C (base + rate * span.start)
  have raw : times.filterMap measured.value? = times.map fun t : Int => base + rate * t := by
    rw [← List.filterMap_eq_map]
    exact List.filterMap_congr read
  have samples : times.map (fun t : Int => base + rate * t) =
      sampled line ((span.duration / s.stepMs).toNat + 1) := by
    rw [sampled, show times = _ from sampleTimes_eq_range s.positive span, List.map_map]
    apply List.map_congr_left
    intro i _
    simp only [line, Function.comp_apply, Polynomial.eval_add, Polynomial.eval_mul,
      Polynomial.eval_C, Polynomial.eval_X]
    push_cast
    ring
  have smooth : s.smoothed span measured = times.map fun t : Int => (t, base + rate * t) := by
    rw [smoothed, raw, samples, reproducing.smooth_sampled Polynomial.natDegree_linear_le,
      ← samples, List.map_prod_left_eq_zip]
  rw [smooth]
  exact List.forall_mem_map.mpr fun t _ => rfl

end Smooth

section Follow

variable [ExactScalar α] {profile : Polyline α} {r : Report α ρ} {lo hi base rate : α}

theorem follow_mem (within : ∀ p ∈ profile, lo ≤ p.2 ∧ p.2 ≤ hi)
    (known : ∃ a ∈ r.altitude, lo ≤ a ∧ a ≤ hi) :
    ∃ a ∈ (follow profile r).altitude, lo ≤ a ∧ a ≤ hi := by
  rw [follow]
  cases read : profile.value? r.time with
  | none => exact known
  | some a =>
    refine ⟨a, ?_, Polyline.value?_mem within read⟩
    rw [withAltitude_altitude]
    rfl

theorem follow_of_straight (straight : ∀ p ∈ profile, p.2 = base + rate * p.1)
    (climbing : r.altitude = some (base + rate * r.time)) : follow profile r = r := by
  rw [follow]
  cases read : profile.value? r.time with
  | none => rfl
  | some a =>
    rw [Polyline.value?_of_straight straight read]
    exact withAltitude_self climbing

end Follow

/-- What smoothing in steps of some length makes of reports that all have altitudes. -/
structure Smooths [ExactScalar α] (stepMs : Int) (reports out : List (Report α ρ)) : Prop where
  onlyAltitudes : List.Forall₂ (EditsWithin [.altitude]) out reports
  within : ∀ lo hi : α, (∀ r ∈ reports, ∀ a ∈ r.altitude, lo ≤ a ∧ a ≤ hi) →
    ∀ r ∈ out, ∃ a ∈ r.altitude, lo ≤ a ∧ a ≤ hi
  steady : ∀ base rate : α, (∀ r ∈ reports, r.altitude = some (base + rate * r.time)) →
    out = reports
  tail : ∀ first ∈ reports.head?, ∀ last ∈ reports.getLast?, ∀ (i : Nat) (r : Report α ρ),
    reports[i]? = some r →
      first.time + (last.time - first.time) / stepMs * stepMs < r.time → out[i]? = some r

section Reports

variable [ExactScalar α] {reports : List (Report α ρ)} (order : InOrder reports)
  (known : ∀ r ∈ reports, r.altitude.isSome)

include known

theorem altitude_within {lo hi : α} (within : ∀ r ∈ reports, ∀ a ∈ r.altitude, lo ≤ a ∧ a ≤ hi)
    {r : Report α ρ} (hr : r ∈ reports) : ∃ a ∈ r.altitude, lo ≤ a ∧ a ≤ hi := by
  obtain ⟨a, ha⟩ := Option.isSome_iff_exists.mp (known r hr)
  exact ⟨a, ha, within r hr a ha⟩

theorem smooths_self (stepMs : Int) : Smooths stepMs reports reports := by
  constructor
  · exact List.forall₂_same.mpr fun r _ => EditsWithin.refl _ r
  · intro lo hi within r hr
    exact altitude_within known within hr
  · intro base rate _
    rfl
  · intro first _ last _ i r hr _
    exact hr

include order

theorem value?_heights {stepMs : Int} (forward : 0 < stepMs) {first last : Report α ρ}
    (hfirst : reports.head? = some first) (hlast : reports.getLast? = some last) {base rate : α}
    (climbing : ∀ r ∈ reports, r.altitude = some (base + rate * r.time)) :
    ∀ t ∈ sampleTimes stepMs (.between first.time last.time),
      (heights reports).value? t = some (base + rate * t) := by
  intro t ht
  have all := length_resampled forward order (measured?_of_known known) hfirst hlast
  obtain ⟨a, ha⟩ := Option.isSome_iff_exists.mp (List.filterMap_length_eq_length.mp all t ht)
  rw [ha]
  refine congrArg some (Polyline.value?_of_straight ?_ ha)
  intro p hp
  obtain ⟨r, hr, time, altitude⟩ := mem_heights known hp
  rw [climbing r hr, time] at altitude
  exact (Option.some.inj altitude).symm

theorem clean_smooths {s : AltitudeProfile α} (averaging : s.filter.Averaging)
    (reproducing : Reproducing 1 s.filter) : Smooths s.stepMs reports (s.clean reports) := by
  cases hfirst : reports.head? with
  | none =>
    rw [List.head?_eq_none_iff.mp hfirst]
    exact smooths_self (List.forall_mem_nil _) s.stepMs
  | some first =>
  have some : reports ≠ [] := List.ne_nil_of_mem (List.mem_of_mem_head? hfirst)
  have hlast := List.getLast?_eq_some_getLast some
  generalize reports.getLast some = last at hlast
  have upward := order.head_le hfirst last (List.mem_of_getLast? hlast)
  rw [clean_of_known known s hfirst hlast]
  split
  · exact smooths_self known s.stepMs
  · constructor
    case onlyAltitudes =>
      rw [List.forall₂_map_left_iff, List.forall₂_same]
      intro r _
      exact follow_edits _ r
    case within =>
      intro lo hi within
      have measured : ∀ p ∈ heights reports, lo ≤ p.2 ∧ p.2 ≤ hi := by
        intro p hp
        obtain ⟨r, hr, -, altitude⟩ := mem_heights known hp
        exact within r hr p.2 altitude
      refine List.forall_mem_map.mpr ?_
      intro r hr
      exact follow_mem (smoothed_mem averaging measured) (altitude_within known within hr)
    case steady =>
      intro base rate climbing
      have read := value?_heights order known s.positive hfirst hlast climbing
      have straight := smoothed_straight reproducing read
      refine (List.map_congr_left ?_).trans (List.map_id reports)
      intro r hr
      exact follow_of_straight straight (climbing r hr)
    case tail =>
      intro f hf l hl i r hr late
      obtain rfl : first = f := Option.some.inj (hfirst.symm.trans hf)
      obtain rfl : last = l := Option.some.inj (hlast.symm.trans hl)
      have beyond : ∀ p ∈ s.smoothed (.between first.time last.time) (heights reports),
          p.1 < r.time := by
        intro p hp
        have reached := smoothed_time_le hp
        rw [TimeSpan.between_of_le upward] at reached
        exact reached.trans_lt late
      rw [List.getElem?_map, hr, Option.map_some, follow, Polyline.value?_of_all_before beyond]

end Reports

/-- Smoothing in steps of any length touches nothing but altitudes and keeps them within the range
of the measured ones. It leaves a steady climb as it is, and every report later than the last whole
step after the first. -/
theorem neither_overshoots_nor_distorts [ExactScalar α] [TableInverse α]
    (inverts : TableInverse.Inverts α 2) {stepMs : Int} (forward : 0 < stepMs) :
    ∃ s : AltitudeProfile α, ofStep stepMs = .ok s ∧ s.stepMs = stepMs ∧
      ∀ reports : List (Report α ρ), InOrder reports → (∀ r ∈ reports, r.altitude.isSome) →
        Smooths stepMs reports (s.clean reports) := by
  have seconds : (0 : α) < ofInt stepMs / Units.msPerSecond := by
    rw [ExactScalar.ofInt_div_msPerSecond]
    exact div_pos (Int.cast_pos.mpr forward) (by norm_num)
  obtain ⟨m, made, averaging, reproducing⟩ := exists_standard inverts seconds
  let s : AltitudeProfile α := ⟨stepMs, m, forward⟩
  have averaging : s.filter.Averaging := averaging
  have reproducing : Reproducing 1 s.filter := reproducing
  refine ⟨s, ?_, rfl, ?_⟩
  · rw [ofStep, if_pos forward, made]
    exact dif_pos forward
  · intro reports order known
    exact clean_smooths order known averaging reproducing

def bump : List (Report ℚ Unit) :=
  [(0, 5000), (2500, 5000), (5000, 5000), (7500, 5000), (10000, 5000), (12500, 5000), (15000, 5000),
    (17500, 5000), (20000, 5300), (20000, 5100), (22500, 5000), (25000, 5000), (27500, 5000),
    (30000, 5000), (32500, 5000), (35000, 5000), (37500, 5000), (40000, 5000),
    (42500, 5060)].map Track.aboveEquator

/-- The bump is flattened within its bounds, and the report after the last step of three seconds
keeps its altitude. -/
theorem bump_smoothed : TableInverse.Inverts ℚ 2 ∧ InOrder bump ∧ (∀ r ∈ bump, r.altitude.isSome) ∧
    ∃ s : AltitudeProfile ℚ, ofStep 3000 = .ok s ∧ Smooths 3000 bump (s.clean bump) ∧
      (∀ r ∈ s.clean bump, ∃ a ∈ r.altitude, 5000 ≤ a ∧ a ≤ 5300) ∧
      ((s.clean bump)[8]?.bind (·.altitude)).any (· < 5100) ∧ (s.clean bump)[18]? = bump[18]? := by
  have inverts : TableInverse.Inverts ℚ 2 := TableInverse.standard_inverts (by decide)
  have order : InOrder bump := by
    rw [InOrder]
    decide
  have known : ∀ r ∈ bump, r.altitude.isSome := by decide +kernel
  have bounds : ∀ r ∈ bump, ∀ a ∈ r.altitude, 5000 ≤ a ∧ a ≤ 5300 := by decide +kernel
  obtain ⟨s, made, -, smooths⟩ := neither_overshoots_nor_distorts (ρ := Unit) inverts
    (show (0 : Int) < 3000 by decide)
  have out := smooths bump order known
  refine ⟨inverts, order, known, s, made, out, out.within 5000 5300 bounds, ?_, ?_⟩
  · have flattened : (((ofStep 3000 : Except (SettingError ℚ) _).toOption.bind fun s =>
        (s.clean bump)[8]?.bind (·.altitude)).any (· < 5100)) = true := by
      decide +kernel
    rwa [made] at flattened
  · exact out.tail _ rfl _ rfl 18 _ rfl (by decide)

end AirTraffic.AltitudeProfile
