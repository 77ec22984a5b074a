import AirTraffic.Cleaning.MissingValues
import AirTraffic.Fit.MovingWindow
import AirTraffic.Proofs.InPlace.Access

/-!
# Gaps filled in place

The known altitudes are listed with their indices. What lies before the first of them, after the
last one and between two in a row is swept over, each stretch on its own.
-/
namespace AirTraffic

open MissingValues

variable {α ρ : Type}

namespace InPlace

abbrev Known (α : Type) := Nat × Int × α

/-- The known altitudes among reports whose indices begin with `start`. -/
def knownFrom (start : Nat) (reports : List (Report α ρ)) : List (Known α) :=
  (reports.zipIdx start).filterMap fun p => (known? p.1).map (p.2, ·)

variable [Scalar α]

/-- Over the indices between two known altitudes. -/
def fillBetween (points : List (Report α ρ)) (pair : List (Known α)) :
    Checked (List (Report α ρ)) := do
  let p ← read pair 0
  let q ← read pair 1
  sweep points (p.1 + 1) q.1 fun r => r.withAltitude (estimate? (some p.2) (some q.2) r.time)

def fillAltitudes (reports : List (Report α ρ)) : Checked (Option (List (Report α ρ))) :=
  let known := knownFrom 0 reports
  match known.head?, known.getLast? with
  | some first, some last => do
    let points ← sweep reports 0 first.1 (·.withAltitude (some first.2.2))
    let points ← sweep points (last.1 + 1) points.length (·.withAltitude (some last.2.2))
    return some (← (MovingFit.windows 2 known).foldlM fillBetween points)
  | _, _ => return none

def deducedSpeed [Geodesy α] (reports : List (Report α ρ)) (i : Nat) :
    Checked (Option (Option α)) := do
  let last ← difference reports.length 1
  let r ← read reports i
  if r.speed.isNone then
    let before ← readIf (0 < i) reports (i - 1)
    let after ← readIf (i < last) reports (i + 1)
    return some (deducedSpeed? before r after)
  else return none

def fillSpeeds [Geodesy α] (reports : List (Report α ρ)) :
    Checked (Option (List (Report α ρ))) :=
  if reports.length < 2 then return none
  else some <$> reviseFound (deducedSpeed reports) (fun speed r => r.withSpeed speed) reports

end InPlace

namespace InPlace

section Known

variable {known : List (Known α)}

theorem knownFrom_cons (start : Nat) (r : Report α ρ) (reports : List (Report α ρ)) :
    knownFrom start (r :: reports) =
      ((known? r).map (start, ·)).toList ++ knownFrom (start + 1) reports := by
  unfold knownFrom
  rw [List.zipIdx_cons]
  cases hr : known? r with
  | none => rw [List.filterMap_cons_none (by rw [hr]; rfl)]; rfl
  | some p => rw [List.filterMap_cons_some (by rw [hr]; rfl)]; rfl

theorem knownFrom_bounds {start : Nat} {reports : List (Report α ρ)} :
    ∀ p ∈ knownFrom start reports, start ≤ p.1 ∧ p.1 < start + reports.length := by
  intro p hp
  obtain ⟨⟨r, i⟩, hr, hp⟩ := List.mem_filterMap.mp hp
  obtain ⟨q, -, rfl⟩ := Option.map_eq_some_iff.mp hp
  obtain ⟨hle, hlt, -⟩ := List.mem_zipIdx hr
  exact ⟨hle, hlt⟩

theorem knownFrom_increase (start : Nat) (reports : List (Report α ρ)) :
    (knownFrom start reports).Pairwise (·.1 < ·.1) := by
  induction reports generalizing start with
  | nil => exact .nil
  | cons r reports ih =>
    rw [knownFrom_cons]
    cases known? r with
    | none => exact ih (start + 1)
    | some p =>
      refine List.pairwise_cons.mpr ⟨fun q hq => ?_, ih (start + 1)⟩
      exact (knownFrom_bounds q hq).1

theorem head?_knownFrom (start : Nat) (reports : List (Report α ρ)) :
    (knownFrom start reports).head?.map Prod.snd = reports.findSome? known? := by
  induction reports generalizing start with
  | nil => rfl
  | cons r reports ih =>
    rw [knownFrom_cons, List.findSome?_cons]
    cases known? r with
    | none => exact ih (start + 1)
    | some p => rfl

theorem any_altitude_iff (start : Nat) (reports : List (Report α ρ)) :
    reports.any (·.altitude.isSome) ↔ knownFrom start reports ≠ [] := by
  induction reports generalizing start with
  | nil => simp [knownFrom]
  | cons r rest ih =>
    rw [List.any_cons, knownFrom_cons, Bool.or_eq_true, ih (start + 1)]
    cases hr : r.altitude with
    | none => simp [known?, hr]
    | some altitude => simp [known?, hr]

theorem fst_le_last {p last : Known α} {rest : List (Known α)}
    (increase : (p :: rest).Pairwise (·.1 < ·.1)) (hlast : last ∈ (p :: rest).getLast?) :
    p.1 ≤ last.1 := by
  rcases List.mem_cons.mp (List.mem_of_getLast? hlast) with rfl | later
  · exact Nat.le_refl _
  · exact Nat.le_of_lt ((List.pairwise_cons.mp increase).1 last later)

theorem windows_two_cons (p q : Known α) (rest : List (Known α)) :
    MovingFit.windows 2 (p :: q :: rest) = [p, q] :: MovingFit.windows 2 (q :: rest) := by
  rw [MovingFit.windows]
  rfl

theorem windows_two_cases (increase : known.Pairwise (·.1 < ·.1)) {pair : List (Known α)}
    (h : pair ∈ MovingFit.windows 2 known) :
    ∃ p ∈ known, ∃ q ∈ known, pair = [p, q] ∧ p.1 < q.1 := by
  induction known with
  | nil => cases h
  | cons p rest ih =>
    obtain ⟨hp, hrest⟩ := List.pairwise_cons.mp increase
    rcases rest with _ | ⟨q, rest⟩
    · cases h
    · rw [windows_two_cons] at h
      rcases List.mem_cons.mp h with rfl | h
      · exact ⟨p, by simp, q, by simp, rfl, hp q List.mem_cons_self⟩
      · obtain ⟨p', hp', q', hq', hpair⟩ := ih hrest h
        exact ⟨p', List.mem_cons_of_mem _ hp', q', List.mem_cons_of_mem _ hq', hpair⟩

end Known

variable [Scalar α]

/-- What a report at an index becomes, given the last altitude known before and those known from
there on. -/
def settle (before : Option (Known α)) (known : List (Known α)) (j : Nat) (r : Report α ρ) :
    Report α ρ :=
  match before, known with
  | before, q :: rest =>
    if j < q.1 then r.withAltitude (estimate? (before.map Prod.snd) (some q.2) r.time)
    else if j = q.1 then r
    else settle (some q) rest j r
  | some p, [] => if p.1 < j then r.withAltitude (some p.2.2) else r
  | none, [] => r

def settleBetween (pair : List (Known α)) (j : Nat) (r : Report α ρ) : Report α ρ :=
  match pair with
  | [p, q] =>
    if p.1 + 1 ≤ j ∧ j < q.1 then r.withAltitude (estimate? (some p.2) (some q.2) r.time) else r
  | _ => r

theorem foldl_settleBetween_of_le {p : Known α} {rest : List (Known α)}
    (increase : (p :: rest).Pairwise (·.1 < ·.1)) {j : Nat} (hj : j ≤ p.1) (r : Report α ρ) :
    (MovingFit.windows 2 (p :: rest)).foldl (fun r pair => settleBetween pair j r) r = r := by
  induction rest generalizing p with
  | nil => rfl
  | cons q rest ih =>
    obtain ⟨hp, hrest⟩ := List.pairwise_cons.mp increase
    have hq := hp q List.mem_cons_self
    rw [windows_two_cons, List.foldl_cons, settleBetween, if_neg (by omega)]
    exact ih hrest (by omega)

theorem foldl_settleBetween {p last : Known α} {rest : List (Known α)}
    (increase : (p :: rest).Pairwise (·.1 < ·.1)) (hlast : last ∈ (p :: rest).getLast?) {j : Nat}
    (hj : p.1 < j) (r : Report α ρ) :
    (MovingFit.windows 2 (p :: rest)).foldl (fun r pair => settleBetween pair j r)
      (if last.1 + 1 ≤ j then r.withAltitude (some last.2.2) else r) =
        settle (some p) rest j r := by
  induction rest generalizing p with
  | nil =>
    obtain rfl : p = last := Option.some.inj hlast
    rfl
  | cons q rest ih =>
    obtain ⟨hp, hrest⟩ := List.pairwise_cons.mp increase
    have hq := hp q List.mem_cons_self
    rw [List.getLast?_cons_cons] at hlast
    have within := fst_le_last hrest hlast
    rw [windows_two_cons, List.foldl_cons, settleBetween, settle]
    rcases Nat.lt_trichotomy j q.1 with before | rfl | after
    · rw [if_pos ⟨hj, before⟩, if_pos before, if_neg (by omega),
        foldl_settleBetween_of_le hrest (Nat.le_of_lt before)]
      rfl
    · rw [if_neg (by omega), if_neg (Nat.lt_irrefl _), if_pos rfl, if_neg (by omega),
        foldl_settleBetween_of_le hrest (Nat.le_refl _)]
    · have outside : ¬(p.1 + 1 ≤ j ∧ j < q.1) := by omega
      rw [if_neg outside, if_neg (Nat.not_lt_of_gt after), if_neg (Nat.ne_of_gt after)]
      exact ih hrest hlast after

theorem foldl_sweeps {first last : Known α} {rest : List (Known α)}
    (increase : (first :: rest).Pairwise (·.1 < ·.1)) (hlast : last ∈ (first :: rest).getLast?)
    {length j : Nat} (hj : j < length) (r : Report α ρ) :
    (MovingFit.windows 2 (first :: rest)).foldl (fun r pair => settleBetween pair j r)
      (if last.1 + 1 ≤ j ∧ j < length then
        (if 0 ≤ j ∧ j < first.1 then r.withAltitude (some first.2.2) else r).withAltitude
          (some last.2.2)
      else if 0 ≤ j ∧ j < first.1 then r.withAltitude (some first.2.2) else r) =
        settle none (first :: rest) j r := by
  have within := fst_le_last increase hlast
  rw [settle]
  rcases Nat.lt_trichotomy j first.1 with before | rfl | after
  · rw [if_neg (by omega), if_pos ⟨Nat.zero_le j, before⟩, if_pos before,
      foldl_settleBetween_of_le increase (Nat.le_of_lt before)]
    rfl
  · rw [if_neg (by omega), if_neg (by omega), if_neg (Nat.lt_irrefl _), if_pos rfl,
      foldl_settleBetween_of_le increase (Nat.le_refl _)]
  · have notBefore : ¬(0 ≤ j ∧ j < first.1) := by omega
    rw [if_neg notBefore, if_neg (Nat.not_lt_of_gt after), if_neg (Nat.ne_of_gt after),
      ← foldl_settleBetween increase hlast after]
    simp only [hj, and_true]

end InPlace

open InPlace

variable [Scalar α]

namespace MissingValues

/-- Going through the reports once settles each of them in the same way. -/
theorem fillAltitudesFrom_eq (before : Option (Known α)) (start : Nat) (reports : List (Report α ρ))
    (hbefore : ∀ p ∈ before, p.1 < start)
    (any : before.isSome ∨ knownFrom start reports ≠ []) :
    fillAltitudesFrom (before.map Prod.snd) reports =
      (reports.zipIdx start).map fun p => settle before (knownFrom start reports) p.2 p.1 := by
  induction reports generalizing before start with
  | nil => rfl
  | cons r rest ih =>
    rw [fillAltitudesFrom, List.zipIdx_cons, List.map_cons]
    rw [knownFrom_cons] at any ⊢
    cases hr : known? r with
    | some p =>
      refine List.cons_eq_cons.mpr ⟨?_, (ih (some (start, p)) (start + 1) ?_ (Or.inl rfl)).trans ?_⟩
      · simp [settle]
      · rintro _ ⟨⟩
        exact Nat.lt_succ_self start
      · refine List.map_congr_left fun q hq => ?_
        obtain ⟨after, -, -⟩ := List.mem_zipIdx hq
        change _ = settle before ((start, p) :: knownFrom (start + 1) rest) q.2 q.1
        rw [settle, if_neg (by omega), if_neg (by omega)]
    | none =>
      rw [hr] at any
      refine List.cons_eq_cons.mpr ⟨?_, ih before (start + 1) ?_ any⟩
      · rw [← head?_knownFrom (start + 1) rest]
        change _ = settle before (knownFrom (start + 1) rest) start r
        cases hknown : knownFrom (start + 1) rest with
        | cons q more =>
          have after := knownFrom_bounds q (hknown ▸ List.mem_cons_self)
          rw [settle, if_pos (by omega)]
          rfl
        | nil =>
          rcases any with known | any
          · obtain ⟨p, rfl⟩ := Option.isSome_iff_exists.mp known
            rw [settle, if_pos (hbefore p rfl)]
            rfl
          · exact absurd hknown any
      · intro p hp
        exact Nat.lt_succ_of_lt (hbefore p hp)

theorem fillBetween_mapIdx {known pair : List (Known α)} {reports : List (Report α ρ)}
    (inside : ∀ p ∈ known, p.1 < reports.length) (increase : known.Pairwise (·.1 < ·.1))
    (h : pair ∈ MovingFit.windows 2 known) (done : Nat → Report α ρ → Report α ρ) :
    fillBetween (reports.mapIdx done) pair =
      .ok (reports.mapIdx fun j r => settleBetween pair j (done j r)) := by
  obtain ⟨p, -, q, hq, rfl, hpq⟩ := windows_two_cases increase h
  exact sweep_mapIdx done hpq (Nat.le_of_lt (inside q hq)) _

theorem fillAltitudes_eq (reports : List (Report α ρ)) :
    InPlace.fillAltitudes reports = .ok (fillAltitudes reports) := by
  have inside : ∀ p ∈ knownFrom 0 reports, p.1 < reports.length := by
    intro p hp
    have := knownFrom_bounds p hp
    omega
  have increase := knownFrom_increase 0 reports
  have untouched : reports = reports.mapIdx fun _ r => r := List.ext_getElem (by simp) (by simp)
  unfold InPlace.fillAltitudes fillAltitudes
  rw [if_congr (any_altitude_iff 0 reports) rfl rfl]
  cases hknown : knownFrom 0 reports with
  | nil => rfl
  | cons first rest =>
    have whole := fillAltitudesFrom_eq none 0 reports (by simp) (Or.inr (by simp [hknown]))
    rw [hknown] at inside increase whole
    obtain ⟨last, hlast⟩ : ∃ last, (first :: rest).getLast? = some last :=
      ⟨_, List.getLast?_eq_some_getLast (List.cons_ne_nil _ _)⟩
    have hfirst := inside first List.mem_cons_self
    have hend := inside last (List.mem_of_getLast? hlast)
    have leading := sweep_mapIdx (fun _ r => r) (Nat.zero_le first.1) (Nat.le_of_lt hfirst)
      fun r : Report α ρ => r.withAltitude (some first.2.2)
    rw [← untouched] at leading
    simp only [hlast, List.head?_cons, leading, ok_bind, List.length_mapIdx]
    rw [sweep_mapIdx _ hend (Nat.le_refl _), ok_bind,
      foldlM_edits settleBetween (fun pair h => fillBetween_mapIdx inside increase h)]
    refine congrArg (fun points => Except.ok (some points)) (Eq.trans ?_ whole.symm)
    rw [← List.mapIdx_eq_zipIdx_map]
    refine List.ext_getElem (by simp) fun j hj _ => ?_
    rw [List.length_mapIdx] at hj
    rw [List.getElem_mapIdx, List.getElem_mapIdx]
    exact foldl_sweeps increase hlast hj reports[j]

variable [Geodesy α]

theorem fillSpeedsFrom_eq (before : Option (Report α ρ)) (reports : List (Report α ρ)) :
    fillSpeedsFrom before reports = reports.mapIdx fun i r =>
      if r.speed.isNone then
        r.withSpeed (deducedSpeed? (if 0 < i then reports[i - 1]? else before) r reports[i + 1]?)
      else r := by
  induction reports generalizing before with
  | nil => rfl
  | cons r rest ih =>
    rw [fillSpeedsFrom, ih, List.mapIdx_cons]
    refine List.cons_eq_cons.mpr ⟨?_, ?_⟩
    · rw [if_neg (Nat.lt_irrefl 0), List.head?_eq_getElem?]
      rfl
    · refine List.ext_getElem (by simp) fun i _ _ => ?_
      rw [List.getElem_mapIdx, List.getElem_mapIdx]
      rcases i with _ | i
      · rfl
      · rfl

def deducedAt (reports : List (Report α ρ)) (i : Nat) : Option (Option α) :=
  (reports[i]?.filter (·.speed.isNone)).map fun r =>
    deducedSpeed? (if 0 < i then reports[i - 1]? else none) r reports[i + 1]?

theorem deducedSpeed_eq {reports : List (Report α ρ)} {i : Nat} (hi : i < reports.length) :
    deducedSpeed reports i = .ok (deducedAt reports i) := by
  have before : (decide (0 < i) : Bool) → i - 1 < reports.length := by omega
  have after : decide (i < reports.length - 1) → i + 1 < reports.length := by
    intro inside
    have := of_decide_eq_true inside
    omega
  have last : (if decide (i < reports.length - 1) then reports[i + 1]? else none) =
      reports[i + 1]? := by
    split
    · rfl
    · next outside =>
      rw [decide_eq_true_eq] at outside
      exact (List.getElem?_eq_none (by omega)).symm
  unfold deducedSpeed deducedAt
  rw [difference_of_le (Nat.succ_le_of_lt (Nat.zero_lt_of_lt hi)), ok_bind, read_of_lt hi, ok_bind,
    List.getElem?_eq_getElem hi, Option.filter_some]
  split
  · rw [readIf_eq before, ok_bind, readIf_eq after, ok_bind, last]
    simp only [decide_eq_true_eq]
    rfl
  · rfl

theorem fillSpeeds_eq (reports : List (Report α ρ)) :
    InPlace.fillSpeeds reports = .ok (fillSpeeds reports) := by
  unfold InPlace.fillSpeeds fillSpeeds
  split
  · rfl
  · rw [reviseFound_ok (deducedAt reports) _ fun i hi => deducedSpeed_eq hi, fillSpeedsFrom_eq]
    refine congrArg (fun points => Except.ok (some points)) ?_
    refine List.ext_getElem (by simp) fun i hi _ => ?_
    rw [List.length_mapIdx] at hi
    rw [List.getElem_mapIdx, List.getElem_mapIdx, deducedAt, List.getElem?_eq_getElem hi,
      Option.filter_some]
    cases reports[i].speed.isNone with
    | true => rfl
    | false => rfl

end MissingValues

end AirTraffic
