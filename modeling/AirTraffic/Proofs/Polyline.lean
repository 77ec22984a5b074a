import Mathlib.Data.List.Basic
import AirTraffic.Polyline

/-!
# Reading broken lines

What a broken line says of an instant is settled by the last sample before the instant and the first
one from it on. What comes after that does not matter.
-/
namespace AirTraffic.Polyline

variable {α : Type} {line before rest : Polyline α} {p q : Int × α} {t : Int}

theorem exists_cut (order : line.Pairwise fun p r => p.1 ≤ r.1) {z : Int × α} (hz : z ∈ line)
    (ht : t ≤ z.1) : ∃ before q rest, line = before ++ q :: rest ∧
      (∀ p ∈ before, p.1 < t) ∧ ∀ p ∈ q :: rest, t ≤ p.1 := by
  induction line with
  | nil => exact absurd hz List.not_mem_nil
  | cons a line ih =>
    obtain ⟨ha, hline⟩ := List.pairwise_cons.mp order
    rcases Int.lt_or_le a.1 t with before | reached
    · have further : z ∈ line := by
        rcases List.mem_cons.mp hz with rfl | further
        · exact absurd ht (Int.not_le.mpr before)
        · exact further
      obtain ⟨init, q, rest, rfl, hinit, hrest⟩ := ih hline further
      exact ⟨a :: init, q, rest, rfl, List.forall_mem_cons.mpr ⟨before, hinit⟩, hrest⟩
    · refine ⟨[], a, line, rfl, List.forall_mem_nil _, List.forall_mem_cons.mpr ⟨reached, ?_⟩⟩
      intro p hp
      exact Int.le_trans reached (ha p hp)

variable [Scalar α]

theorem value?_of_le_head (hq : t ≤ q.1) :
    value? (q :: rest) t = if q.1 = t then some q.2 else none := by
  cases rest with
  | nil =>
    rw [value?]
    exact if_congr eq_comm rfl rfl
  | cons r rest =>
    rw [value?]
    by_cases here : q.1 = t
    · rw [if_neg (Int.not_lt.mpr (Int.le_of_eq here)), if_pos here.symm, if_pos here]
    · rw [if_pos (by omega), if_neg here]

theorem value?_of_lt (h : t < p.1) : value? (p :: line) t = none := by
  rw [value?_of_le_head (Int.le_of_lt h), if_neg (Int.ne_of_gt h)]

theorem descent?_of_lt (h : t < p.1) : descent? (p :: line) t = none := by
  cases line with
  | nil => rfl
  | cons q line => exact if_pos h

theorem descent?_head {p q : Int × α} (line : Polyline α) (h : p.1 < q.1) :
    descent? (p :: q :: line) p.1 = some (descent p q) := by
  rw [descent?, if_neg (Int.lt_irrefl p.1), if_pos (Or.inl h)]

theorem value?_of_all_before (h : ∀ p ∈ line, p.1 < t) : value? line t = none := by
  induction line with
  | nil => rfl
  | cons p line ih =>
    obtain ⟨hp, hline⟩ := List.forall_mem_cons.mp h
    cases line with
    | nil => exact if_neg (Int.ne_of_gt hp)
    | cons q rest =>
      have hq : q.1 < t := hline q List.mem_cons_self
      rw [value?, if_neg (by omega), if_neg (by omega), if_neg (by omega)]
      exact ih hline

theorem value?_append_cons (hbefore : ∀ p ∈ before, p.1 < t) (hq : t ≤ q.1) :
    value? (before ++ q :: rest) t =
      if q.1 = t then some q.2 else before.getLast?.map (between · q t) := by
  induction before with
  | nil => exact value?_of_le_head hq
  | cons p before ih =>
    obtain ⟨hp, htail⟩ := List.forall_mem_cons.mp hbefore
    cases before with
    | nil =>
      rw [List.singleton_append, value?, if_neg (by omega), if_neg (by omega)]
      by_cases here : q.1 = t
      · rw [if_neg (by omega), if_pos here, value?_of_le_head hq, if_pos here]
      · rw [if_pos (by omega), if_neg here]
        rfl
    | cons p' before =>
      have hp' : p'.1 < t := htail p' List.mem_cons_self
      rw [List.cons_append, List.cons_append, value?, if_neg (by omega), if_neg (by omega),
        if_neg (by omega), List.getLast?_cons_cons]
      exact ih htail

/-- What is read is a sample, or lies on the segment between two. -/
theorem value?_cases {v : α} (h : line.value? t = some v) :
    (∃ p ∈ line, p.1 = t ∧ v = p.2) ∨
      ∃ p ∈ line, ∃ q ∈ line, p.1 < t ∧ t < q.1 ∧ v = between p q t := by
  induction line with
  | nil => cases h
  | cons p line ih =>
    cases line with
    | nil =>
      obtain ⟨here, found⟩ := Option.ite_none_right_eq_some.mp h
      cases found
      exact Or.inl ⟨p, List.mem_cons_self, here.symm, rfl⟩
    | cons q rest =>
      rw [value?] at h
      by_cases early : t < p.1
      · rw [if_pos early] at h
        cases h
      · by_cases here : t = p.1
        · rw [if_neg early, if_pos here] at h
          cases h
          exact Or.inl ⟨p, List.mem_cons_self, here.symm, rfl⟩
        · by_cases before : t < q.1
          · rw [if_neg early, if_neg here, if_pos before] at h
            cases h
            refine Or.inr ⟨p, List.mem_cons_self, q, ?_, by omega, before, rfl⟩
            exact List.mem_cons_of_mem p List.mem_cons_self
          · rw [if_neg early, if_neg here, if_neg before] at h
            rcases ih h with ⟨r, hr, found⟩ | ⟨r, hr, s, hs, found⟩
            · exact Or.inl ⟨r, List.mem_cons_of_mem p hr, found⟩
            · exact Or.inr ⟨r, List.mem_cons_of_mem p hr, s, List.mem_cons_of_mem p hs, found⟩

theorem value?_isSome (order : line.Pairwise fun p r => p.1 ≤ r.1) {a z : Int × α}
    (ha : line.head? = some a) (hz : z ∈ line) (hat : a.1 ≤ t) (htz : t ≤ z.1) :
    (value? line t).isSome := by
  obtain ⟨before, q, rest, rfl, hbefore, hrest⟩ := exists_cut order hz htz
  have hq := hrest q List.mem_cons_self
  rw [value?_append_cons hbefore hq]
  by_cases here : q.1 = t
  · rw [if_pos here]
    rfl
  · rw [if_neg here]
    rcases List.eq_nil_or_concat' before with rfl | ⟨init, p, rfl⟩
    · obtain rfl : q = a := Option.some.inj ha
      omega
    · rw [List.getLast?_concat]
      rfl

theorem value?_of_mem (increase : line.Pairwise (·.1 < ·.1)) (hp : p ∈ line) :
    line.value? p.1 = some p.2 := by
  obtain ⟨before, q, rest, rfl, hbefore, hrest⟩ :=
    exists_cut (increase.imp Int.le_of_lt) hp (Int.le_refl p.1)
  have reached : p.1 ≤ q.1 := hrest q List.mem_cons_self
  have here : q = p := by
    rcases List.mem_append.mp hp with early | hp
    · exact absurd (hbefore p early) (Int.lt_irrefl _)
    · rcases List.mem_cons.mp hp with rfl | late
      · rfl
      · have := (List.pairwise_cons.mp (List.pairwise_append.mp increase).2.1).1 p late
        omega
  rw [value?_append_cons hbefore reached, here, if_pos rfl]

theorem descent?_of_all_before (h : ∀ p ∈ line, p.1 < t) : descent? line t = none := by
  induction line with
  | nil => rfl
  | cons p line ih =>
    obtain ⟨hp, hline⟩ := List.forall_mem_cons.mp h
    cases line with
    | nil => rfl
    | cons q rest =>
      have hq : q.1 < t := hline q List.mem_cons_self
      rw [descent?, if_neg (by omega), if_neg (by omega)]
      exact ih hline

theorem value?_segment (hbefore : ∀ r ∈ before, r.1 < p.1) (hp : p.1 ≤ t) (hq : t ≤ q.1) :
    value? (before ++ p :: q :: rest) t =
      if p.1 = t then some p.2 else if q.1 = t then some q.2 else some (between p q t) := by
  by_cases start : p.1 = t
  · rw [value?_append_cons (fun r hr => start ▸ hbefore r hr) (Int.le_of_eq start.symm),
      if_pos start, if_pos start]
  · have further : ∀ r ∈ before ++ [p], r.1 < t := by
      refine List.forall_mem_append.mpr ⟨fun r hr => ?_, List.forall_mem_singleton.mpr (by omega)⟩
      exact Int.lt_of_lt_of_le (hbefore r hr) hp
    have cut : before ++ p :: q :: rest = (before ++ [p]) ++ q :: rest := by
      rw [List.append_assoc]
      rfl
    rw [cut, value?_append_cons further hq, if_neg start, List.getLast?_concat]
    rfl

theorem descent?_segment (hbefore : ∀ r ∈ before, r.1 < p.1) (hp : p.1 ≤ t) (hq : t ≤ q.1)
    (hend : t < q.1 ∨ rest = []) :
    descent? (before ++ p :: q :: rest) t = some (descent p q) := by
  induction before with
  | nil =>
    have here : t < q.1 ∨ (t = q.1 ∧ rest.isEmpty) := by
      rw [List.isEmpty_iff]
      by_cases early : t < q.1
      · exact Or.inl early
      · exact Or.inr ⟨by omega, hend.resolve_left early⟩
    rw [List.nil_append, descent?, if_neg (Int.not_lt.mpr hp), if_pos here]
  | cons r before ih =>
    obtain ⟨hr, htail⟩ := List.forall_mem_cons.mp hbefore
    cases before with
    | nil =>
      have later : ¬(t < p.1 ∨ t = p.1 ∧ (q :: rest).isEmpty) := by
        rintro (early | ⟨-, ended⟩)
        · exact Int.not_lt.mpr hp early
        · cases ended
      rw [List.singleton_append, descent?, if_neg (by omega), if_neg later]
      exact ih htail
    | cons r' before =>
      have hr' : r'.1 < p.1 := htail r' List.mem_cons_self
      rw [List.cons_append, List.cons_append, descent?, if_neg (by omega), if_neg (by omega)]
      exact ih htail

theorem value?_append (h : ∃ q ∈ line, t < q.1) (more : Polyline α) :
    value? (line ++ more) t = value? line t := by
  induction line with
  | nil => exact absurd h (by simp)
  | cons p line ih =>
    by_cases before : t < p.1
    · rw [List.cons_append, value?_of_lt before, value?_of_lt before]
    · have later := (List.or_exists_of_exists_mem_cons h).resolve_left before
      cases line with
      | nil => exact absurd later (by simp)
      | cons q line =>
        have rest := ih later
        simp only [List.cons_append, value?, if_neg before] at rest ⊢
        rw [rest]

theorem descent?_append (h : ∃ q ∈ line, t < q.1) (more : Polyline α) :
    descent? (line ++ more) t = descent? line t := by
  induction line with
  | nil => exact absurd h (by simp)
  | cons p line ih =>
    by_cases before : t < p.1
    · rw [List.cons_append, descent?_of_lt before, descent?_of_lt before]
    · have later := (List.or_exists_of_exists_mem_cons h).resolve_left before
      cases line with
      | nil => exact absurd later (by simp)
      | cons q line =>
        have rest := ih later
        simp only [List.cons_append, descent?, if_neg before] at rest ⊢
        by_cases next : t < q.1
        · rw [if_pos (Or.inl next), if_pos (Or.inl next)]
        · obtain ⟨s, hs, -⟩ := (List.or_exists_of_exists_mem_cons later).resolve_left next
          have goesOn : line ≠ [] := List.ne_nil_of_mem hs
          rw [if_neg (by simp [next, goesOn]), if_neg (by simp [next, goesOn]), rest]

end AirTraffic.Polyline
