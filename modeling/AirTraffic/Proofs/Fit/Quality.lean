import AirTraffic.Proofs.Fit.Line

/-!
# How well a line fits one deviation

Where all observations but one are level, how well their line fits does not depend on how far that
one deviates, only on where it stands: the farther from the middle, the better the line follows it.
-/
namespace AirTraffic.Observations

open Scalar

variable {α : Type} [ExactScalar α]

theorem syy_eq (o : Observations α) : syy o = spread o.ys := dot_deviations o.ys

theorem spread_of_level {values : List α} {level : α} (flat : ∀ y ∈ values, y = level) :
    spread values = 0 := by
  have same : values = List.replicate values.length level := List.eq_replicate_of_mem flat
  rw [spread_eq, same, mean_eq]
  by_cases none : values.length = 0
  · simp [none]
  · have length : (values.length : α) ≠ 0 := Nat.cast_ne_zero.mpr none
    simp only [List.map_replicate, List.sum_replicate, List.length_replicate, nsmul_eq_mul]
    field_simp
    ring

theorem fitQuality_of_level {o : Observations α} {level : α} (flat : ∀ p ∈ o, p.2 = level) :
    fitQuality o = 1 := by
  have still : syy o = 0 := by
    rw [syy_eq]
    exact spread_of_level (List.forall_mem_map.mpr flat)
  have unexplained : explained? o = none := by
    rw [explained?, still]
    simp
  rw [fitQuality, unexplained]
  exact ExactScalar.one_eq

/-- What a line explains of one deviation at `b`. -/
def bumpQuality (xs : List α) (b : α) : α :=
  xs.length * (b - mean xs) ^ 2 / ((xs.length - 1) * spread xs)

theorem bumpQuality_eq {xs : List α} (some : xs ≠ []) (b : α) : bumpQuality xs b =
    (xs.length * b - xs.sum) ^ 2 /
      ((xs.length - 1) * (xs.length * (xs.map (· ^ 2)).sum - xs.sum ^ 2)) := by
  have length : (xs.length : α) ≠ 0 := by simpa using some
  have above : xs.length * (b - xs.sum / xs.length) ^ 2 =
      (xs.length * b - xs.sum) ^ 2 / xs.length := by
    field_simp
  have below : (xs.length - 1) * ((xs.map (· ^ 2)).sum - xs.sum * (xs.sum / xs.length)) =
      (xs.length - 1) * (xs.length * (xs.map (· ^ 2)).sum - xs.sum ^ 2) / xs.length := by
    field_simp
  rw [bumpQuality, spread_eq, mean_eq, above, below, div_div_div_cancel_right₀ length]

section Bump

variable {xs : List α} (distinct : xs.Nodup) {b : α} (hb : b ∈ xs) (level deviation : α)

include distinct hb

theorem sum_bump : (xs.map fun x => if x = b then level + deviation else level).sum =
    xs.length * level + deviation := by
  rw [sum_map_ite_of_mem distinct hb (fun _ => level + deviation) fun _ => level]
  simp only [List.map_const', List.sum_replicate, nsmul_eq_mul]
  ring

theorem spread_bump : spread (xs.map fun x => if x = b then level + deviation else level) =
    deviation ^ 2 * ((xs.length - 1) / xs.length) := by
  have length : (xs.length : α) ≠ 0 :=
    Nat.cast_ne_zero.mpr (List.length_pos_of_mem hb).ne'
  have squares : ((xs.map fun x => if x = b then level + deviation else level).map (· ^ 2)).sum =
      (level + deviation) ^ 2 - level ^ 2 + xs.length * level ^ 2 := by
    rw [List.map_map]
    simp only [Function.comp_def, ite_pow]
    rw [sum_map_ite_of_mem distinct hb (fun _ => (level + deviation) ^ 2) fun _ => level ^ 2]
    simp only [List.map_const', List.sum_replicate, nsmul_eq_mul]
  rw [spread_eq, squares, mean_eq, sum_bump distinct hb, List.length_map]
  field_simp
  ring

end Bump

section Fit

variable {o : Observations α} (spreads : spread o.xs ≠ 0) (several : 2 ≤ o.length)
  (distinct : o.xs.Nodup) {level deviation b : α} (hb : b ∈ o.xs)
  (bump : ∀ p ∈ o, p.2 = if p.1 = b then level + deviation else level)

include bump

theorem ys_of_bump : o.ys = o.xs.map fun x => if x = b then level + deviation else level := by
  rw [ys, xs, List.map_map]
  exact List.map_congr_left bump

include distinct hb

theorem sxy_of_bump : sxy o = deviation * (b - mean o.xs) := by
  have balanced := sum_deviations o.xs
  have apart : (o.map fun p => (p.1 - mean o.xs) * p.2) = o.xs.map fun x =>
      if x = b then (x - mean o.xs) * (level + deviation) else (x - mean o.xs) * level := by
    rw [xs, List.map_map]
    refine List.map_congr_left ?_
    intro p hp
    rw [bump p hp, mul_ite]
    rfl
  rw [sxy_eq, apart, sum_map_ite_of_mem distinct hb, List.sum_map_mul_right, balanced]
  ring

include spreads several

theorem fitQuality_of_bump (deviates : deviation ≠ 0) : fitQuality o = bumpQuality o.xs b := by
  have length : (o.xs.length : α) = o.length := by rw [xs, List.length_map]
  have length_ne : (o.length : α) ≠ 0 := Nat.cast_ne_zero.mpr (by omega)
  have more : (o.length : α) - 1 ≠ 0 := by
    have : (o.length : α) ≠ 1 := Nat.cast_ne_one.mpr (by omega)
    exact sub_ne_zero.mpr this
  have vary : syy o = deviation ^ 2 * ((o.length - 1) / o.length) := by
    rw [syy_eq, ys_of_bump bump, spread_bump distinct hb, length]
  have varies : syy o ≠ 0 := by
    rw [vary]
    exact mul_ne_zero (pow_ne_zero 2 deviates) (div_ne_zero more length_ne)
  have few : ¬o.length < 2 := Nat.not_lt.mpr several
  have explained : explained? o = some (sxy o * sxy o / sxx o / syy o) := by
    simp [explained?, few, sxx_eq, spreads, varies]
  rw [fitQuality, explained]
  simp only [ExactScalar.isFinite_eq, if_true]
  rw [vary, sxx_eq, sxy_of_bump distinct hb bump, bumpQuality, length]
  field_simp

end Fit

section Window

/-- Seven abscissas a unit apart, `d` of them before zero. -/
def window (unit d : α) : List α := (List.range 7).map fun j : Nat => unit * (j - d)

variable {unit d : α}

theorem sum_window : (window unit d).sum = -(7 * unit * (d - 3)) := by
  simp [window, List.range_succ]
  ring

theorem sum_sq_window : ((window unit d).map (· ^ 2)).sum = unit ^ 2 * (28 + 7 * (d - 3) ^ 2) := by
  simp [window, List.range_succ]
  ring

theorem length_window : (window unit d).length = 7 := by
  rw [window, List.length_map, List.length_range]

theorem abs_place_le {place : Nat} (h : place < 7) : |(place : α) - 3| ≤ 3 := by
  have last : (place : α) ≤ 6 := by exact_mod_cast Nat.le_of_lt_succ h
  have first : (0 : α) ≤ place := Nat.cast_nonneg place
  rw [abs_le]
  constructor
  · linarith
  · linarith

theorem exists_place {b : α} (hb : b ∈ window unit d) : ∃ p, |p - 3| ≤ 3 ∧ b = unit * (p - d) := by
  obtain ⟨j, hj, rfl⟩ := List.mem_map.mp hb
  exact ⟨j, abs_place_le (List.mem_range.mp hj), rfl⟩

theorem nodup_window (moves : unit ≠ 0) : (window unit d).Nodup := by
  refine List.nodup_range.map ?_
  intro j k same
  exact Nat.cast_injective (sub_left_injective (mul_left_cancel₀ moves same))

variable {xs : List α} (whole : (xs ++ [0]).Perm (window unit d))

include whole

theorem sums_of_window : xs.sum = -(7 * unit * (d - 3)) ∧
    (xs.map (· ^ 2)).sum = unit ^ 2 * (28 + 7 * (d - 3) ^ 2) ∧ xs.length = 6 := by
  have sum := whole.sum_eq
  have squares := (whole.map (· ^ 2)).sum_eq
  have length := whole.length_eq
  rw [List.sum_append, sum_window] at sum
  rw [List.map_append, List.sum_append, sum_sq_window] at squares
  rw [List.length_append, length_window] at length
  exact ⟨by simpa using sum, by simpa using squares, Nat.succ.inj length⟩

variable (moves : unit ≠ 0)

include moves

/-- All seven: a deviation in the middle is not explained at all, one at an end to three eighths. -/
theorem bumpQuality_seven (p : α) :
    bumpQuality (xs ++ [0]) (unit * (p - d)) = (p - 3) ^ 2 / 24 := by
  have above : 7 * (unit * (p - d)) - -(7 * unit * (d - 3)) = 7 * unit * (p - 3) := by ring
  have below : ((7 : α) - 1) *
      (7 * (unit ^ 2 * (28 + 7 * (d - 3) ^ 2)) - (-(7 * unit * (d - 3))) ^ 2) =
      (7 * unit) ^ 2 * 24 := by ring
  have scale : 7 * unit ≠ 0 := mul_ne_zero (by norm_num) moves
  rw [bumpQuality_eq (by simp), whole.length_eq, whole.sum_eq, (whole.map _).sum_eq, length_window,
    sum_window, sum_sq_window, Nat.cast_ofNat, above, below, mul_pow _ (p - 3),
    mul_div_mul_left _ _ (pow_ne_zero 2 scale)]

theorem bumpQuality_six (p : α) : bumpQuality xs (unit * (p - d)) =
    (6 * (p - 3) + (d - 3)) ^ 2 / (35 * (24 - (d - 3) ^ 2)) := by
  obtain ⟨sum, squares, length⟩ := sums_of_window whole
  have some : xs ≠ [] := List.ne_nil_of_length_pos (by omega)
  have above : (6 : α) * (unit * (p - d)) - -(7 * unit * (d - 3)) =
      unit * (6 * (p - 3) + (d - 3)) := by ring
  have below : ((6 : α) - 1) *
      (6 * (unit ^ 2 * (28 + 7 * (d - 3) ^ 2)) - (-(7 * unit * (d - 3))) ^ 2) =
      unit ^ 2 * (35 * (24 - (d - 3) ^ 2)) := by ring
  rw [bumpQuality_eq some, sum, squares, length, Nat.cast_ofNat, above, below, mul_pow,
    mul_div_mul_left _ _ (pow_ne_zero 2 moves)]

theorem bumpQuality_drop_le {p : α} (hp : |p - 3| ≤ 3) (hd : |d - 3| ≤ 3) :
    bumpQuality xs (unit * (p - d)) - bumpQuality (xs ++ [0]) (unit * (p - d)) ≤ 1 / 2 := by
  have place := sq_le_sq' (neg_le_of_abs_le hp) (le_of_abs_le hp)
  have zero := sq_le_sq' (neg_le_of_abs_le hd) (le_of_abs_le hd)
  have positive : (0 : α) < 35 * (24 - (d - 3) ^ 2) := by linarith
  have product : 0 ≤ (9 - (d - 3) ^ 2) * (12 + (p - 3) ^ 2) := by
    apply mul_nonneg
    · linarith
    · exact add_nonneg (by norm_num) (sq_nonneg _)
  have mixed := sq_nonneg ((p - 3) - (d - 3))
  rw [bumpQuality_six whole moves, bumpQuality_seven whole moves, sub_le_iff_le_add,
    div_le_iff₀ positive]
  linarith

end Window

end AirTraffic.Observations
