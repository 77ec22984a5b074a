import AirTraffic.TimeSpan

/-!
# Spans and their steps

The steps of a span go up from its start to its end, both included, and stay inside it. What two
spans have in common does not depend on which of them comes first.
-/
namespace AirTraffic.TimeSpan

theorem overlap?_comm (w v : TimeSpan) : w.overlap? v = v.overlap? w := by
  simp only [overlap?, Int.max_comm w.start v.start, Int.min_comm w.stop v.stop]

theorem contains_iff {w : TimeSpan} {t : Int} : w.contains t ↔ w.start ≤ t ∧ t ≤ w.stop := by
  simp [contains]

theorem between_of_le {a b : Int} (h : a ≤ b) : between a b = ⟨a, b, h⟩ := by
  rw [between]
  congr 1
  · exact Int.min_eq_left h
  · exact Int.max_eq_right h

/-- How many steps begin before the end. -/
def stepCount (w : TimeSpan) (step : Int) : Nat := ((w.duration + step - 1) / step).toNat

section Steps

variable (w : TimeSpan) {step : Int} (hstep : 0 < step)

include hstep

theorem steps_of_pos : w.steps step =
    (List.range (w.stepCount step)).map (fun i : Nat => w.start + i * step) ++ [w.stop] :=
  if_pos hstep

theorem lt_stop_iff (i : Nat) : w.start + i * step < w.stop ↔ i < w.stepCount step := by
  have span : w.duration = w.stop - w.start := rfl
  have count : (i : Int) + 1 ≤ (w.duration + step - 1) / step ↔
      (i + 1) * step ≤ w.duration + step - 1 := Int.le_ediv_iff_mul_le hstep
  rw [Int.add_mul, Int.one_mul] at count
  unfold stepCount
  omega

theorem steps_increase : (w.steps step).Pairwise (· < ·) := by
  rw [w.steps_of_pos hstep]
  refine List.pairwise_append.mpr ⟨?_, List.pairwise_singleton _ _, ?_⟩
  · refine List.pairwise_map.mpr (List.pairwise_lt_range.imp fun {i j} hij => ?_)
    have := Int.mul_lt_mul_of_pos_right (Int.ofNat_lt.mpr hij) hstep
    omega
  · intro t ht u hu
    obtain ⟨i, hi, rfl⟩ := List.mem_map.mp ht
    rw [List.mem_singleton.mp hu]
    exact (w.lt_stop_iff hstep i).mpr (List.mem_range.mp hi)

theorem steps_within {t : Int} (ht : t ∈ w.steps step) : w.start ≤ t ∧ t ≤ w.stop := by
  rw [w.steps_of_pos hstep] at ht
  rcases List.mem_append.mp ht with ht | ht
  · obtain ⟨i, hi, rfl⟩ := List.mem_map.mp ht
    have inside := (w.lt_stop_iff hstep i).mpr (List.mem_range.mp hi)
    have forward := Int.mul_nonneg (Int.natCast_nonneg i) (Int.le_of_lt hstep)
    omega
  · rw [List.mem_singleton.mp ht]
    exact ⟨w.start_le_stop, Int.le_refl _⟩

theorem head?_steps : (w.steps step).head? = some w.start := by
  rw [w.steps_of_pos hstep]
  rcases hcount : w.stepCount step with _ | count
  · have none : ¬w.start + (0 : Nat) * step < w.stop := by
      rw [w.lt_stop_iff hstep, hcount]
      exact Nat.lt_irrefl 0
    have ends := w.start_le_stop
    have instant : w.stop = w.start := by omega
    rw [List.range_zero, List.map_nil, List.nil_append, instant, List.head?_cons]
  · rw [List.range_succ_eq_map, List.map_cons, List.cons_append, List.head?_cons]
    exact congrArg some (by omega)

theorem getLast?_steps : (w.steps step).getLast? = some w.stop := by
  rw [w.steps_of_pos hstep]
  exact List.getLast?_concat

end Steps

end AirTraffic.TimeSpan
