import Mathlib.Algebra.BigOperators.Group.List.Basic
import Mathlib.Data.List.Forall2
import Mathlib.Data.List.Nodup
import Mathlib.Data.List.TakeWhile

/-!
# Lists and results

Facts that know nothing of air traffic.
-/
namespace AirTraffic

variable {β γ ε ε' : Type}

section Results

theorem exists_of_bind {x : Except ε β} {f : β → Except ε γ} {c : γ} (h : x >>= f = .ok c) :
    ∃ b, x = .ok b ∧ f b = .ok c := by
  cases x with
  | error e => cases h
  | ok b => exact ⟨b, rfl, h⟩

theorem error_of_bind {x : Except ε β} {f : β → Except ε γ} {e : ε}
    (h : x >>= f = .error e) : x = .error e ∨ ∃ b, x = .ok b ∧ f b = .error e := by
  cases x with
  | error e' => exact Or.inl (congrArg Except.error (Except.error.inj h))
  | ok b => exact Or.inr ⟨b, rfl, h⟩

theorem bind_of_ok {x : Except ε β} {f : β → Except ε γ} {b : β} {c : γ} (hx : x = .ok b)
    (hf : f b = .ok c) : x >>= f = .ok c := by
  rw [hx]
  exact hf

theorem exists_of_isOk {x : Except ε β} (h : x.isOk = true) : ∃ b, x = .ok b := by
  cases x with
  | error e => cases h
  | ok b => exact ⟨b, rfl⟩

theorem ok_of_mapError {x : Except ε β} {f : ε → ε'} {b : β} (h : x.mapError f = .ok b) :
    x = .ok b := by
  cases x with
  | error e => cases h
  | ok c =>
    obtain rfl := Except.ok.inj h
    rfl

end Results

section Lists

variable {xs : List β}

theorem foldl_or (flag : Bool) (xs : List β) (marks : β → Bool) :
    xs.foldl (fun flag k => flag || marks k) flag = (flag || xs.any marks) := by
  induction xs generalizing flag with
  | nil => exact (Bool.or_false flag).symm
  | cons k xs ih => rw [List.foldl_cons, ih, List.any_cons, Bool.or_assoc]

theorem reverse_take_succ {i : Nat} (h : i < xs.length) :
    (xs.take (i + 1)).reverse = xs[i] :: (xs.take i).reverse := by
  rw [List.take_succ_eq_append_getElem h, List.reverse_append]
  rfl

theorem getLast?_take_succ {i : Nat} (hi : i < xs.length) :
    (xs.take (i + 1)).getLast? = xs[i]? := by
  rw [List.getLast?_take, if_neg (Nat.succ_ne_zero i), Nat.add_sub_cancel,
    List.getElem?_eq_getElem hi, Option.some_or]

theorem map_range_parts (f : Nat → β) (a b c : Nat) :
    (List.range (a + (b + c))).map f =
      (List.range a).map f ++ ((List.range b).map (fun k => f (a + k)) ++
        (List.range c).map fun k => f (a + (b + k))) := by
  simp only [List.range_add, List.map_append, List.map_map, Function.comp_def]

theorem map_range_eq_replicate {f : Nat → β} {n : Nat} {c : β} (h : ∀ i < n, f i = c) :
    (List.range n).map f = List.replicate n c := by
  simpa [List.eq_replicate_iff] using h

theorem mapIdx_parts {f : Nat → β → β} {start stop : Nat} (before : β → β) (inside : Nat → β)
    (after : β → β) (hstart : start ≤ stop) (hstop : stop ≤ xs.length)
    (hbefore : ∀ j x, j < start → f j x = before x)
    (hinside : ∀ j x, start ≤ j → j < stop → f j x = inside j)
    (hafter : ∀ j x, stop ≤ j → j < xs.length → f j x = after x) :
    xs.mapIdx f = (xs.take start).map before ++
      ((List.range (stop - start)).map (fun k => inside (start + k)) ++
        (xs.drop stop).map after) := by
  have first : ((xs.take start).map before).length = start := by
    rw [List.length_map, List.length_take_of_le (by omega)]
  have second : ((List.range (stop - start)).map fun k => inside (start + k)).length =
      stop - start := by rw [List.length_map, List.length_range]
  refine List.ext_getElem ?_ fun j hj hj' => ?_
  · rw [List.length_mapIdx, List.length_append, List.length_append, first, second,
      List.length_map, List.length_drop]
    omega
  rw [List.length_mapIdx] at hj
  rw [List.getElem_mapIdx]
  rcases Nat.lt_or_ge j start with early | reached
  · rw [hbefore j _ early, List.getElem_append_left (by omega), List.getElem_map,
      List.getElem_take]
  rw [List.getElem_append_right (by omega)]
  rcases Nat.lt_or_ge j stop with within | late
  · rw [hinside j _ reached within, List.getElem_append_left (by omega), List.getElem_map,
      List.getElem_range]
    exact congrArg inside (by omega)
  · rw [hafter j _ late hj, List.getElem_append_right (by omega), List.getElem_map,
      List.getElem_drop]
    congr 2
    omega

theorem getD_toList {n : Nat} (v : Vector β n) (d : β) (r : Fin n) :
    v.toList.getD r.val d = v.get r := by
  have within : r.val < v.toList.length := by
    rw [Vector.length_toList]
    exact r.isLt
  rw [List.getD_eq_getElem?_getD, List.getElem?_eq_getElem within, Option.getD_some]
  rfl

theorem forall₂_filterMap_filter {f : β → Option γ} {R : γ → β → Prop}
    (h : ∀ x ∈ xs, ∀ y, f x = some y → R y x) :
    List.Forall₂ R (xs.filterMap f) (xs.filter fun x => (f x).isSome) := by
  induction xs with
  | nil => exact .nil
  | cons x xs ih =>
    obtain ⟨hx, hxs⟩ := List.forall_mem_cons.mp h
    cases found : f x with
    | none =>
      rw [List.filterMap_cons_none found, List.filter_cons_of_neg (by simp [found])]
      exact ih hxs
    | some y =>
      rw [List.filterMap_cons_some found, List.filter_cons_of_pos (by simp [found])]
      exact .cons (hx y found) (ih hxs)

theorem sum_map_ite_of_mem [DecidableEq β] [AddCommGroup γ]
    (distinct : xs.Nodup) {b : β} (hb : b ∈ xs) (f g : β → γ) :
    (xs.map fun x => if x = b then f x else g x).sum = f b - g b + (xs.map g).sum := by
  rw [List.sum_map_ite_eq, List.count_eq_one_of_mem distinct hb, one_nsmul]

end Lists

section Distinct

variable [DecidableEq β]

theorem nodup_eraseDups (xs : List β) : xs.eraseDups.Nodup := by
  match xs with
  | [] => exact List.nodup_nil
  | x :: xs =>
    rw [List.eraseDups_cons, List.nodup_cons]
    refine ⟨fun hx => ?_, nodup_eraseDups _⟩
    have kept := (List.mem_filter.mp (List.mem_eraseDups.mp hx)).2
    simp at kept
termination_by xs.length
decreasing_by exact Nat.lt_succ_of_le (List.length_filter_le _ _)

theorem filter_ne_middle {early late : List β} {x : β}
    (distinct : (early ++ x :: late).Nodup) :
    (early ++ x :: late).filter (· ≠ x) = early ++ late := by
  have apart := (List.nodup_middle.mp distinct).notMem
  rw [List.filter_append, List.filter_cons_of_neg (by simp), ← List.filter_append]
  refine List.filter_eq_self.mpr ?_
  intro y hy
  exact decide_eq_true (ne_of_mem_of_not_mem hy apart)

theorem filter_ne_append_perm {xs : List β} (distinct : xs.Nodup) {x : β}
    (hx : x ∈ xs) : (xs.filter (· ≠ x) ++ [x]).Perm xs := by
  obtain ⟨early, late, rfl⟩ := List.append_of_mem hx
  rw [filter_ne_middle distinct]
  exact (List.perm_append_singleton x _).trans List.perm_middle.symm

end Distinct

section Prefixes

variable {xs : List β} {p : β → Bool}

theorem take_length_takeWhile (p : β → Bool) (xs : List β) :
    xs.take (xs.takeWhile p).length = xs.takeWhile p :=
  (List.prefix_iff_eq_take.mp (List.takeWhile_prefix p)).symm

theorem drop_length_takeWhile (p : β → Bool) (xs : List β) :
    xs.drop (xs.takeWhile p).length = xs.dropWhile p := by
  have whole := List.takeWhile_append_dropWhile (p := p) (l := xs)
  rw [← List.append_cancel_left_eq (xs.takeWhile p), whole, ← take_length_takeWhile p xs,
    List.length_take, Nat.min_eq_left (List.takeWhile_prefix p).length_le,
    List.take_append_drop]

/-- A property that an entry has only if all before it do ends once. -/
theorem not_of_mem_dropWhile (h : xs.Pairwise fun x y => p y → p x) :
    ∀ x ∈ xs.dropWhile p, ¬p x := by
  induction xs with
  | nil => exact List.forall_mem_nil _
  | cons x xs ih =>
    obtain ⟨hx, hxs⟩ := List.pairwise_cons.mp h
    by_cases px : p x
    · rw [List.dropWhile_cons_of_pos px]
      exact ih hxs
    · rw [List.dropWhile_cons_of_neg px]
      exact List.forall_mem_cons.mpr ⟨px, fun y hy py => px (hx y hy py)⟩

theorem takeWhile_eq_filter (h : xs.Pairwise fun x y => p y → p x) :
    xs.takeWhile p = xs.filter p := by
  have kept : (xs.takeWhile p).filter p = xs.takeWhile p :=
    List.filter_eq_self.mpr fun x hx => List.mem_takeWhile_imp hx
  have dropped : (xs.dropWhile p).filter p = [] :=
    List.filter_eq_nil_iff.mpr (not_of_mem_dropWhile h)
  have whole := congrArg (List.filter p) (List.takeWhile_append_dropWhile (p := p) (l := xs))
  rwa [List.filter_append, kept, dropped, List.append_nil] at whole

theorem dropWhile_eq_filter (h : xs.Pairwise fun x y => p y → p x) :
    xs.dropWhile p = xs.filter fun x => !p x := by
  have kept : (xs.dropWhile p).filter (fun x => !p x) = xs.dropWhile p :=
    List.filter_eq_self.mpr fun x hx => by simpa using not_of_mem_dropWhile h x hx
  have gone : (xs.takeWhile p).filter (fun x => !p x) = [] :=
    List.filter_eq_nil_iff.mpr fun x hx => by simpa using List.mem_takeWhile_imp hx
  have whole := congrArg (List.filter fun x => !p x)
    (List.takeWhile_append_dropWhile (p := p) (l := xs))
  rwa [List.filter_append, kept, gone, List.nil_append] at whole

theorem lt_length_takeWhile_iff (h : xs.Pairwise fun x y => p y → p x) {i : Nat}
    (hi : i < xs.length) : i < (xs.takeWhile p).length ↔ p xs[i] := by
  constructor
  · intro early
    have taken := List.mem_takeWhile_imp (List.getElem_mem early)
    rwa [(List.takeWhile_prefix p).getElem early] at taken
  · intro holds
    by_contra late
    have dropped : xs[i] ∈ xs.dropWhile p := by
      obtain ⟨k, rfl⟩ := Nat.exists_eq_add_of_le (Nat.not_lt.mp late)
      rw [← drop_length_takeWhile]
      exact List.mem_drop_iff_getElem.mpr ⟨k, by rwa [Nat.add_comm], rfl⟩
    exact not_of_mem_dropWhile h _ dropped holds

end Prefixes

section Order

variable {times : List Int}

theorem le_of_order (order : times.Pairwise (· ≤ ·)) {i j : Nat} (h : i ≤ j)
    {t u : Int} (ht : times[i]? = some t) (hu : times[j]? = some u) : t ≤ u := by
  obtain ⟨inside, rfl⟩ := List.getElem?_eq_some_iff.mp ht
  obtain ⟨within, rfl⟩ := List.getElem?_eq_some_iff.mp hu
  rcases Nat.lt_or_eq_of_le h with earlier | rfl
  · exact List.pairwise_iff_getElem.mp order i j inside within earlier
  · exact Int.le_refl _

theorem pairwise_le_of_order (order : times.Pairwise (· ≤ ·)) (t : Int) :
    times.Pairwise fun u v => decide (v ≤ t) → decide (u ≤ t) := by
  refine order.imp fun {u v} huv hv => ?_
  have := of_decide_eq_true hv
  exact decide_eq_true (by omega)

theorem pairwise_lt_of_order (order : times.Pairwise (· ≤ ·)) (t : Int) :
    times.Pairwise fun u v => decide (v < t) → decide (u < t) := by
  refine order.imp fun {u v} huv hv => ?_
  have := of_decide_eq_true hv
  exact decide_eq_true (by omega)

end Order

end AirTraffic
