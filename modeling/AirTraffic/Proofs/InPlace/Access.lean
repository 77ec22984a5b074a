import AirTraffic.Proofs.Basic

/-!
# Checked access

An array is read and written by index, and a run that reaches past its ends does not go on. Where
an access is known to stay inside, it is the plain operation on lists.
-/
namespace AirTraffic.InPlace

/-- What ends a run. -/
inductive Fault where
  | place (index length : Nat)
  | stretch (start stop length : Nat)
  | belowZero (minuend subtrahend : Nat)
  | divisionByZero
  | shape (columns rows : Nat)
  deriving DecidableEq, Repr

abbrev Checked := Except Fault

variable {β γ : Type}

def read (xs : List β) (i : Nat) : Checked β :=
  if h : i < xs.length then .ok xs[i] else .error (.place i xs.length)

def readIf (condition : Bool) (xs : List β) (i : Nat) : Checked (Option β) :=
  if condition then some <$> read xs i else .ok none

def write (xs : List β) (i : Nat) (x : β) : Checked (List β) :=
  if i < xs.length then .ok (xs.set i x) else .error (.place i xs.length)

def revise (xs : List β) (i : Nat) (edit : β → β) : Checked (List β) := do
  write xs i (edit (← read xs i))

/-- The entries from `start` on and before `stop`. -/
def slice (xs : List β) (start stop : Nat) : Checked (List β) :=
  if start ≤ stop ∧ stop ≤ xs.length then .ok ((xs.drop start).take (stop - start))
  else .error (.stretch start stop xs.length)

def sweep (xs : List β) (start stop : Nat) (edit : β → β) : Checked (List β) :=
  if start ≤ stop ∧ stop ≤ xs.length then
    .ok (xs.mapIdx fun i x => if start ≤ i ∧ i < stop then edit x else x)
  else .error (.stretch start stop xs.length)

/-- First what to do is found for every index, then it is done. -/
def reviseFound {δ : Type} (find : Nat → Checked (Option δ)) (edit : δ → β → β) (xs : List β) :
    Checked (List β) := do
  let found ← (List.range xs.length).mapM fun i => return (← find i).map (i, ·)
  (found.filterMap id).foldlM (fun ys c => revise ys c.1 (edit c.2)) xs

def difference (m n : Nat) : Checked Nat :=
  if n ≤ m then .ok (m - n) else .error (.belowZero m n)

def remainder (a b : Int) : Checked Int :=
  if b = 0 then .error .divisionByZero else .ok (a % b)

/-- The index at which a property ends, if it ends once, by halving the indices in question. -/
def partitionPoint (p : β → Bool) (xs : List β) (lo hi : Nat) : Checked Nat :=
  if lo < hi then do
    if p (← read xs ((lo + hi) / 2)) then partitionPoint p xs ((lo + hi) / 2 + 1) hi
    else partitionPoint p xs lo ((lo + hi) / 2)
  else .ok lo
termination_by hi - lo

@[simp] theorem ok_bind (x : β) (f : β → Checked γ) : (.ok x >>= f : Checked γ) = f x := rfl

variable {xs : List β} {i start stop : Nat}

theorem read_of_lt (h : i < xs.length) : read xs i = .ok xs[i] := dif_pos h

theorem read_of_getElem? {x : β} (h : xs[i]? = some x) : read xs i = .ok x := by
  obtain ⟨hi, rfl⟩ := List.getElem?_eq_some_iff.mp h
  exact read_of_lt hi

theorem readIf_eq {condition : Bool} (h : condition → i < xs.length) :
    readIf condition xs i = .ok (if condition then xs[i]? else none) := by
  unfold readIf
  split
  · next holds => rw [read_of_lt (h holds), List.getElem?_eq_getElem (h holds)]; rfl
  · rfl

theorem write_of_lt (h : i < xs.length) (x : β) : write xs i x = .ok (xs.set i x) := if_pos h

theorem slice_of_le (hstart : start ≤ stop) (hstop : stop ≤ xs.length) :
    slice xs start stop = .ok ((xs.drop start).take (stop - start)) := if_pos ⟨hstart, hstop⟩

example : slice [7, 8, 9] 2 1 = .error (.stretch 2 1 3) := rfl

theorem slice_eq_ok {ys : List β} : slice xs start stop = .ok ys ↔
    start ≤ stop ∧ stop ≤ xs.length ∧ (xs.drop start).take (stop - start) = ys := by
  unfold slice
  by_cases h : start ≤ stop ∧ stop ≤ xs.length
  · rw [if_pos h, Except.ok.injEq, ← and_assoc, and_iff_right h]
  · rw [if_neg h, ← and_assoc]
    exact iff_of_false (by rintro ⟨⟩) fun h' => h h'.1

theorem difference_of_le {m n : Nat} (h : n ≤ m) : difference m n = .ok (m - n) := if_pos h

section Entries

variable {source : List γ} (done : Nat → γ → β)

theorem ok_mapIdx_congr {f g : Nat → γ → β}
    (h : ∀ j (hj : j < source.length), f j source[j] = g j source[j]) :
    (.ok (source.mapIdx f) : Checked (List β)) = .ok (source.mapIdx g) := by
  refine congrArg Except.ok (List.ext_getElem (by simp) fun j hj _ => ?_)
  rw [List.length_mapIdx] at hj
  rw [List.getElem_mapIdx, List.getElem_mapIdx]
  exact h j hj

theorem read_mapIdx (h : i < source.length) :
    read (source.mapIdx done) i = .ok (done i source[i]) := by
  have inside : i < (source.mapIdx done).length := by rwa [List.length_mapIdx]
  rw [read_of_lt inside, List.getElem_mapIdx]

theorem write_mapIdx (h : i < source.length) (x : β) : write (source.mapIdx done) i x =
    .ok (source.mapIdx fun j y => if j = i then x else done j y) := by
  have inside : i < (source.mapIdx done).length := by rwa [List.length_mapIdx]
  rw [write_of_lt inside]
  refine congrArg Except.ok (List.ext_getElem (by simp) fun j hj hj' => ?_)
  simp only [List.getElem_set, List.getElem_mapIdx, eq_comm (a := i)]

theorem revise_mapIdx (h : i < source.length) (edit : β → β) : revise (source.mapIdx done) i edit =
    .ok (source.mapIdx fun j y => if j = i then edit (done j y) else done j y) := by
  unfold revise
  rw [read_mapIdx done h, ok_bind, write_mapIdx done h]
  refine ok_mapIdx_congr fun j hj => ?_
  split
  · next h => subst h; rfl
  · rfl

theorem sweep_mapIdx (hstart : start ≤ stop) (hstop : stop ≤ source.length) (edit : β → β) :
    sweep (source.mapIdx done) start stop edit = .ok
      (source.mapIdx fun j y => if start ≤ j ∧ j < stop then edit (done j y) else done j y) := by
  unfold sweep
  rw [List.length_mapIdx, if_pos ⟨hstart, hstop⟩, List.mapIdx_mapIdx]
  rfl

end Entries

theorem mapM_ok {f : β → Checked γ} {g : β → γ} (h : ∀ x ∈ xs, f x = .ok (g x)) :
    xs.mapM f = .ok (xs.map g) := by
  induction xs with
  | nil => rfl
  | cons x xs ih =>
    obtain ⟨hx, hxs⟩ := List.forall_mem_cons.mp h
    rw [List.mapM_cons, hx, ih hxs]
    rfl

theorem mapM_read {places : List Nat} (h : ∀ i ∈ places, i < xs.length) :
    places.mapM (read xs) = .ok (places.filterMap (xs[·]?)) := by
  induction places with
  | nil => rfl
  | cons i places ih =>
    obtain ⟨hi, hplaces⟩ := List.forall_mem_cons.mp h
    rw [List.mapM_cons, read_of_lt hi, ih hplaces,
      List.filterMap_cons_some (List.getElem?_eq_getElem hi)]
    rfl

theorem mapM_zipIdx {f : β × Nat → Checked γ} {g : Nat → β → γ}
    (h : ∀ i (hi : i < xs.length), f (xs[i], i) = .ok (g i xs[i])) :
    xs.zipIdx.mapM f = .ok (xs.mapIdx g) := by
  rw [List.mapIdx_eq_zipIdx_map]
  refine mapM_ok ?_
  rintro ⟨x, i⟩ hp
  obtain ⟨-, hi, hx⟩ := List.mem_zipIdx hp
  rw [Nat.zero_add] at hi
  rw [hx]
  exact h i hi

theorem mapM_range {f : Nat → Checked γ} {g : β → γ}
    (h : ∀ i (hi : i < xs.length), f i = .ok (g xs[i])) :
    (List.range xs.length).mapM f = .ok (xs.map g) := by
  have indices : List.range xs.length = xs.zipIdx.map Prod.snd := by
    rw [List.zipIdx_map_snd, List.range_eq_range']
  have values : xs.mapIdx (fun _ x => g x) = xs.map g :=
    List.ext_getElem (by simp) (by simp)
  rw [indices, List.mapM_map, ← values]
  exact mapM_zipIdx h

/-- Each round of a loop edits the entries on their own, and so does the loop. -/
theorem foldlM_edits {ι : Type} {source : List γ} {rounds : List ι}
    {round : List β → ι → Checked (List β)} (edit : ι → Nat → β → β)
    (h : ∀ k ∈ rounds, ∀ done : Nat → γ → β,
      round (source.mapIdx done) k = .ok (source.mapIdx fun j y => edit k j (done j y)))
    (done : Nat → γ → β) : rounds.foldlM round (source.mapIdx done) =
      .ok (source.mapIdx fun j y => rounds.foldl (fun x k => edit k j x) (done j y)) := by
  induction rounds generalizing done with
  | nil => rfl
  | cons k rounds ih =>
    obtain ⟨hk, hrounds⟩ := List.forall_mem_cons.mp h
    rw [List.foldlM_cons, hk done, ok_bind]
    exact ih hrounds fun j y => edit k j (done j y)

section Find

variable {δ : Type} (find : Nat → Option δ) (edit : δ → β → β)

/-- An index and what is found for it, for all indices below `n` for which something is. -/
def findings (n : Nat) : List (Nat × δ) := (List.range n).filterMap fun i => (find i).map (i, ·)

theorem foldl_findings (n j : Nat) (x : β) :
    (findings find n).foldl (fun y c => if j = c.1 then edit c.2 y else y) x =
      if j < n then (find j).elim x (edit · x) else x := by
  induction n with
  | zero => rfl
  | succ n ih =>
    have last (y : β) : ([n].filterMap fun i => (find i).map (i, ·)).foldl
        (fun y c => if j = c.1 then edit c.2 y else y) y =
          if j = n then (find n).elim y (edit · y) else y := by
      cases hn : find n with
      | none => simp [hn]
      | some d => simp [hn]
    unfold findings at ih ⊢
    rw [List.range_succ, List.filterMap_append, List.foldl_append, ih, last]
    rcases Nat.lt_trichotomy j n with earlier | rfl | later
    · rw [if_pos earlier, if_pos (Nat.lt_succ_of_lt earlier), if_neg (Nat.ne_of_lt earlier)]
    · rw [if_neg (Nat.lt_irrefl j), if_pos (Nat.lt_succ_self j), if_pos rfl]
    · rw [if_neg (Nat.not_lt_of_gt later), if_neg (Nat.not_lt_of_ge later),
        if_neg (Nat.ne_of_gt later)]

theorem foldlM_findings (xs : List β) :
    (findings find xs.length).foldlM (fun ys c => revise ys c.1 (edit c.2)) xs =
      .ok (xs.mapIdx fun j x => (find j).elim x (edit · x)) := by
  have each : ∀ c ∈ findings find xs.length, ∀ done : Nat → β → β,
      revise (xs.mapIdx done) c.1 (edit c.2) =
        .ok (xs.mapIdx fun j x => if j = c.1 then edit c.2 (done j x) else done j x) := by
    intro c hc done
    obtain ⟨i, hi, hfound⟩ := List.mem_filterMap.mp hc
    obtain ⟨d, -, rfl⟩ := Option.map_eq_some_iff.mp hfound
    exact revise_mapIdx done (List.mem_range.mp hi) _
  have loop : (findings find xs.length).foldlM (fun ys c => revise ys c.1 (edit c.2))
      (xs.mapIdx fun _ x => x) = .ok (xs.mapIdx fun j x => (findings find xs.length).foldl
        (fun y c => if j = c.1 then edit c.2 y else y) x) :=
    foldlM_edits (fun (c : Nat × δ) j x => if j = c.1 then edit c.2 x else x) each fun _ x => x
  have untouched : xs.mapIdx (fun _ x => x) = xs := List.ext_getElem (by simp) (by simp)
  rw [untouched] at loop
  rw [loop]
  refine ok_mapIdx_congr fun j hj => ?_
  rw [foldl_findings, if_pos hj]

theorem reviseFound_ok {search : Nat → Checked (Option δ)}
    (h : ∀ i < xs.length, search i = .ok (find i)) : reviseFound search edit xs =
      .ok (xs.mapIdx fun j x => (find j).elim x (edit · x)) := by
  have found : (List.range xs.length).mapM (fun i => return (← search i).map (i, ·)) =
      .ok ((List.range xs.length).map fun i => (find i).map (i, ·)) := by
    refine mapM_ok ?_
    intro i hi
    rw [h i (List.mem_range.mp hi)]
    rfl
  unfold reviseFound
  rw [found, ok_bind, List.filterMap_map, Function.id_comp]
  exact foldlM_findings find edit xs

end Find

theorem partitionPoint_append {p : β → Bool} {before after : List β} (hbefore : ∀ x ∈ before, p x)
    (hafter : ∀ x ∈ after, ¬p x) {lo hi : Nat} (hlo : lo ≤ before.length)
    (hhi : before.length ≤ hi) (hin : hi ≤ (before ++ after).length) :
    partitionPoint p (before ++ after) lo hi = .ok before.length := by
  fun_induction partitionPoint p (before ++ after) lo hi with
  | case1 lo hi hlt ihAbove ihBelow =>
    have inside : (lo + hi) / 2 < (before ++ after).length := by omega
    rw [read_of_lt inside, ok_bind]
    rcases Nat.lt_or_ge ((lo + hi) / 2) before.length with early | late
    · rw [List.getElem_append_left early, if_pos (hbefore _ (List.getElem_mem _))]
      exact ihAbove early hhi hin
    · rw [List.getElem_append_right late, if_neg (hafter _ (List.getElem_mem _))]
      exact ihBelow hlo late (Nat.le_of_lt inside)
  | case2 lo hi hge => exact congrArg Except.ok (by omega)

theorem partitionPoint_eq {p : β → Bool} (h : xs.Pairwise fun x y => p y → p x) :
    partitionPoint p xs 0 xs.length = .ok (xs.takeWhile p).length := by
  have whole := List.takeWhile_append_dropWhile (p := p) (l := xs)
  have found : partitionPoint p (xs.takeWhile p ++ xs.dropWhile p) 0 xs.length =
      .ok (xs.takeWhile p).length :=
    partitionPoint_append (fun x hx => List.mem_takeWhile_imp hx) (not_of_mem_dropWhile h)
      (Nat.zero_le _) (List.takeWhile_prefix p).length_le (by rw [whole])
  rwa [whole] at found

theorem slice_takeWhile {p q : β → Bool} (hp : xs.Pairwise fun x y => p y → p x)
    (hq : xs.Pairwise fun x y => q y → q x) (hpq : ∀ x ∈ xs, p x → q x) :
    slice xs (xs.takeWhile p).length (xs.takeWhile q).length =
      .ok (xs.filter fun x => !p x && q x) := by
  induction xs with
  | nil => rfl
  | cons x xs ih =>
    by_cases px : p x
    · have qx : q x := hpq x List.mem_cons_self px
      obtain ⟨hstart, hstop, taken⟩ := slice_eq_ok.mp <|
        ih (List.pairwise_cons.mp hp).2 (List.pairwise_cons.mp hq).2 fun y hy =>
          hpq y (List.mem_cons_of_mem x hy)
      rw [List.takeWhile_cons_of_pos px, List.takeWhile_cons_of_pos qx,
        List.filter_cons_of_neg (by simp [px])]
      refine slice_eq_ok.mpr ⟨Nat.succ_le_succ hstart, Nat.succ_le_succ hstop, ?_⟩
      rw [List.length_cons, List.length_cons, Nat.succ_sub_succ, List.drop_succ_cons, taken]
    · have none : ∀ y ∈ x :: xs, ¬p y := by
        refine List.forall_mem_cons.mpr ⟨px, fun y hy py => px ?_⟩
        exact (List.pairwise_cons.mp hp).1 y hy py
      have second : (x :: xs).filter (fun y => !p y && q y) = (x :: xs).filter q :=
        List.filter_congr fun y hy => by simp [none y hy]
      rw [List.takeWhile_cons_of_neg px, List.length_nil, second, ← takeWhile_eq_filter hq,
        slice_of_le (Nat.zero_le _) (List.takeWhile_prefix q).length_le, List.drop_zero,
        Nat.sub_zero, take_length_takeWhile]

end AirTraffic.InPlace
