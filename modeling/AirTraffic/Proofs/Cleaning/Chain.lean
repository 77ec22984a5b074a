import AirTraffic.Cleaning.Step

/-!
# Runs of steps

A run takes the steps of all groups in order, so groups do not matter to it. What a step brings
about and no later step undoes holds at the end of the run.
-/
namespace AirTraffic.Chain

variable {σ τ : Type}

mutual

def leaves : Chain σ → List σ
  | step s => [s]
  | group parts => leavesAll parts

def leavesAll : List (Chain σ) → List σ
  | [] => []
  | part :: rest => leaves part ++ leavesAll rest

end

theorem leavesAll_append (parts more : List (Chain σ)) :
    leavesAll (parts ++ more) = leavesAll parts ++ leavesAll more := by
  induction parts with
  | nil => rfl
  | cons part parts ih => rw [List.cons_append, leavesAll, ih, leavesAll, List.append_assoc]

def through (apply : σ → τ → Option τ) (steps : List σ) (x : τ) : Option τ :=
  steps.foldlM (fun x s => apply s x) x

variable {apply : σ → τ → Option τ}

theorem through_cons (s : σ) (steps : List σ) (x : τ) :
    through apply (s :: steps) x = (apply s x).bind (through apply steps) := rfl

theorem through_append (steps more : List σ) (x : τ) :
    through apply (steps ++ more) x = (through apply steps x).bind (through apply more) :=
  List.foldlM_append

mutual

theorem run_eq_through (part : Chain σ) (x : τ) :
    run apply part x = through apply part.leaves x := by
  cases part with
  | step s =>
    rw [leaves, through_cons, run]
    exact (Option.bind_fun_some _).symm
  | group parts =>
    rw [leaves, run]
    exact runAll_eq_through parts x

theorem runAll_eq_through (parts : List (Chain σ)) (x : τ) :
    runAll apply parts x = through apply (leavesAll parts) x := by
  cases parts with
  | nil => rfl
  | cons part rest =>
    rw [leavesAll, through_append, ← run_eq_through part x, runAll]
    cases run apply part x with
    | none => rfl
    | some y => exact runAll_eq_through rest y

end

theorem through_map {f : τ → τ} {steps : List σ}
    (h : ∀ s ∈ steps, ∀ x, apply s (f x) = (apply s x).map f) (x : τ) :
    through apply steps (f x) = (through apply steps x).map f := by
  induction steps generalizing x with
  | nil => rfl
  | cons s steps ih =>
    obtain ⟨hs, hsteps⟩ := List.forall_mem_cons.mp h
    rw [through_cons, through_cons, hs]
    cases apply s x with
    | none => rfl
    | some y => exact ih hsteps y

theorem through_keeps {steps : List σ} {P : τ → Prop}
    (keeps : ∀ s ∈ steps, ∀ x y, P x → apply s x = some y → P y) {x y : τ} (hx : P x)
    (h : through apply steps x = some y) : P y := by
  induction steps generalizing x with
  | nil => exact Option.some.inj h ▸ hx
  | cons s steps ih =>
    rw [through_cons] at h
    obtain ⟨z, hz, hy⟩ := Option.bind_eq_some_iff.mp h
    exact ih (fun s hs => keeps s (List.mem_cons_of_mem _ hs))
      (keeps s List.mem_cons_self x z hx hz) hy

theorem through_establishes {before after : List σ} {s : σ} {P : τ → Prop}
    (gives : ∀ x y, apply s x = some y → P y)
    (keeps : ∀ s ∈ after, ∀ x y, P x → apply s x = some y → P y) {x y : τ}
    (h : through apply (before ++ s :: after) x = some y) : P y := by
  rw [through_append] at h
  obtain ⟨u, -, h⟩ := Option.bind_eq_some_iff.mp h
  rw [through_cons] at h
  obtain ⟨v, hv, h⟩ := Option.bind_eq_some_iff.mp h
  exact through_keeps keeps (gives u v hv) h

end AirTraffic.Chain
