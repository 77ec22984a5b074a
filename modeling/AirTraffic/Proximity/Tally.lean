/-!
# Counted evaluations

Distance evaluations are what a search spends. A `Tally` is a value together with how many of them
it took; the value does not depend on the count.
-/
namespace AirTraffic

structure Tally (β : Type) where
  value : β
  calls : Nat
  deriving Repr

namespace Tally

instance : Monad Tally where
  pure x := ⟨x, 0⟩
  bind x f := ⟨(f x.value).value, x.calls + (f x.value).calls⟩

variable {β γ : Type}

@[simp] theorem value_pure (x : β) : (pure x : Tally β).value = x := rfl

@[simp] theorem calls_pure (x : β) : (pure x : Tally β).calls = 0 := rfl

@[simp] theorem value_bind (x : Tally β) (f : β → Tally γ) : (x >>= f).value = (f x.value).value :=
  rfl

@[simp] theorem calls_bind (x : Tally β) (f : β → Tally γ) :
    (x >>= f).calls = x.calls + (f x.value).calls := rfl

/-- One evaluation, which may fail and counts all the same. -/
def measure {ε δ : Type} (distance : β → β → Except ε δ) (a b : β) : ExceptT ε Tally δ :=
  ExceptT.mk ⟨distance a b, 1⟩

variable {ε δ : Type}

@[simp] theorem value_run_pure (x : β) : (pure x : ExceptT ε Tally β).run.value = .ok x := rfl

@[simp] theorem value_run_measure (distance : β → β → Except ε δ) (a b : β) :
    (measure distance a b).run.value = distance a b := rfl

theorem value_run_bind_ok {x : ExceptT ε Tally β} {b : β} (h : x.run.value = .ok b)
    (f : β → ExceptT ε Tally γ) : (x >>= f).run.value = (f b).run.value := by
  rw [ExceptT.run_bind, value_bind, h]

theorem value_run_measure_bind {distance : β → β → Except ε δ} {a b : β} {x : δ}
    (h : distance a b = .ok x)
    (f : δ → ExceptT ε Tally γ) : (measure distance a b >>= f).run.value = (f x).run.value :=
  value_run_bind_ok (x := measure distance a b) h f

theorem value_run_measure_bind_error {distance : β → β → Except ε δ} {a b : β} {e : ε}
    (h : distance a b = .error e)
    (f : δ → ExceptT ε Tally γ) : (measure distance a b >>= f).run.value = .error e := by
  rw [ExceptT.run_bind, value_bind, value_run_measure, h]
  rfl

end Tally
end AirTraffic
