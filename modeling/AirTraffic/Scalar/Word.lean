/-!
# Machine words

Times are 64-bit words. A sum or a difference that leaves their range at one end comes in at the
other, as in a build without overflow checks.
-/
namespace AirTraffic.Word

/-- The number of words. -/
def count : Nat := 18446744073709551616

def Fits (n : Int) : Prop := -9223372036854775808 ≤ n ∧ n ≤ 9223372036854775807

instance (n : Int) : Decidable (Fits n) := inferInstanceAs (Decidable (_ ∧ _))

def sum (a b : Int) : Int := (a + b).bmod count

def difference (a b : Int) : Int := (a - b).bmod count

theorem bmod_of_fits {n : Int} (h : Fits n) : n.bmod count = n := by
  obtain ⟨low, high⟩ := h
  unfold count
  exact Int.bmod_eq_of_le (by omega) (by omega)

theorem sum_of_fits {a b : Int} (h : Fits (a + b)) : sum a b = a + b := bmod_of_fits h

theorem difference_of_fits {a b : Int} (h : Fits (a - b)) : difference a b = a - b :=
  bmod_of_fits h

theorem sum_le {a b : Int} (h : -9223372036854775808 ≤ a + b) : sum a b ≤ a + b := by
  unfold sum count
  rw [Int.bmod_def]
  split <;> omega

example : sum 1000 9223372036854775807 = -9223372036854774809 := by decide

end AirTraffic.Word
