import Mathlib.Algebra.Order.Field.Basic
import Mathlib.Tactic.Linarith
import Mathlib.Tactic.Ring

/-!
A delay that is doubled after each failure up to a cap. The delays are those of the
closed form, which no number of failures takes out of the bounds.
-/

namespace FailureResolver.Backoff

variable {α : Type} [Field α] [LinearOrder α] {initial cap : α}

def delay (initial cap : α) (failures : ℕ) : α := min (2 ^ failures * initial) cap

theorem delay_zero (hcap : initial ≤ cap) : delay initial cap 0 = initial := by
  unfold delay
  rw [pow_zero, one_mul]
  exact min_eq_left hcap

theorem delay_le_cap (failures : ℕ) : delay initial cap failures ≤ cap := min_le_right _ _

variable [IsStrictOrderedRing α]

theorem initial_le_delay (hinitial : 0 ≤ initial) (hcap : initial ≤ cap) (failures : ℕ) :
    initial ≤ delay initial cap failures := by
  have hpow : (1 : α) ≤ 2 ^ failures := one_le_pow₀ one_le_two
  refine le_min ?_ hcap
  exact le_mul_of_one_le_left hinitial hpow

/-- One more failure doubles the delay, as far as the cap lets it. -/
theorem delay_succ (hinitial : 0 ≤ initial) (hcap : initial ≤ cap) (failures : ℕ) :
    delay initial cap (failures + 1) = min (2 * delay initial cap failures) cap := by
  have hcap₀ : 0 ≤ cap := hinitial.trans hcap
  have hdouble : (2 : α) ^ (failures + 1) * initial = 2 * (2 ^ failures * initial) := by ring
  unfold delay
  rw [hdouble]
  by_cases hbelow : 2 ^ failures * initial ≤ cap
  · rw [min_eq_left hbelow]
  · have habove : cap ≤ 2 ^ failures * initial := le_of_not_ge hbelow
    rw [min_eq_right habove, min_eq_right (by linarith), min_eq_right (by linarith)]

end FailureResolver.Backoff
