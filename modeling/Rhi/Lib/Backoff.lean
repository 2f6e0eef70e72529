import Mathlib.Algebra.Order.Group.Nat
import Mathlib.Logic.Function.Iterate

/-!
# Delays that grow up to a ceiling

A delay grows by a factor from one turn to the next and is cut at a ceiling.  It may be computed at
once or turn by turn, with products that saturate and powers that are cut, as long as what is lost
lies above the ceiling.
-/

namespace Backoff

section Growth

/-- The delay after a number of turns. -/
def delay (factor initial ceiling turns : Nat) : Nat := min (initial * factor ^ turns) ceiling

variable {factor initial ceiling : Nat}

theorem delay_le (turns : Nat) : delay factor initial ceiling turns ≤ ceiling :=
  min_le_right _ _

/-- A delay is never below the first one. -/
theorem le_delay (positive : 0 < factor) (ordered : initial ≤ ceiling) (turns : Nat) :
    initial ≤ delay factor initial ceiling turns :=
  le_min (Nat.le_mul_of_pos_right initial (Nat.pow_pos positive)) ordered

theorem delay_mono (positive : 0 < factor) : Monotone (delay factor initial ceiling) := by
  intro before after order
  exact min_le_min_right ceiling
    (Nat.mul_le_mul_left initial (Nat.pow_le_pow_right positive order))

/-- A cut below the factor leaves the delay. -/
theorem min_mul_min (left right ceiling : Nat) (positive : 0 < right) :
    min (min left ceiling * right) ceiling = min (left * right) ceiling := by
  rcases Nat.le_total left ceiling with below | above
  · rw [min_eq_left below]
  · have leftLarge : ceiling ≤ left * right := above.trans (Nat.le_mul_of_pos_right left positive)
    have cutLarge : ceiling ≤ ceiling * right := Nat.le_mul_of_pos_right ceiling positive
    rw [min_eq_right above, min_eq_right leftLarge, min_eq_right cutLarge]

end Growth

section Computations

variable {factor initial ceiling : Nat}

/-- A turn that multiplies and cuts is taken as often as the delay says. -/
theorem iterate_eq_delay (positive : 0 < factor) (turns : Nat) :
    min ((fun bound => min (bound * factor) ceiling)^[turns] initial) ceiling =
      delay factor initial ceiling turns := by
  induction turns generalizing initial with
  | zero => rw [delay, Nat.pow_zero, Nat.mul_one, Function.iterate_zero_apply]
  | succ turns ih =>
      rw [Function.iterate_succ_apply, ih, delay, min_mul_min _ _ _ (Nat.pow_pos positive), delay,
        Nat.mul_assoc, ← Nat.pow_succ']

/-- Turns beyond the one that reaches the ceiling change nothing. -/
theorem delay_min {limit : Nat} (positive : 0 < factor)
    (reached : ceiling ≤ initial * factor ^ limit) (turns : Nat) :
    delay factor initial ceiling (min turns limit) = delay factor initial ceiling turns := by
  rcases Nat.le_total turns limit with below | above
  · rw [min_eq_left below]
  · have later : ceiling ≤ initial * factor ^ turns :=
      reached.trans (Nat.mul_le_mul_left initial (Nat.pow_le_pow_right positive above))
    rw [min_eq_right above, delay, delay, min_eq_right reached, min_eq_right later]

end Computations

end Backoff
