import Mathlib.Algebra.BigOperators.Group.Finset.Basic
import Mathlib.Algebra.Order.Floor.Div
import Mathlib.Order.Interval.Finset.Nat

/-!
# Rejection sampling by multiplication

A draw out of `size` values is scaled to one of `count` outcomes: its outcome is the high part of
the product of the draw and `count`.  Draws whose low part is below the remainder of `size` by
`count` are rejected, which leaves every outcome with the same number of draws.
-/

namespace Rejection

section Draws

/-- The outcome of a draw. -/
def outcome (size count draw : Nat) : Nat := draw * count / size

/-- Draws with a low part below the uneven rest of the size are rejected. -/
def Accepted (size count draw : Nat) : Prop := size % count ≤ draw * count % size

instance (size count : Nat) : DecidablePred (Accepted size count) :=
  fun draw => inferInstanceAs (Decidable (size % count ≤ draw * count % size))

variable {size count draw chosen : Nat}

theorem outcome_lt (small : draw < size) (positive : 0 < count) : outcome size count draw < count :=
  Nat.div_lt_of_lt_mul (Nat.mul_lt_mul_of_pos_right small positive)

/-- The accepted draws of an outcome are those whose product lies in an interval. -/
theorem accepted_outcome_iff (positive : 0 < size) :
    Accepted size count draw ∧ outcome size count draw = chosen ↔
      chosen * size + size % count ≤ draw * count ∧ draw * count < (chosen + 1) * size := by
  have split := Nat.div_add_mod (draw * count) size
  have low := Nat.mod_lt (draw * count) positive
  have next : (chosen + 1) * size = chosen * size + size := Nat.succ_mul chosen size
  unfold Accepted outcome
  constructor
  · rintro ⟨accepted, rfl⟩
    rw [Nat.mul_comm size] at split
    omega
  · rintro ⟨above, below⟩
    have high : draw * count / size = chosen :=
      Nat.div_eq_of_lt_le (by omega) below
    rw [high, Nat.mul_comm size] at split
    exact ⟨by omega, high⟩

/-- The length of that interval is a multiple of the number of outcomes. -/
theorem next_eq (size count chosen : Nat) :
    (chosen + 1) * size = chosen * size + size % count + count * (size / count) := by
  have split := Nat.mod_add_div size count
  rw [Nat.succ_mul]
  omega

/-- The accepted draws of an outcome are consecutive. -/
theorem accepted_outcome_iff_mem (sizePositive : 0 < size) (countPositive : 0 < count) :
    Accepted size count draw ∧ outcome size count draw = chosen ↔
      draw ∈ Finset.Ico ((chosen * size + size % count) ⌈/⌉ count)
        ((chosen * size + size % count) ⌈/⌉ count + size / count) := by
  have shifted : (chosen * size + size % count + count * (size / count)) ⌈/⌉ count =
      (chosen * size + size % count) ⌈/⌉ count + size / count := by
    rw [Nat.ceilDiv_eq_add_pred_div, Nat.ceilDiv_eq_add_pred_div,
      ← Nat.add_mul_div_left _ _ countPositive]
    congr 1
    omega
  rw [accepted_outcome_iff sizePositive, Finset.mem_Ico, ceilDiv_le_iff_le_mul countPositive,
    ← Nat.not_le, ← Nat.not_le, next_eq size count chosen, ← shifted,
    ceilDiv_le_iff_le_mul countPositive, Nat.mul_comm draw]

end Draws

section Counts

variable {size count : Nat}

/-- Every outcome has as many accepted draws as the size holds the number of outcomes. -/
theorem card_accepted_outcome (countPositive : 0 < count) {chosen : Nat}
    (possible : chosen < count) :
    ((Finset.range size).filter fun draw =>
      Accepted size count draw ∧ outcome size count draw = chosen).card = size / count := by
  rcases Nat.eq_zero_or_pos size with rfl | sizePositive
  · simp
  have interval : ((Finset.range size).filter fun draw =>
      Accepted size count draw ∧ outcome size count draw = chosen) =
        Finset.Ico ((chosen * size + size % count) ⌈/⌉ count)
          ((chosen * size + size % count) ⌈/⌉ count + size / count) := by
    ext draw
    rw [Finset.mem_filter, accepted_outcome_iff_mem sizePositive countPositive, Finset.mem_range]
    refine ⟨fun member => member.2, fun member => ⟨?_, member⟩⟩
    -- a product below the number of outcomes times the size is one of a draw below the size
    have below := ((accepted_outcome_iff sizePositive).mp
      ((accepted_outcome_iff_mem sizePositive countPositive).mpr member)).2
    have bound : draw * count < size * count := by
      refine below.trans_le ?_
      rw [Nat.mul_comm size]
      exact Nat.mul_le_mul_right size possible
    exact Nat.lt_of_mul_lt_mul_right bound
  rw [interval, Nat.card_Ico, Nat.add_sub_cancel_left]

/-- The rejected draws are as many as the rest of the size. -/
theorem card_rejected (countPositive : 0 < count) :
    ((Finset.range size).filter fun draw => ¬Accepted size count draw).card = size % count := by
  have accepted : ((Finset.range size).filter (Accepted size count)).card =
      count * (size / count) := by
    have outcomes : Set.MapsTo (outcome size count)
        ((Finset.range size).filter (Accepted size count)) (Finset.range count) := by
      intro draw member
      rw [Finset.mem_coe, Finset.mem_filter, Finset.mem_range] at member
      exact Finset.mem_coe.mpr (Finset.mem_range.mpr (outcome_lt member.1 countPositive))
    rw [Finset.card_eq_sum_card_fiberwise outcomes]
    have fibers : ∀ chosen ∈ Finset.range count,
        (((Finset.range size).filter (Accepted size count)).filter fun draw =>
          outcome size count draw = chosen).card = size / count := by
      intro chosen possible
      rw [Finset.filter_filter]
      exact card_accepted_outcome countPositive (Finset.mem_range.mp possible)
    rw [Finset.sum_congr rfl fibers, Finset.sum_const, Finset.card_range, smul_eq_mul]
  have whole := Finset.card_filter_add_card_filter_not (s := Finset.range size)
    (Accepted size count)
  have split := Nat.mod_add_div size count
  rw [Finset.card_range] at whole
  omega

end Counts

end Rejection
