import Mathlib.Data.Finset.Filter
import Mathlib.Data.Set.Card

/-!
# Arithmetic of machine words

Operations on 64-bit words, and on the 128-bit words of their products, as a program performs them:
some saturate, and some stop the program where the result of the operation on numbers has no word.
-/

namespace Machine

section Saturation

def maxWord : UInt64 := UInt64.ofNat (2 ^ 64 - 1)

/-- `saturating_mul`. -/
def saturatingMul (left right : UInt64) : UInt64 :=
  if left.toNat * right.toNat < 2 ^ 64 then left * right else maxWord

/-- `checked_shl`: absent when the word has fewer bits than are shifted. -/
def checkedShl (word : UInt64) (count : UInt32) : Option UInt64 :=
  if count.toNat < 64 then some (word <<< UInt64.ofNat count.toNat) else none

@[simp]
theorem toNat_maxWord : maxWord.toNat = 2 ^ 64 - 1 := rfl

theorem toNat_saturatingMul (left right : UInt64) :
    (saturatingMul left right).toNat = min (left.toNat * right.toNat) (2 ^ 64 - 1) := by
  unfold saturatingMul
  split
  case isTrue small =>
    rw [UInt64.toNat_mul, Nat.mod_eq_of_lt small]
    omega
  case isFalse large =>
    rw [toNat_maxWord]
    omega

@[simp]
theorem toNat_min (left right : UInt64) : (min left right).toNat = min left.toNat right.toNat := by
  rw [Nat.min_def, Std.min_eq_if]
  simp only [UInt64.le_iff_toNat_le]
  split <;> rfl

theorem checkedShl_one {count : UInt32} (small : count.toNat < 64) :
    ∃ power, checkedShl 1 count = some power ∧ power.toNat = 2 ^ count.toNat := by
  refine ⟨_, if_pos small, ?_⟩
  have bound : 2 ^ count.toNat < 2 ^ 64 := Nat.pow_lt_pow_right (by decide) small
  have shift : (UInt64.ofNat count.toNat).toNat = count.toNat := by
    rw [UInt64.toNat_ofNat']
    omega
  rw [UInt64.toNat_shiftLeft, shift, Nat.mod_eq_of_lt small, UInt64.toNat_one, Nat.one_shiftLeft,
    Nat.mod_eq_of_lt bound]

end Saturation

section Checks

/-- The ways in which an operation stops the program. -/
inductive Panic where
  | overflow
  | remainderByZero
  | expect (message : String)
deriving DecidableEq, Repr

def add (left right : UInt64) : Except Panic UInt64 :=
  if left.toNat + right.toNat < 2 ^ 64 then .ok (left + right) else .error .overflow

def rem (left right : UInt64) : Except Panic UInt64 :=
  if right = 0 then .error .remainderByZero else .ok (left % right)

/-- `u128::from`. -/
def widen (word : UInt64) : BitVec 128 := BitVec.ofNat 128 word.toNat

def mulWide (left right : BitVec 128) : Except Panic (BitVec 128) :=
  if left.toNat * right.toNat < 2 ^ 128 then .ok (left * right) else .error .overflow

/-- `u64::try_from`. -/
def narrow (word : BitVec 128) : Option UInt64 :=
  if word.toNat < 2 ^ 64 then some (UInt64.ofNat word.toNat) else none

def expect {Value : Type} (value : Option Value) (message : String) : Except Panic Value :=
  match value with
  | some present => .ok present
  | none => .error (.expect message)

theorem add_eq_ok {left right : UInt64} (small : left.toNat + right.toNat < 2 ^ 64) :
    add left right = .ok (left + right) := if_pos small

theorem rem_eq_ok {left right : UInt64} (positive : right ≠ 0) :
    rem left right = .ok (left % right) := if_neg positive

@[simp]
theorem toNat_widen (word : UInt64) : (widen word).toNat = word.toNat := by
  have small := word.toNat_lt
  rw [widen, BitVec.toNat_ofNat]
  omega

/-- Words never overflow when their product is wide. -/
theorem mulWide_widen (left right : UInt64) :
    ∃ product, mulWide (widen left) (widen right) = .ok product ∧
      product.toNat = left.toNat * right.toNat := by
  have small : left.toNat * right.toNat < 2 ^ 64 * 2 ^ 64 :=
    Nat.mul_lt_mul'' left.toNat_lt right.toNat_lt
  rw [← Nat.pow_add] at small
  refine ⟨_, if_pos (by rwa [toNat_widen, toNat_widen]), ?_⟩
  rw [BitVec.toNat_mul, toNat_widen, toNat_widen, Nat.mod_eq_of_lt small]

/-- The low part of a wide word is a word. -/
theorem narrow_low (word : BitVec 128) :
    ∃ low, narrow (word &&& widen maxWord) = some low ∧ low.toNat = word.toNat % 2 ^ 64 := by
  have masked : (word &&& widen maxWord).toNat = word.toNat % 2 ^ 64 := by
    rw [BitVec.toNat_and, toNat_widen, toNat_maxWord]
    exact Nat.and_two_pow_sub_one_eq_mod word.toNat 64
  have small := Nat.mod_lt word.toNat (Nat.two_pow_pos 64)
  refine ⟨_, if_pos (by rwa [masked]), ?_⟩
  rw [UInt64.toNat_ofNat', masked, Nat.mod_mod]

/-- The high part of a wide word is a word. -/
theorem narrow_high (word : BitVec 128) :
    ∃ high, narrow (word >>> 64) = some high ∧ high.toNat = word.toNat / 2 ^ 64 := by
  have shifted : (word >>> 64).toNat = word.toNat / 2 ^ 64 := by
    rw [BitVec.toNat_ushiftRight, Nat.shiftRight_eq_div_pow]
  have small : word.toNat / 2 ^ 64 < 2 ^ 64 := by
    have bound := word.isLt
    omega
  refine ⟨_, if_pos (by rwa [shifted]), ?_⟩
  rw [UInt64.toNat_ofNat', shifted, Nat.mod_eq_of_lt small]

end Checks

section Counts

/-- The words whose numbers have a property are as many as the numbers below the size of a word that
have it. -/
theorem ncard_toNat (property : Nat → Prop) [DecidablePred property] :
    {word : UInt64 | property word.toNat}.ncard =
      ((Finset.range (2 ^ 64)).filter property).card := by
  have injective : Function.Injective UInt64.toNat := fun _ _ same => UInt64.toNat_inj.mp same
  have numbers : UInt64.toNat '' {word : UInt64 | property word.toNat} =
      ((Finset.range (2 ^ 64)).filter property : Finset Nat) := by
    ext number
    rw [Finset.coe_filter, Set.mem_image, Set.mem_ofPred_eq, Finset.mem_range]
    constructor
    · rintro ⟨word, holds, rfl⟩
      exact ⟨word.toNat_lt, holds⟩
    · rintro ⟨small, holds⟩
      have same : (UInt64.ofNat number).toNat = number := by
        rw [UInt64.toNat_ofNat', Nat.mod_eq_of_lt small]
      exact ⟨UInt64.ofNat number, by rwa [Set.mem_ofPred_eq, same], same⟩
  rw [← Set.ncard_image_of_injective _ injective, numbers, Set.ncard_coe_finset]

end Counts

end Machine
