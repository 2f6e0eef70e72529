import Rhi.Lib.Backoff
import Rhi.Lib.Machine
import Rhi.Presence

/-!
# Bounds of the retry delays

Jobs, publications and presence documents bound the delay before the next attempt on machine words.
Jobs shift the first backoff at once and saturate; publications and presence documents double it
turn by turn.  Below a ceiling of an hour neither the saturation nor the cut of the shift is seen.
-/

namespace Rhi

open Machine

section Bounds

/-- `retry_delay_upper_bound`, of the backoffs of a job policy. -/
def retryDelayUpperBound (initialBackoff maximumBackoff : UInt64) (failureCount : UInt16) :
    UInt64 :=
  let exponent := UInt32.ofNat (min failureCount.toNat 63)
  min (saturatingMul initialBackoff ((checkedShl 1 exponent).getD maxWord)) maximumBackoff

/-- The loop that publications and presence documents share. -/
def doubledBackoff (initialBackoff maximumBackoff : UInt64) (attemptNumber : UInt16) : UInt64 :=
  min ((fun bound => min (saturatingMul bound 2) maximumBackoff)^[attemptNumber.toNat - 1]
    initialBackoff) maximumBackoff

/-- `retry_upper_bound` of a publication, of the backoffs of its outbox. -/
def publicationRetryUpperBound (initialBackoff maximumBackoff : UInt64) (attemptNumber : UInt16) :
    UInt64 :=
  doubledBackoff initialBackoff maximumBackoff attemptNumber

/-- `retry_upper_bound` of a presence document. -/
def presenceRetryUpperBound (attemptNumber : UInt16) : UInt64 :=
  doubledBackoff (UInt64.ofNat presenceInitialBackoff) (UInt64.ofNat presenceMaximumBackoff)
    attemptNumber

end Bounds

section Numbers

variable {initial maximum : UInt64}

/-- The job bound is the delay after the failures. -/
theorem toNat_retryDelayUpperBound (positive : 1 ≤ initial) (bounded : maximum ≤ 3600000)
    (failureCount : UInt16) : (retryDelayUpperBound initial maximum failureCount).toNat =
      Backoff.delay 2 initial.toNat maximum.toNat failureCount.toNat := by
  have initialPositive : 1 ≤ initial.toNat := UInt64.le_iff_toNat_le.mp positive
  have maximumBounded : maximum.toNat ≤ 3600000 := UInt64.le_iff_toNat_le.mp bounded
  have exponent : (UInt32.ofNat (min failureCount.toNat 63)).toNat =
      min failureCount.toNat 63 := by
    rw [UInt32.toNat_ofNat']
    omega
  have small : (UInt32.ofNat (min failureCount.toNat 63)).toNat < 64 := by omega
  rcases checkedShl_one small with ⟨power, shifted, number⟩
  have reached : maximum.toNat ≤ initial.toNat * 2 ^ 63 := by omega
  rw [retryDelayUpperBound, shifted, Option.getD_some, toNat_min, toNat_saturatingMul, number,
    exponent, ← Backoff.delay_min Nat.two_pos reached, Backoff.delay, min_assoc]
  congr 1
  omega

/-- The doubled bound is the delay after the attempts before. -/
theorem toNat_doubledBackoff (attemptNumber : UInt16) :
    (doubledBackoff initial maximum attemptNumber).toNat =
      Backoff.delay 2 initial.toNat maximum.toNat (attemptNumber.toNat - 1) := by
  have turn : Function.Semiconj UInt64.toNat
      (fun bound => min (saturatingMul bound 2) maximum)
      (fun bound => min (bound * 2) maximum.toNat) := by
    intro bound
    have word := maximum.toNat_lt
    rw [toNat_min, toNat_saturatingMul, min_assoc]
    congr 1
    omega
  rw [doubledBackoff, toNat_min, (turn.iterate_right _).eq, Backoff.iterate_eq_delay Nat.two_pos]

/-- The bound of a lease is that of its words. -/
theorem Lease.retryDelayUpperBound_eq {lease : Lease} (counted : lease.job.failureCount < 2 ^ 16) :
    lease.retryDelayUpperBound =
      (Rhi.retryDelayUpperBound (UInt64.ofNat lease.job.policy.initialBackoff)
        (UInt64.ofNat lease.job.policy.maximumBackoff)
        (UInt16.ofNat lease.job.failureCount)).toNat := by
  rcases lease.job.policy.valid with ⟨-, -, -, -, -, ⟨positive, small⟩, ⟨-, bounded⟩, -⟩
  have initialWord : (UInt64.ofNat lease.job.policy.initialBackoff).toNat =
      lease.job.policy.initialBackoff := by
    rw [UInt64.toNat_ofNat']
    omega
  have maximumWord : (UInt64.ofNat lease.job.policy.maximumBackoff).toNat =
      lease.job.policy.maximumBackoff := by
    rw [UInt64.toNat_ofNat']
    omega
  have failures : (UInt16.ofNat lease.job.failureCount).toNat = lease.job.failureCount := by
    rw [UInt16.toNat_ofNat']
    omega
  have reached : lease.job.policy.maximumBackoff ≤ lease.job.policy.initialBackoff * 2 ^ 63 := by
    omega
  have positiveWord : 1 ≤ UInt64.ofNat lease.job.policy.initialBackoff := by
    rw [UInt64.le_iff_toNat_le, initialWord]
    exact positive
  have boundedWord : UInt64.ofNat lease.job.policy.maximumBackoff ≤ 3600000 := by
    rw [UInt64.le_iff_toNat_le, maximumWord]
    exact bounded
  rw [toNat_retryDelayUpperBound positiveWord boundedWord, initialWord, maximumWord, failures,
    ← Backoff.delay_min Nat.two_pos reached, Backoff.delay, Lease.retryDelayUpperBound, min_assoc]
  congr 1
  omega

/-- The bound of a target is that of its words. -/
theorem retryUpperBound_eq_words (initial maximum : UInt64) (attemptNumber : UInt16) :
    retryUpperBound initial.toNat maximum.toNat attemptNumber.toNat =
      (doubledBackoff initial maximum attemptNumber).toNat := by
  rw [toNat_doubledBackoff, retryUpperBound, Backoff.iterate_eq_delay Nat.two_pos]

end Numbers

section Agreement

/-- The three bounds of the delay after a number of failures, and how they grow. -/
structure BackoffsAgree (initial maximum : UInt64) : Prop where
  job : ∀ failures : UInt16, failures.toNat ≤ 99 →
    (retryDelayUpperBound initial maximum failures).toNat =
      min (initial.toNat * 2 ^ failures.toNat) maximum.toNat
  publication : ∀ failures : UInt16, failures.toNat ≤ 99 →
    (publicationRetryUpperBound initial maximum (failures + 1)).toNat =
      min (initial.toNat * 2 ^ failures.toNat) maximum.toNat
  presence : initial = 250 → maximum = 30000 → ∀ failures : UInt16, failures.toNat ≤ 99 →
    (presenceRetryUpperBound (failures + 1)).toNat =
      min (initial.toNat * 2 ^ failures.toNat) maximum.toNat
  monotone : ∀ before after : UInt16, before ≤ after →
    retryDelayUpperBound initial maximum before ≤ retryDelayUpperBound initial maximum after
  bounded : ∀ failures : UInt16, initial ≤ retryDelayUpperBound initial maximum failures ∧
    retryDelayUpperBound initial maximum failures ≤ maximum

/-- The attempt after a number of failures has that number of attempts before it. -/
theorem toNat_doubledBackoff_succ (initial maximum : UInt64) {failures : UInt16}
    (counted : failures.toNat ≤ 99) :
    (doubledBackoff initial maximum (failures + 1)).toNat =
      Backoff.delay 2 initial.toNat maximum.toNat failures.toNat := by
  have attempt : (failures + 1).toNat = failures.toNat + 1 := by
    have small : failures.toNat + 1 < 2 ^ 16 := by omega
    rw [UInt16.toNat_add]
    exact Nat.mod_eq_of_lt small
  rw [toNat_doubledBackoff, attempt, Nat.add_sub_cancel]

theorem backoffs_agree {initial maximum : UInt64} (positive : 1 ≤ initial)
    (ordered : initial ≤ maximum) (bounded : maximum ≤ 3600000) :
    BackoffsAgree initial maximum where
  job failures _ := toNat_retryDelayUpperBound positive bounded failures
  publication _ counted := toNat_doubledBackoff_succ initial maximum counted
  presence first ceiling failures counted := by
    rw [first, ceiling]
    exact toNat_doubledBackoff_succ 250 30000 counted
  monotone before after order := by
    rw [UInt64.le_iff_toNat_le, toNat_retryDelayUpperBound positive bounded,
      toNat_retryDelayUpperBound positive bounded]
    exact Backoff.delay_mono Nat.two_pos (UInt16.le_iff_toNat_le.mp order)
  bounded failures := by
    rw [UInt64.le_iff_toNat_le, UInt64.le_iff_toNat_le,
      toNat_retryDelayUpperBound positive bounded]
    exact ⟨Backoff.le_delay Nat.two_pos (UInt64.le_iff_toNat_le.mp ordered) _,
      Backoff.delay_le _⟩

/-- The bounds of the configured defaults agree. -/
theorem backoffs_agree_presence : (1 : UInt64) ≤ 250 ∧ (250 : UInt64) ≤ 30000 ∧
    (30000 : UInt64) ≤ 3600000 ∧ BackoffsAgree 250 30000 :=
  ⟨by decide, by decide, by decide, backoffs_agree (by decide) (by decide) (by decide)⟩

end Agreement

end Rhi
