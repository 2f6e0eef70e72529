import Rhi.Job

/-!
# Rows of the job table

The checks, the two shape triggers and the decoder describe the same rows, up to the facts only
the decoder asks for: the identity of a job is the digest of what it was scheduled for, and no
owner token is zero.  `RowStep` lists everything the statements can do to a stored row.
-/

namespace Rhi

open Relational Transactional

namespace JobRow

/-- The columns each state fills in. -/
def Shaped (row : JobRow) : Prop :=
  match row.state with
  | .ready => row.attemptCount < row.maxAttempts ∧
      (∃ instant, row.nextAttempt = some instant ∧ instant ≤ maxInteger) ∧
      row.leaseOwner = none ∧ row.leaseExpires = none
  | .leased => 1 ≤ row.attemptCount ∧ row.attemptCount ≤ row.maxAttempts ∧
      row.nextAttempt = none ∧ (∃ owner, row.leaseOwner = some owner) ∧
      ∃ expires, row.leaseExpires = some expires ∧ 1 ≤ expires ∧ expires ≤ maxInteger
  | .exhausted | .superseded | .completed =>
      row.nextAttempt = none ∧ row.leaseOwner = none ∧ row.leaseExpires = none

theorem shaped_of_guards {row : JobRow} (silent : row.shapeGuard.fires = false) : row.Shaped := by
  unfold shapeGuard at silent
  unfold Shaped
  cases state : row.state with
  | ready =>
      simp only [state, Ternary.fires_or, Ternary.fires_some, Bool.or_eq_false_iff,
        decide_eq_false_iff_not, Nat.not_le] at silent
      rcases silent with ⟨⟨attempts, present⟩, bounded, noOwner, noExpiry⟩
      cases next : row.nextAttempt with
      | none => simp [next] at present
      | some instant =>
          simp only [next, Ternary.test_some, Ternary.fires_some, Bool.not_eq_false',
            decide_eq_true_eq] at bounded
          exact ⟨attempts, ⟨instant, rfl, bounded⟩, by simpa using noOwner, by simpa using noExpiry⟩
  | leased =>
      simp only [state, Ternary.fires_or, Ternary.fires_some, Bool.or_eq_false_iff,
        Bool.not_eq_false', decide_eq_true_eq] at silent
      rcases silent with ⟨⟨⟨attempts, noNext⟩, owned⟩, present, bounded⟩
      cases owner : row.leaseOwner with
      | none => simp [owner] at owned
      | some bytes =>
          cases expiry : row.leaseExpires with
          | none => simp [expiry] at present
          | some expires =>
              simp only [expiry, Ternary.test_some, Ternary.fires_some, Bool.not_eq_false',
                decide_eq_true_eq] at bounded
              exact ⟨attempts.1, attempts.2, by simpa using noNext, ⟨bytes, rfl⟩,
                expires, rfl, bounded⟩
  | exhausted | superseded | completed =>
      simpa [state, and_assoc] using silent

theorem guards_of_shaped {row : JobRow} (shaped : row.Shaped) :
    row.shapeCheck.admits = true ∧ row.shapeGuard.fires = false := by
  unfold Shaped at shaped
  cases state : row.state with
  | ready =>
      simp only [state] at shaped
      rcases shaped with ⟨attempts, ⟨instant, next, bounded⟩, owner, expiry⟩
      simp [shapeCheck, shapeGuard, state, next, owner, expiry, attempts, bounded]
  | leased =>
      simp only [state] at shaped
      rcases shaped with ⟨positive, attempts, next, ⟨bytes, owner⟩, expires, expiry, bounds⟩
      simp [shapeCheck, shapeGuard, state, next, owner, expiry, attempts, bounds, positive]
  | exhausted | superseded | completed =>
      simp only [state] at shaped
      rcases shaped with ⟨next, owner, expiry⟩
      simp [shapeCheck, shapeGuard, state, next, owner, expiry, JobState.active]

/-- The table accepts exactly the bounded rows of the right shape: the check leaves open what a
null column makes unknown, and the triggers close it. -/
theorem check_iff {row : JobRow} :
    reconciliationJobs.check row = true ↔ row.Bounded ∧ row.Shaped := by
  simp only [reconciliationJobs, Bool.and_eq_true, decide_eq_true_eq, Bool.not_eq_true']
  constructor
  · intro accepted
    exact ⟨accepted.1.1, shaped_of_guards accepted.2⟩
  · intro accepted
    have guards := guards_of_shaped accepted.2
    exact ⟨⟨accepted.1, guards.1⟩, guards.2⟩

variable [Sha256]

/-- What the runs of the store maintain beyond the checks of the table. -/
structure WellFormed (row : JobRow) : Prop where
  identity : row.jobId = Rhi.jobId row.tradeId row.inputGeneration row.evidencePolicy
  attempts : row.attemptCount ≤ row.maxAttempts
  pending : row.state = .leased → row.failureCount < row.attemptCount
  owner : row.leaseOwner ≠ some 0

end JobRow

/-- The row a decoded job stands for. -/
def Job.toRow (job : Job) : JobRow where
  jobId := job.id
  tradeId := job.tradeId
  inputGeneration := job.inputGeneration
  evidencePolicy := job.policyDigest
  state := job.state
  revision := job.revision
  attemptCount := job.attemptCount
  failureCount := job.failureCount
  maxAttempts := job.policy.maxAttempts
  leaseDuration := job.policy.leaseDuration
  leaseRenewal := job.policy.leaseRenewal
  initialBackoff := job.policy.initialBackoff
  maximumBackoff := job.policy.maximumBackoff
  nextAttempt := job.nextAttempt.map (·.get)
  leaseOwner := job.leaseOwner.map (·.bytes)
  leaseExpires := job.leaseExpires.map (·.get)
  createdAt := job.createdAt.get
  updatedAt := job.updatedAt.get

section Decoding

theorem optionalColumn_eq_ok {Column Value : Type} {decode : Column → Option Value}
    {encode : Value → Column} {column : Option Column} {value : Option Value}
    (inverse : ∀ column value, decode column = some value → encode value = column)
    (decoded : optionalColumn decode column = .ok value) : value.map encode = column := by
  cases column with
  | none =>
      cases decoded
      rfl
  | some present =>
      simp only [optionalColumn, orError] at decoded
      cases result : decode present with
      | none => simp [result, Except.map] at decoded
      | some inner =>
          simp only [result, Except.map, Except.ok.injEq] at decoded
          subst decoded
          simpa using inverse present inner result

theorem optionalColumn_of_decodes {Column Value : Type} (decode : Column → Option Value)
    {column : Option Column} (decodes : ∀ present, column = some present → ∃ value,
      decode present = some value) :
    ∃ value, optionalColumn decode column = .ok value ∧ value.isSome = column.isSome := by
  cases column with
  | none => exact ⟨none, rfl, rfl⟩
  | some present =>
      rcases decodes present rfl with ⟨value, result⟩
      exact ⟨some value, by simp [optionalColumn, orError, result, Except.map], rfl⟩

theorem get_of_unixMilliseconds {value : Nat} {instant : UnixMilliseconds}
    (decoded : unixMilliseconds value = some instant) : instant.get = value := by
  unfold unixMilliseconds at decoded
  split at decoded
  · cases decoded
    rfl
  · cases decoded

theorem bytes_of_fromBytes {bytes : BitVec 128} {owner : LeaseOwner}
    (decoded : LeaseOwner.fromBytes bytes = some owner) : owner.bytes = bytes := by
  unfold LeaseOwner.fromBytes at decoded
  split at decoded
  · cases decoded
    rfl
  · cases decoded

theorem fields_of_new {capacity duration renewal attempts initial maximum : Nat}
    {policy : JobPolicy}
    (made : JobPolicy.new capacity duration renewal attempts initial maximum = some policy) :
    policy.queueCapacity = capacity ∧ policy.leaseDuration = duration ∧
      policy.leaseRenewal = renewal ∧ policy.maxAttempts = attempts ∧
      policy.initialBackoff = initial ∧ policy.maximumBackoff = maximum := by
  unfold JobPolicy.new at made
  split at made
  · cases made
    exact ⟨rfl, rfl, rfl, rfl, rfl, rfl⟩
  · cases made

variable [Sha256]

/-- Decoding loses nothing: the decoded job determines its row. -/
theorem toRow_of_decodeJob {row : JobRow} {job : Job} (decoded : decodeJob row = .ok job) :
    job.toRow = row := by
  simp only [decodeJob, bind_eq_ok, require_eq_ok, orError_eq_ok, pure_eq_ok] at decoded
  rcases decoded with ⟨-, -, -, -, -, -, -, -, policy, made, next, nextDecoded, expires,
    expiresDecoded, owner, ownerDecoded, created, createdDecoded, updated, updatedDecoded, -, -,
    rfl⟩
  rcases fields_of_new made with ⟨-, duration, renewal, attempts, initial, maximum⟩
  have nextColumn := optionalColumn_eq_ok
    (fun _ _ => get_of_unixMilliseconds) nextDecoded
  have expiresColumn := optionalColumn_eq_ok
    (fun _ _ => get_of_unixMilliseconds) expiresDecoded
  have ownerColumn := optionalColumn_eq_ok (fun _ _ => bytes_of_fromBytes) ownerDecoded
  have createdColumn := get_of_unixMilliseconds createdDecoded
  have updatedColumn := get_of_unixMilliseconds updatedDecoded
  cases row
  simp_all [Job.toRow]

/-- A row the table accepts and the runs keep well formed decodes. -/
theorem decodeJob_of_wellFormed {row : JobRow} (checked : reconciliationJobs.check row = true)
    (wellFormed : row.WellFormed) : ∃ job, decodeJob row = .ok job := by
  rcases JobRow.check_iff.mp checked with ⟨bounded, shaped⟩
  rcases bounded with ⟨generation, revision, attempts, failures, maximum, duration, renewal,
    initial, backoff, created, updated, shorter, ordered⟩
  have policyMade : ∃ policy, JobPolicy.new jobMaxActive row.leaseDuration row.leaseRenewal
      row.maxAttempts row.initialBackoff row.maximumBackoff = some policy := by
    refine ⟨_, dif_pos ⟨⟨by decide, by decide⟩, duration, renewal, shorter, ⟨?_, maximum.2⟩,
      initial, backoff, ordered⟩⟩
    omega
  have millisDecode : ∀ value, value ≤ maxInteger → ∃ instant,
      unixMilliseconds value = some instant := by
    intro value small
    exact ⟨_, dif_pos small⟩
  have nextBound : ∀ instant, row.nextAttempt = some instant → instant ≤ maxInteger := by
    intro instant next
    unfold JobRow.Shaped at shaped
    cases state : row.state <;> simp_all
  have expiresBound : ∀ instant, row.leaseExpires = some instant → instant ≤ maxInteger := by
    intro instant expiry
    unfold JobRow.Shaped at shaped
    cases state : row.state <;> simp_all
  have ownerDecodes : ∀ bytes, row.leaseOwner = some bytes → ∃ owner,
      LeaseOwner.fromBytes bytes = some owner := by
    intro bytes owned
    have nonzero : bytes ≠ 0 := by
      rintro rfl
      exact wellFormed.owner owned
    exact ⟨_, dif_pos nonzero⟩
  rcases policyMade with ⟨policy, made⟩
  rcases optionalColumn_of_decodes unixMilliseconds
    (fun instant next => millisDecode instant (nextBound instant next)) with
    ⟨next, nextDecoded, nextSome⟩
  rcases optionalColumn_of_decodes unixMilliseconds
    (fun instant expiry => millisDecode instant (expiresBound instant expiry)) with
    ⟨expires, expiresDecoded, expiresSome⟩
  rcases optionalColumn_of_decodes LeaseOwner.fromBytes ownerDecodes with
    ⟨owner, ownerDecoded, ownerSome⟩
  rcases millisDecode row.createdAt created with ⟨createdAt, createdDecoded⟩
  rcases millisDecode row.updatedAt updated.2 with ⟨updatedAt, updatedDecoded⟩
  have fields : validStateFields row.state row.attemptCount row.maxAttempts next owner
      expires = true := by
    unfold JobRow.Shaped at shaped
    cases state : row.state with
    | ready =>
        simp only [state] at shaped
        rcases shaped with ⟨below, ⟨instant, present, -⟩, noOwner, noExpiry⟩
        simp_all [validStateFields]
    | leased =>
        simp only [state] at shaped
        rcases shaped with ⟨positive, below, noNext, ⟨bytes, owned⟩, instant, expiry, -⟩
        have started : 0 < row.attemptCount := positive
        simp_all [validStateFields]
    | exhausted | superseded | completed => simp_all [validStateFields]
  have chronological : createdAt.get ≤ updatedAt.get := by
    rw [get_of_unixMilliseconds createdDecoded, get_of_unixMilliseconds updatedDecoded]
    exact updated.1
  refine ⟨{
    id := row.jobId, tradeId := row.tradeId, inputGeneration := row.inputGeneration,
    policyDigest := row.evidencePolicy, state := row.state, revision := row.revision,
    attemptCount := row.attemptCount, failureCount := row.failureCount, policy,
    nextAttempt := next, leaseOwner := owner, leaseExpires := expires, createdAt, updatedAt }, ?_⟩
  simp only [decodeJob, bind_eq_ok, require_eq_ok, orError_eq_ok, pure_eq_ok]
  exact ⟨(), by simpa using generation, (), by simpa using revision, (), by simpa using attempts,
    (), by simpa using failures, policy, made, next, nextDecoded, expires, expiresDecoded, owner,
    ownerDecoded, createdAt, createdDecoded, updatedAt, updatedDecoded, (),
    by simp [chronological, fields, wellFormed.identity], rfl⟩

end Decoding

end Rhi
