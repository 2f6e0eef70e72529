import Mathlib.Data.List.Sort
import Rhi.Catalog
import Rhi.Lib.Transaction

/-!
# Reconciliation jobs

The durable scheduling and lease state machine: decoding of a job row, the statements that rewrite
it, and the four repository operations built from them.  A lease is the decoded row of the moment
it was claimed or renewed, together with its owner and its expiry.
-/

namespace Rhi

open Relational Transactional

/-- `RHI_RECONCILIATION_JOB_MAX_ACTIVE`. -/
def jobMaxActive : Nat := 65536

/-- `RhiReconciliationJobPolicy`: the numeric scheduling authority copied into each job. -/
structure JobPolicy where
  queueCapacity : Nat
  leaseDuration : Nat
  leaseRenewal : Nat
  maxAttempts : Nat
  initialBackoff : Nat
  maximumBackoff : Nat
  valid : (0 < queueCapacity ∧ queueCapacity ≤ jobMaxActive) ∧
    (1000 ≤ leaseDuration ∧ leaseDuration ≤ 300000) ∧
    (100 ≤ leaseRenewal ∧ leaseRenewal ≤ 150000) ∧ leaseRenewal < leaseDuration ∧
    (0 < maxAttempts ∧ maxAttempts ≤ 100) ∧
    (1 ≤ initialBackoff ∧ initialBackoff ≤ 60000) ∧
    (1 ≤ maximumBackoff ∧ maximumBackoff ≤ 3600000) ∧ initialBackoff ≤ maximumBackoff
deriving DecidableEq, Repr

/-- `RhiReconciliationJobPolicy::new`. -/
def JobPolicy.new (queueCapacity leaseDuration leaseRenewal maxAttempts initialBackoff
    maximumBackoff : Nat) : Option JobPolicy :=
  if valid : (0 < queueCapacity ∧ queueCapacity ≤ jobMaxActive) ∧
      (1000 ≤ leaseDuration ∧ leaseDuration ≤ 300000) ∧
      (100 ≤ leaseRenewal ∧ leaseRenewal ≤ 150000) ∧ leaseRenewal < leaseDuration ∧
      (0 < maxAttempts ∧ maxAttempts ≤ 100) ∧
      (1 ≤ initialBackoff ∧ initialBackoff ≤ 60000) ∧
      (1 ≤ maximumBackoff ∧ maximumBackoff ≤ 3600000) ∧ initialBackoff ≤ maximumBackoff then
    some {
      queueCapacity, leaseDuration, leaseRenewal, maxAttempts, initialBackoff, maximumBackoff,
      valid }
  else
    none

/-- `RhiReconciliationRetryDelayMilliseconds`. -/
structure RetryDelay where
  get : Nat
  bounded : get ≤ 3600000
deriving DecidableEq, Repr

/-- `RhiReconciliationJob`: the decoded view of a retained row. -/
structure Job where
  id : JobId
  tradeId : TradeId
  inputGeneration : Nat
  policyDigest : EvidencePolicyDigest
  state : JobState
  revision : Nat
  attemptCount : Nat
  failureCount : Nat
  policy : JobPolicy
  nextAttempt : Option UnixMilliseconds
  leaseOwner : Option LeaseOwner
  leaseExpires : Option UnixMilliseconds
  createdAt : UnixMilliseconds
  updatedAt : UnixMilliseconds
deriving DecidableEq, Repr

/-- `RhiReconciliationLease`. -/
structure Lease where
  job : Job
  owner : LeaseOwner
  leaseExpires : UnixMilliseconds
deriving DecidableEq, Repr

/-- `RhiReconciliationScheduleOutcome`. -/
structure ScheduleOutcome where
  job : Job
  created : Bool
deriving DecidableEq, Repr

/-- The errors of the operations inside their transaction. -/
inductive JobOperationError where
  | invalidInput
  | queueFull
  | dirtyGenerationConflict
  | leaseLost
  | notReady
  | storage
deriving DecidableEq, Repr

/-- `RhiReconciliationJobErrorKind`. -/
inductive JobErrorKind where
  | invalidMode
  | invalidInput
  | queueFull
  | dirtyGenerationConflict
  | leaseLost
  | notReady
  | storage
  | commitOutcomeUnknown
deriving DecidableEq, Repr

/-- `map_transaction_error` of the job repository. -/
def mapJobError : Failure JobOperationError → JobErrorKind
  | .outcomeUnknown => .commitOutcomeUnknown
  | .operation .invalidInput => .invalidInput
  | .operation .queueFull => .queueFull
  | .operation .dirtyGenerationConflict => .dirtyGenerationConflict
  | .operation .leaseLost => .leaseLost
  | .operation .notReady => .notReady
  | .operation .storage | .aborted => .storage

section Decoding

variable [Sha256]

/-- `job_id`. -/
def jobId (trade : TradeId) (generation : Nat) (policy : EvidencePolicyDigest) : JobId :=
  Sha256.digest (domainBytes "radroots.rhi.reconciliation_job.v1" ++ toBeBytes 16 trade.toNat ++
    toBeBytes 8 generation ++ toBeBytes 32 policy.toNat)

/-- `valid_state_fields`. -/
def validStateFields (state : JobState) (attemptCount maxAttempts : Nat)
    (nextAttempt : Option UnixMilliseconds) (owner : Option LeaseOwner)
    (expires : Option UnixMilliseconds) : Bool :=
  match state with
  | .ready => decide (attemptCount < maxAttempts) && nextAttempt.isSome && owner.isNone &&
      expires.isNone
  | .leased => decide (0 < attemptCount) && decide (attemptCount ≤ maxAttempts) &&
      nextAttempt.isNone && owner.isSome && expires.isSome
  | .exhausted | .superseded | .completed =>
      nextAttempt.isNone && owner.isNone && expires.isNone

def unixMilliseconds (value : Nat) : Option UnixMilliseconds :=
  if bounded : value ≤ maxInteger then some ⟨value, bounded⟩ else none

/-- `RhiReconciliationLeaseOwner::from_bytes`. -/
def LeaseOwner.fromBytes (bytes : BitVec 128) : Option LeaseOwner :=
  if nonzero : bytes ≠ 0 then some ⟨bytes, nonzero⟩ else none

/-- Decoding of a nullable column: a null stays null, a present value must decode. -/
def optionalColumn {Column Value : Type} (decode : Column → Option Value) :
    Option Column → Except JobOperationError (Option Value)
  | none => .ok none
  | some column => (orError (decode column) .storage).map some

/-- `decode_job`. -/
def decodeJob (row : JobRow) : Except JobOperationError Job := do
  require (decide (1 ≤ row.inputGeneration ∧ row.inputGeneration ≤ maxInteger)) .storage
  require (decide (1 ≤ row.revision ∧ row.revision ≤ maxInteger)) .storage
  require (decide (row.attemptCount ≤ 100)) .storage
  require (decide (row.failureCount ≤ row.attemptCount)) .storage
  let policy ← orError (JobPolicy.new jobMaxActive row.leaseDuration row.leaseRenewal
    row.maxAttempts row.initialBackoff row.maximumBackoff) .storage
  let nextAttempt ← optionalColumn unixMilliseconds row.nextAttempt
  let leaseExpires ← optionalColumn unixMilliseconds row.leaseExpires
  let leaseOwner ← optionalColumn LeaseOwner.fromBytes row.leaseOwner
  let createdAt ← orError (unixMilliseconds row.createdAt) .storage
  let updatedAt ← orError (unixMilliseconds row.updatedAt) .storage
  require (decide (createdAt.get ≤ updatedAt.get) &&
    jobId row.tradeId row.inputGeneration row.evidencePolicy == row.jobId &&
    validStateFields row.state row.attemptCount row.maxAttempts nextAttempt leaseOwner
      leaseExpires) .storage
  pure {
    id := row.jobId
    tradeId := row.tradeId
    inputGeneration := row.inputGeneration
    policyDigest := row.evidencePolicy
    state := row.state
    revision := row.revision
    attemptCount := row.attemptCount
    failureCount := row.failureCount
    policy, nextAttempt, leaseOwner, leaseExpires, createdAt, updatedAt }

/-- `read_job`. -/
def readJob (store : Store) (id : JobId) : Except JobOperationError (Option Job) :=
  match store.jobs.rows.find? fun row => row.jobId == id with
  | none => .ok none
  | some row => (decodeJob row).map some

/-- `read_active_job`: the statement reads at most two rows. -/
def readActiveJob (store : Store) (trade : TradeId) : Except JobOperationError (Option Job) :=
  match (store.jobs.rows.filter fun row => row.tradeId == trade && row.state.active).take 2 with
  | [] => .ok none
  | [row] => (decodeJob row).map some
  | _ => .error .storage

end Decoding

/-- `READ_DIRTY_SQL` on the primary key. -/
def readDirty (store : Store) (trade : TradeId) : Option DirtyRow :=
  store.dirty.rows.find? fun row => row.tradeId == trade

section Statements

/-- `SUPERSEDE_JOB_SQL`. -/
def supersedeJob (now : Nat) (id : JobId) (revision : Nat) : Change JobRow where
  selects row := row.jobId == id && row.revision == revision && row.state.active
  write row := { row with
    state := .superseded, revision := row.revision + 1, nextAttempt := none,
    leaseOwner := none, leaseExpires := none, updatedAt := now }

/-- Whether the lease of a row ended at or before an instant; false when there is none. -/
def JobRow.expiredAt (row : JobRow) (now : Nat) : Bool :=
  row.leaseExpires.any fun expires => decide (expires ≤ now)

/-- The inner selection of `EXHAUST_EXPIRED_SQL`. -/
def JobRow.exhaustible (row : JobRow) (now : Nat) : Bool :=
  row.state == .leased && row.expiredAt now && decide (row.maxAttempts ≤ row.attemptCount) &&
    decide (row.updatedAt ≤ now)

/-- Order by a scheduling instant, then creation, then identity. -/
def JobRow.before (due : JobRow → Nat) (left right : JobRow) : Prop :=
  due left < due right ∨ (due left = due right ∧
    (left.createdAt < right.createdAt ∨
      (left.createdAt = right.createdAt ∧ left.jobId ≤ right.jobId)))

instance (due : JobRow → Nat) : DecidableRel (JobRow.before due) := fun left right => by
  unfold JobRow.before
  infer_instance

/-- `EXHAUST_EXPIRED_SQL`. -/
def exhaustExpired (now : Nat) (rows : List JobRow) : Change JobRow where
  selects row :=
    (((rows.filter fun stored => stored.exhaustible now).insertionSort
      (JobRow.before fun stored => stored.leaseExpires.getD 0)).take 65536).any
        fun stored => stored.jobId == row.jobId
  write row := { row with
    state := .exhausted, revision := row.revision + 1, failureCount := row.attemptCount,
    leaseOwner := none, leaseExpires := none, updatedAt := now }

/-- The condition `READ_CLAIMABLE_SQL` and `CLAIM_JOB_SQL` share. -/
def JobRow.claimable (row : JobRow) (now : Nat) : Bool :=
  decide (row.attemptCount < row.maxAttempts) && decide (row.updatedAt ≤ now) &&
    ((row.state == .ready && row.nextAttempt.any fun instant => decide (instant ≤ now)) ||
      (row.state == .leased && row.expiredAt now))

/-- `READ_CLAIMABLE_SQL`. -/
def readClaimable (now : Nat) (rows : List JobRow) : Option JobRow :=
  ((rows.filter fun row => row.claimable now).insertionSort
    (JobRow.before fun row =>
      if row.state == .ready then row.nextAttempt.getD 0 else row.leaseExpires.getD 0)).head?

/-- `CLAIM_JOB_SQL`. -/
def claimJob (owner : LeaseOwner) (expires now : Nat) (id : JobId) (revision : Nat) :
    Change JobRow where
  selects row := row.jobId == id && row.revision == revision && row.claimable now
  write row := { row with
    state := .leased, revision := row.revision + 1, attemptCount := row.attemptCount + 1,
    nextAttempt := none, leaseOwner := some owner.bytes, leaseExpires := some expires,
    updatedAt := now }

/-- The compare-and-swap condition the statements of a lease holder share. -/
def JobRow.heldBy (row : JobRow) (lease : Lease) : Bool :=
  row.jobId == lease.job.id && row.revision == lease.job.revision && row.state == .leased &&
    row.leaseOwner == some lease.owner.bytes &&
    row.leaseExpires == some lease.leaseExpires.get

/-- `RENEW_JOB_SQL`. -/
def renewJob (expires now : Nat) (lease : Lease) : Change JobRow where
  selects row := row.heldBy lease && !row.expiredAt now && decide (row.updatedAt ≤ now)
  write row := { row with
    revision := row.revision + 1, leaseExpires := some expires, updatedAt := now }

/-- `RETRY_JOB_SQL`. -/
def retryJob (next now : Nat) (lease : Lease) : Change JobRow where
  selects row := row.heldBy lease && !row.expiredAt now &&
    decide (row.attemptCount < row.maxAttempts)
  write row := { row with
    state := .ready, revision := row.revision + 1, failureCount := row.failureCount + 1,
    nextAttempt := some next, leaseOwner := none, leaseExpires := none, updatedAt := now }

/-- `EXHAUST_JOB_SQL`. -/
def exhaustJob (now : Nat) (lease : Lease) : Change JobRow where
  selects row := row.heldBy lease && !row.expiredAt now &&
    decide (row.maxAttempts ≤ row.attemptCount)
  write row := { row with
    state := .exhausted, revision := row.revision + 1, failureCount := row.failureCount + 1,
    nextAttempt := none, leaseOwner := none, leaseExpires := none, updatedAt := now }

/-- `COMPLETE_JOB_SQL` of the finalization commit. -/
def completeJob (now : Nat) (lease : Lease) : Change JobRow where
  selects row := row.heldBy lease && decide (row.updatedAt ≤ now)
  write row := { row with
    state := .completed, revision := row.revision + 1, nextAttempt := none,
    leaseOwner := none, leaseExpires := none, updatedAt := now }

end Statements

section Operations

variable [Sha256]

/-- Runs one update of the jobs table. -/
def Store.updateJobs (store : Store) (change : Change JobRow) :
    Except JobOperationError (Nat × Store) := do
  let (jobs, affected) ← orError (store.jobs.update change) .storage
  pure (affected, { store with jobs })

/-- `INSERT_JOB_SQL`, with the foreign key to the dirty generations. -/
def Store.insertJob (store : Store) (row : JobRow) : Except JobOperationError Store := do
  require (store.dirty.rows.any fun dirty => dirty.tradeId == row.tradeId) .storage
  let jobs ← orError (store.jobs.insert row) .storage
  pure { store with jobs }

/-- `ACTIVE_JOB_COUNT_SQL`. -/
def activeCount (rows : List JobRow) : Nat :=
  rows.countP fun row => row.state.active

/-- The row `schedule` inserts. -/
def readyRow (trade : TradeId) (dirty : DirtyRow) (policy : JobPolicy) (now : Nat) : JobRow where
  jobId := jobId trade dirty.generation dirty.evidencePolicy
  tradeId := trade
  inputGeneration := dirty.generation
  evidencePolicy := dirty.evidencePolicy
  state := .ready
  revision := 1
  attemptCount := 0
  failureCount := 0
  maxAttempts := policy.maxAttempts
  leaseDuration := policy.leaseDuration
  leaseRenewal := policy.leaseRenewal
  initialBackoff := policy.initialBackoff
  maximumBackoff := policy.maximumBackoff
  nextAttempt := some now
  leaseOwner := none
  leaseExpires := none
  createdAt := now
  updatedAt := now

/-- The part of `schedule` that retires the active job of an older generation. -/
def supersedeActive (store : Store) (trade : TradeId) (dirty : DirtyRow) (now : Nat) :
    Except JobOperationError Store := do
  match ← readActiveJob store trade with
  | none => pure store
  | some active =>
      require (decide (active.inputGeneration < dirty.generation)) .dirtyGenerationConflict
      let (affected, store) ← store.updateJobs (supersedeJob now active.id active.revision)
      require (affected == 1) .dirtyGenerationConflict
      pure store

/-- `schedule`. -/
def schedule (trade : TradeId) (policy : JobPolicy) (now : UnixMilliseconds) (store : Store) :
    Except JobOperationError (ScheduleOutcome × Store) := do
  let dirty ← orError (readDirty store trade) .dirtyGenerationConflict
  let id := jobId trade dirty.generation dirty.evidencePolicy
  match ← readJob store id with
  | some job =>
      require (job.tradeId == trade && job.inputGeneration == dirty.generation &&
        job.policyDigest == dirty.evidencePolicy) .storage
      pure (⟨job, false⟩, store)
  | none =>
      let store ← supersedeActive store trade dirty now.get
      require (decide (activeCount store.jobs.rows < policy.queueCapacity)) .queueFull
      let store ← store.insertJob (readyRow trade dirty policy now.get)
      let job ← orError (← readJob store id) .storage
      pure (⟨job, true⟩, store)

/-- The lease of a row that was just claimed or renewed. -/
def readLease (store : Store) (id : JobId) (owner : LeaseOwner) :
    Except JobOperationError Lease := do
  let job ← orError (← readJob store id) .storage
  require (job.state == .leased) .storage
  let leaseExpires ← orError job.leaseExpires .storage
  pure { job, owner, leaseExpires }

/-- `claim_next`. -/
def claimNext (owner : LeaseOwner) (now : UnixMilliseconds) (store : Store) :
    Except JobOperationError (Option Lease × Store) := do
  let (_, store) ← store.updateJobs (exhaustExpired now.get store.jobs.rows)
  match readClaimable now.get store.jobs.rows with
  | none => pure (none, store)
  | some row =>
      let candidate ← decodeJob row
      let expires := now.get + candidate.policy.leaseDuration
      require (decide (expires ≤ maxInteger)) .invalidInput
      let (affected, store) ←
        store.updateJobs (claimJob owner expires now.get candidate.id candidate.revision)
      require (affected == 1) .leaseLost
      let lease ← readLease store candidate.id owner
      pure (some lease, store)

/-- `renew`, inside its transaction. -/
def renewLease (lease : Lease) (now : UnixMilliseconds) (store : Store) :
    Except JobOperationError (Lease × Store) := do
  let expires := now.get + lease.job.policy.leaseDuration
  require (decide (lease.leaseExpires.get < expires ∧ expires ≤ maxInteger)) .notReady
  let (affected, store) ← store.updateJobs (renewJob expires now.get lease)
  require (affected == 1) .leaseLost
  let renewed ← readLease store lease.job.id lease.owner
  pure (renewed, store)

/-- The statement `record_failure` runs, chosen by the attempt count the lease carries. -/
def failureStatement (lease : Lease) (now : UnixMilliseconds) (delay : RetryDelay) :
    Except JobOperationError (Change JobRow) :=
  if lease.job.policy.maxAttempts ≤ lease.job.attemptCount then
    .ok (exhaustJob now.get lease)
  else do
    let next := now.get + delay.get
    require (decide (next ≤ maxInteger)) .invalidInput
    pure (retryJob next now.get lease)

/-- `record_failure`, inside its transaction. -/
def recordFailureJob (lease : Lease) (now : UnixMilliseconds) (delay : RetryDelay)
    (store : Store) : Except JobOperationError (Job × Store) := do
  let statement ← failureStatement lease now delay
  let (affected, store) ← store.updateJobs statement
  require (affected == 1) .leaseLost
  let job ← orError (← readJob store lease.job.id) .storage
  pure (job, store)

/-- `RhiReconciliationLease::renewal_due`. -/
def Lease.renewalDue (lease : Lease) : Nat :=
  lease.leaseExpires.get - lease.job.policy.leaseRenewal

/-- `retry_delay_upper_bound`, with the saturation of the 64-bit product. -/
def Lease.retryDelayUpperBound (lease : Lease) : Nat :=
  min (min (lease.job.policy.initialBackoff * 2 ^ min lease.job.failureCount 63) (2 ^ 64 - 1))
    lease.job.policy.maximumBackoff

/-- `schedule_trade`. -/
def scheduleTrade (mode : HostMode) (disposition : Disposition) (trade : TradeId)
    (policy : JobPolicy) (now : UnixMilliseconds) (store : Store) :
    Except JobErrorKind ScheduleOutcome × Store :=
  if mode ≠ .readWriteExisting then
    (.error .invalidMode, store)
  else
    transaction mapJobError disposition (schedule trade policy now) store

/-- `claim_next` of the repository. -/
def claimNextJob (mode : HostMode) (disposition : Disposition) (owner : LeaseOwner)
    (now : UnixMilliseconds) (store : Store) : Except JobErrorKind (Option Lease) × Store :=
  if mode ≠ .readWriteExisting then
    (.error .invalidMode, store)
  else
    transaction mapJobError disposition (claimNext owner now) store

/-- `renew` of the repository. -/
def renew (mode : HostMode) (disposition : Disposition) (lease : Lease)
    (now : UnixMilliseconds) (store : Store) : Except JobErrorKind Lease × Store :=
  if mode ≠ .readWriteExisting then
    (.error .invalidMode, store)
  else if lease.leaseExpires.get ≤ now.get then
    (.error .leaseLost, store)
  else if now.get < lease.renewalDue then
    (.error .notReady, store)
  else
    transaction mapJobError disposition (renewLease lease now) store

/-- `record_failure` of the repository. -/
def recordFailure (mode : HostMode) (disposition : Disposition) (lease : Lease)
    (now : UnixMilliseconds) (delay : RetryDelay) (store : Store) :
    Except JobErrorKind Job × Store :=
  if mode ≠ .readWriteExisting then
    (.error .invalidMode, store)
  else if lease.leaseExpires.get ≤ now.get then
    (.error .leaseLost, store)
  else if lease.retryDelayUpperBound < delay.get then
    (.error .invalidInput, store)
  else
    transaction mapJobError disposition (recordFailureJob lease now delay) store

end Operations

end Rhi
