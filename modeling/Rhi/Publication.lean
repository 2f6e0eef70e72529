import Mathlib.Data.List.Nodup
import Rhi.Delivery

/-!
# Publication

A finalization commits the signed report together with an outbox and its targets.  The executor
claims the oldest due outbox, submits the committed bytes to one due target, and records the
outcome; a lease that ran out is recovered.  Every step is one transaction, fenced by the revision
of the outbox.
-/

namespace Rhi

open Relational Transactional

section Authority

/-- One entry of `/relays`. -/
structure Relay where
  id : SourceId
  write : Bool
  required : Bool
deriving DecidableEq, Repr

/-- `/publication`. -/
inductive PublicationSection where
  | disabled
  | required (targetRelayIds : List SourceId) (retry : PublicationRetry)
deriving DecidableEq, Repr

/-- The parts of an admitted configuration that `derive_authority` reads. -/
structure PublicationDocument where
  configuration : Digest
  relays : List Relay
  publication : PublicationSection
  queueCapacity : Nat
deriving DecidableEq, Repr

/-- The targets of the listed relays, in their order. -/
def deriveTargets (relays : List Relay) : List SourceId → List PublicationTarget →
    Option (List PublicationTarget)
  | [], targets => some targets
  | id :: rest, targets => do
      guard (!targets.any fun target => target.relayId == id)
      let relay ← relays.find? fun relay => relay.id == id
      guard relay.write
      deriveTargets relays rest (targets ++ [⟨targets.length, id, relay.required⟩])

/-- The bounds of `derive_authority` on a retry policy. -/
def PublicationRetry.valid (retry : PublicationRetry) : Bool :=
  decide (1 ≤ retry.maximumAttempts ∧ retry.maximumAttempts ≤ 100 ∧ 1 ≤ retry.initialBackoff ∧
    retry.initialBackoff ≤ retry.maximumBackoff ∧ retry.maximumBackoff ≤ 3600000 ∧
    100 ≤ retry.attemptDeadline ∧ retry.attemptDeadline ≤ 30000)

/-- The domain of the target inventory. -/
def publicationTargetSet : String := "radroots.rhi.publication_target_set.v1"

variable [Sha256]

/-- `authority_digest`. -/
def authorityDigest (mode : PublicationMode) (targetSet : Digest) (targetCount : Nat)
    (retry : Option PublicationRetry) (queueCapacity : Nat) : Digest :=
  Sha256.digest (domainBytes "radroots.rhi.publication_authority.v1" ++
    flagByte (mode == .required) ++ toBeBytes 4 targetCount ++ toBeBytes 32 targetSet.toNat ++
    (match retry with
    | some retry => 1 :: (toBeBytes 2 retry.maximumAttempts ++ toBeBytes 8 retry.initialBackoff ++
        toBeBytes 8 retry.maximumBackoff ++ toBeBytes 8 retry.attemptDeadline)
    | none => [0]) ++ toBeBytes 4 queueCapacity)

/-- `derive_authority`. -/
def deriveAuthority (document : PublicationDocument) : Option PublicationAuthority := do
  guard (1 ≤ document.queueCapacity ∧ document.queueCapacity ≤ 65536)
  let (mode, targets, retry) ← match document.publication with
    | .disabled => pure (PublicationMode.disabled, [], none)
    | .required targetRelayIds retry => do
        guard (targetRelayIds ≠ [] ∧ targetRelayIds.length ≤ publicationMaxTargets)
        let targets ← deriveTargets document.relays targetRelayIds []
        guard retry.valid
        pure (PublicationMode.required, targets, some retry)
  let targetSet := targetSetDigest publicationTargetSet targets
  pure {
    configuration := document.configuration
    mode
    authority := authorityDigest mode targetSet targets.length retry document.queueCapacity
    targetSet
    queueCapacity := document.queueCapacity
    retry
    targets }

end Authority

section Records

/-- `OperationError` of the publication executor. -/
inductive PublicationOperationError where
  | invalidInput
  | notReady
  | leaseLost
  | invariant
  | storage
deriving DecidableEq, Repr

/-- `RhiPublicationExecutionErrorKind`. -/
inductive PublicationErrorKind where
  | invalidMode
  | invalidInput
  | notReady
  | leaseLost
  | invariant
  | clockUnavailable
  | entropyUnavailable
  | storage
  | commitOutcomeUnknown
deriving DecidableEq, Repr

/-- `map_transaction_error` of the publication executor. -/
def mapPublicationError : Failure PublicationOperationError → PublicationErrorKind
  | .outcomeUnknown => .commitOutcomeUnknown
  | .operation .invalidInput => .invalidInput
  | .operation .notReady => .notReady
  | .operation .leaseLost => .leaseLost
  | .operation .invariant => .invariant
  | .operation .storage | .aborted => .storage

/-- `OutboxRecord`. -/
structure OutboxRecord where
  id : Digest
  eventDigest : Digest
  authority : Digest
  targetSet : Digest
  targetCount : Nat
  requiredTargetCount : Nat
  maxAttempts : Nat
  initialBackoff : Nat
  maximumBackoff : Nat
  attemptDeadline : Nat
  state : OutboxState
  revision : Nat
  nextAttempt : Option Nat
  leaseOwner : Option LeaseOwner
  leaseExpires : Option Nat
  createdAt : Nat
  updatedAt : Nat
deriving DecidableEq, Repr

/-- The nullable owner column; zero bytes name no owner. -/
def decodeOwner : Option (BitVec 128) → Except PublicationOperationError (Option LeaseOwner)
  | none => .ok none
  | some bytes => do
      let owner ← orError (LeaseOwner.fromBytes bytes) .invariant
      pure (some owner)

/-- The columns of a row, with its decoded owner. -/
def OutboxRow.record (row : OutboxRow) (leaseOwner : Option LeaseOwner) : OutboxRecord where
  id := row.outboxId
  eventDigest := row.eventDigest
  authority := row.publicationAuthority
  targetSet := row.targetSet
  targetCount := row.targetCount
  requiredTargetCount := row.requiredTargetCount
  maxAttempts := row.maxAttempts
  initialBackoff := row.initialBackoff
  maximumBackoff := row.maximumBackoff
  attemptDeadline := row.attemptDeadline
  state := row.state
  revision := row.revision
  nextAttempt := row.nextAttempt
  leaseOwner
  leaseExpires := row.leaseExpires
  createdAt := row.createdAt
  updatedAt := row.updatedAt

/-- `decode_outbox`.  Every other column is in range by the checks of the table. -/
def decodeOutbox (row : OutboxRow) : Except PublicationOperationError OutboxRecord := do
  let leaseOwner ← decodeOwner row.leaseOwner
  pure (row.record leaseOwner)

/-- `read_outbox`. -/
def readOutbox (id : Digest) (store : Store) :
    Except PublicationOperationError (Option OutboxRecord) :=
  match store.outbox.rows.find? fun row => row.outboxId == id with
  | none => .ok none
  | some row => do
      let record ← decodeOutbox row
      pure (some record)

/-- `same_outbox_identity`. -/
def OutboxRecord.sameIdentity (current prior : OutboxRecord) : Bool :=
  current.id == prior.id && current.eventDigest == prior.eventDigest &&
    current.authority == prior.authority && current.targetSet == prior.targetSet &&
    current.targetCount == prior.targetCount &&
    current.requiredTargetCount == prior.requiredTargetCount &&
    current.maxAttempts == prior.maxAttempts && current.initialBackoff == prior.initialBackoff &&
    current.maximumBackoff == prior.maximumBackoff &&
    current.attemptDeadline == prior.attemptDeadline && current.createdAt == prior.createdAt

/-- `AuthorityBinding`. -/
structure AuthorityBinding where
  authority : Digest
  targetSet : Digest
  targetCount : Nat
  requiredTargetCount : Nat
  retry : PublicationRetry
deriving DecidableEq, Repr

/-- `AuthorityBinding::from_authority`; disabled publication has none. -/
def AuthorityBinding.fromAuthority (authority : PublicationAuthority) : Option AuthorityBinding :=
  match authority.mode with
  | .disabled => none
  | .required => do
      let retry ← authority.retry
      guard (authority.targets.length ≤ 255)
      pure ⟨authority.authority, authority.targetSet, authority.targets.length,
        authority.targets.countP (·.required), retry⟩

/-- The comparisons of `validate_authority`. -/
def OutboxRecord.boundTo (outbox : OutboxRecord) (binding : AuthorityBinding) : Bool :=
  outbox.authority == binding.authority && outbox.targetSet == binding.targetSet &&
    outbox.targetCount == binding.targetCount &&
    outbox.requiredTargetCount == binding.requiredTargetCount &&
    outbox.maxAttempts == binding.retry.maximumAttempts &&
    outbox.initialBackoff == binding.retry.initialBackoff &&
    outbox.maximumBackoff == binding.retry.maximumBackoff &&
    outbox.attemptDeadline == binding.retry.attemptDeadline

/-- `RhiPublicationLease`. -/
structure PublicationLease where
  outbox : OutboxRecord
  owner : LeaseOwner
  expiresAt : Nat
deriving DecidableEq, Repr

/-- `RhiCommittedPublication`. -/
structure CommittedPublication where
  outboxId : Digest
  eventId : EventId
  eventDigest : Digest
  signedEvent : List UInt8
deriving DecidableEq, Repr

/-- `RhiPreparedPublicationAttempt`. -/
structure PreparedAttempt where
  lease : PublicationLease
  target : TargetRow
  attemptId : Digest
  startedAt : UnixMilliseconds
  publication : CommittedPublication
deriving DecidableEq, Repr

/-- `RecordInput`. -/
structure RecordInput where
  lease : PublicationLease
  targetOrdinal : Nat
  targetRevision : Nat
  attemptNumber : Nat
  attemptId : Digest
  startedAt : Nat
  finishedAt : Nat
  outcome : AttemptOutcome
  retryDelay : Nat
deriving DecidableEq, Repr

/-- `RhiPublicationAttemptCommit`. -/
structure AttemptCommit where
  outboxId : Digest
  attemptId : Digest
  targetOrdinal : Nat
  attemptNumber : Nat
  outcome : AttemptOutcome
  targetState : TargetState
  outboxState : OutboxState
deriving DecidableEq, Repr

/-- `RecoveryCandidate`. -/
structure RecoveryCandidate where
  outbox : OutboxRecord
  retryUpperBound : Nat
deriving DecidableEq, Repr

end Records

section Statements

/-- Order by a scheduling instant, then creation, then identity. -/
def OutboxRow.before (due : OutboxRow → Nat) (left right : OutboxRow) : Prop :=
  due left < due right ∨ (due left = due right ∧
    (left.createdAt < right.createdAt ∨
      (left.createdAt = right.createdAt ∧ left.outboxId ≤ right.outboxId)))

instance (due : OutboxRow → Nat) : DecidableRel (OutboxRow.before due) := fun left right => by
  unfold OutboxRow.before
  infer_instance

/-- `READ_CLAIMABLE_OUTBOX_SQL`. -/
def readClaimableOutbox (now : Nat) (rows : List OutboxRow) : Option OutboxRow :=
  ((rows.filter fun row => row.state == .pending &&
    row.nextAttempt.any fun next => decide (next ≤ now)).insertionSort
      (OutboxRow.before fun row => row.nextAttempt.getD 0)).head?

/-- `READ_EXPIRED_OUTBOX_SQL`. -/
def readExpiredOutbox (now : Nat) (rows : List OutboxRow) : Option OutboxRow :=
  ((rows.filter fun row => row.state == .leased &&
    row.leaseExpires.any fun expires => decide (expires ≤ now)).insertionSort
      (OutboxRow.before fun row => row.leaseExpires.getD 0)).head?

/-- `CLAIM_OUTBOX_SQL`. -/
def claimOutbox (owner : LeaseOwner) (expires now : Nat) (id : Digest) (revision : Nat) :
    Change OutboxRow where
  selects row := row.outboxId == id && row.revision == revision && row.state == .pending &&
    row.nextAttempt.any (fun next => decide (next ≤ now)) && decide (row.updatedAt ≤ now)
  write row := { row with
    state := .leased, revision := row.revision + 1, nextAttempt := none
    leaseOwner := some owner.bytes, leaseExpires := some expires, updatedAt := now }

/-- `PREPARE_TARGET_SQL`. -/
def prepareTarget (attemptId : Digest) (started : Nat) (outbox : Digest) (ordinal revision : Nat)
    (maxAttempts : Nat) : Change TargetRow where
  selects row := row.outboxId == outbox && row.targetOrdinal == ordinal &&
    row.revision == revision && row.state.retryable && decide (row.attemptCount < maxAttempts) &&
    row.nextAttempt.any (fun next => decide (next ≤ started)) && decide (row.updatedAt ≤ started)
  write row := { row with
    state := .submitted, revision := row.revision + 1, attemptCount := row.attemptCount + 1
    nextAttempt := none, lastAttemptId := some attemptId, updatedAt := started }

/-- `UPDATE_TARGET_OUTCOME_SQL`. -/
def recordTarget (state : TargetState) (next : Option Nat) (finished : Nat) (input : RecordInput) :
    Change TargetRow where
  selects row := row.outboxId == input.lease.outbox.id &&
    row.targetOrdinal == input.targetOrdinal && row.revision == input.targetRevision &&
    row.state == .submitted && row.attemptCount == input.attemptNumber &&
    row.lastAttemptId == some input.attemptId
  write row := { row with
    state, revision := row.revision + 1, nextAttempt := next, updatedAt := finished }

/-- The state and the schedule a verdict gives an outbox. -/
def Verdict.outboxState : Verdict → OutboxState × Option Nat
  | .complete => (.complete, none)
  | .blocked => (.blocked, none)
  | .pending next => (.pending, some next)

/-- `UPDATE_OUTBOX_AFTER_ATTEMPT_SQL` and `UPDATE_OUTBOX_RECOVERY_SQL`, which differ in the side of
the expiry they require. -/
def releaseOutbox (expired : Bool) (verdict : Verdict) (now : Nat) (lease : PublicationLease) :
    Change OutboxRow where
  selects row := row.outboxId == lease.outbox.id && row.revision == lease.outbox.revision &&
    row.state == .leased && row.leaseOwner == some lease.owner.bytes &&
    row.leaseExpires == some lease.expiresAt &&
    row.leaseExpires.any (fun expires => decide (expires ≤ now) == expired) &&
    decide (row.updatedAt ≤ now)
  write row := { row with
    state := verdict.outboxState.1, revision := row.revision + 1
    nextAttempt := verdict.outboxState.2, leaseOwner := none, leaseExpires := none
    updatedAt := now }

/-- Runs one update of the outbox. -/
def Store.updateOutbox (store : Store) (change : Change OutboxRow) :
    Except PublicationOperationError (Nat × Store) := do
  let (outbox, affected) ← orError (store.outbox.update change) .storage
  pure (affected, { store with outbox })

/-- Runs one update of the targets. -/
def Store.updateTargets (store : Store) (change : Change TargetRow) :
    Except PublicationOperationError (Nat × Store) := do
  let (targets, affected) ← orError (store.targets.update change) .storage
  pure (affected, { store with targets })

/-- `AttemptRecord::from_input`, and the row `INSERT_ATTEMPT_SQL` writes. -/
def RecordInput.row (input : RecordInput) : DeliveryRow where
  attemptId := input.attemptId
  outboxId := input.lease.outbox.id
  targetOrdinal := input.targetOrdinal
  attemptNumber := input.attemptNumber
  eventDigest := input.lease.outbox.eventDigest
  leaseOwner := input.lease.owner.bytes
  started := input.startedAt
  finished := input.finishedAt
  outcome := input.outcome

end Statements

namespace Publication

section Reading

variable [Sha256]

/-- `derive_attempt_id`. -/
def deriveAttemptId (outbox event : Digest) (ordinal attemptNumber : Nat) : Digest :=
  Sha256.digest (domainBytes "radroots.rhi.publication_attempt.v1" ++ toBeBytes 32 outbox.toNat ++
    toBeBytes 32 event.toNat ++ toBeBytes 4 ordinal ++ toBeBytes 4 attemptNumber)

/-- `read_committed`; both of its failures are broken invariants to the executor. -/
def readCommitted (id : Digest) (store : Store) :
    Except PublicationOperationError CommittedPublication := do
  let outbox ← orError (store.outbox.rows.find? fun row => row.outboxId == id) .invariant
  let event ← orError (store.signedEvents.rows.find? fun row => row.eventId == outbox.eventId)
    .invariant
  require (outbox.eventDigest == event.eventDigest &&
    decide (1 ≤ event.canonicalEventJson.length ∧ event.canonicalEventJson.length ≤ 32768) &&
    Sha256.digest event.canonicalEventJson == event.eventDigest) .invariant
  pure ⟨outbox.outboxId, event.eventId, event.eventDigest, event.canonicalEventJson⟩

/-- `validate_targets`. -/
def validateTargets (outbox : OutboxRecord) (targets : List TargetRow) :
    Except PublicationOperationError Unit :=
  require (targetsValid publicationTargetSet outbox.targetCount outbox.requiredTargetCount
    outbox.targetSet targets) .invariant

/-- `disposition`. -/
def disposition (outbox : OutboxRecord) (targets : List TargetRow) :
    Except PublicationOperationError Verdict := do
  validateTargets outbox targets
  orError (verdict outbox.maxAttempts targets) .invariant

omit [Sha256] in
/-- `validate_lease`, which always requires an unexpired lease. -/
def validateLease (lease : PublicationLease) (now : Nat) (store : Store) :
    Except PublicationOperationError Unit := do
  let current ← readOutbox lease.outbox.id store
  require (current == some lease.outbox) .leaseLost
  require (lease.outbox.state == .leased && lease.outbox.leaseOwner == some lease.owner &&
    lease.outbox.leaseExpires == some lease.expiresAt && decide (now < lease.expiresAt)) .leaseLost

/-- The schedule of a target after the outcome of an attempt. -/
def outcomeOf (input : RecordInput) :
    Except PublicationOperationError (TargetState × Option Nat) :=
  orError (outcomeSchedule input.lease.outbox.maxAttempts
    (retryUpperBound input.lease.outbox.initialBackoff input.lease.outbox.maximumBackoff
      input.attemptNumber) input.attemptNumber input.finishedAt input.retryDelay input.outcome)
    .invalidInput

/-- `insert_attempt`, with the foreign key to the targets. -/
def insertAttempt (input : RecordInput) (store : Store) :
    Except PublicationOperationError Store := do
  require (store.targets.rows.any fun target => target.outboxId == input.lease.outbox.id &&
    target.targetOrdinal == input.targetOrdinal) .storage
  let deliveries ← orError (store.deliveries.insert input.row) .storage
  pure { store with deliveries }

end Reading

section Bodies

variable [Sha256]

/-- `claim_next`. -/
def claimNext (owner : LeaseOwner) (now : UnixMilliseconds) (binding : AuthorityBinding)
    (store : Store) : Except PublicationOperationError (Option PublicationLease × Store) :=
  match readClaimableOutbox now.get store.outbox.rows with
  | none => .ok (none, store)
  | some row => do
      let outbox ← decodeOutbox row
      require (outbox.boundTo binding) .invariant
      validateTargets outbox (readTargets outbox.id store.targets.rows)
      let expires := now.get + outbox.attemptDeadline
      require (decide (expires ≤ maxInteger)) .invalidInput
      let (affected, store) ←
        store.updateOutbox (claimOutbox owner expires now.get outbox.id outbox.revision)
      require (affected == 1) .leaseLost
      let current ← readOutbox outbox.id store
      let leased ← orError current .invariant
      require (leased.state == .leased && leased.leaseOwner == some owner &&
        leased.leaseExpires == some expires) .invariant
      pure (some ⟨leased, owner, expires⟩, store)

/-- `prepare_next`. -/
def prepareNext (lease : PublicationLease) (startedAt : UnixMilliseconds) (store : Store) :
    Except PublicationOperationError (PreparedAttempt × Store) := do
  validateLease lease startedAt.get store
  let targets := readTargets lease.outbox.id store.targets.rows
  validateTargets lease.outbox targets
  let candidate ← orError
    (targets.find? fun target => target.isDue lease.outbox.maxAttempts startedAt.get) .notReady
  let attemptNumber := candidate.attemptCount + 1
  require (decide (attemptNumber ≤ lease.outbox.maxAttempts)) .invariant
  let attemptId := deriveAttemptId lease.outbox.id lease.outbox.eventDigest candidate.targetOrdinal
    attemptNumber
  let (affected, store) ← store.updateTargets (prepareTarget attemptId startedAt.get
    lease.outbox.id candidate.targetOrdinal candidate.revision lease.outbox.maxAttempts)
  require (affected == 1) .leaseLost
  let target ← orError ((readTargets lease.outbox.id store.targets.rows).find? fun target =>
    target.targetOrdinal == candidate.targetOrdinal) .invariant
  require (target.state == .submitted && target.attemptCount == attemptNumber &&
    target.lastAttemptId == some attemptId) .invariant
  let publication ← readCommitted lease.outbox.id store
  require (publication.eventDigest == lease.outbox.eventDigest) .invariant
  pure (⟨lease, target, attemptId, startedAt, publication⟩, store)

/-- `reconcile_recorded`. -/
def reconcileRecorded (input : RecordInput) (existing : DeliveryRow) (store : Store) :
    Except PublicationOperationError AttemptCommit := do
  require (existing == input.row) .invariant
  let current ← readOutbox input.lease.outbox.id store
  let outbox ← orError current .invariant
  require (outbox.sameIdentity input.lease.outbox &&
    outbox.revision == input.lease.outbox.revision + 1 &&
    outbox.updatedAt == input.finishedAt && outbox.leaseOwner.isNone &&
    outbox.leaseExpires.isNone) .invariant
  let targets := readTargets outbox.id store.targets.rows
  validateTargets outbox targets
  let (state, next) ← outcomeOf input
  let target ← orError (targets.find? fun target =>
    target.targetOrdinal == input.targetOrdinal) .invariant
  require (target.revision == input.targetRevision + 1 &&
    target.attemptCount == input.attemptNumber &&
    target.lastAttemptId == some input.attemptId && target.state == state &&
    target.nextAttempt == next && target.updatedAt == input.finishedAt) .invariant
  let verdict ← disposition outbox targets
  require (outbox.state == verdict.outboxState.1 && outbox.nextAttempt == verdict.outboxState.2)
    .invariant
  pure ⟨outbox.id, input.attemptId, input.targetOrdinal, input.attemptNumber, input.outcome,
    target.state, outbox.state⟩

/-- The part of `record_outcome` and `recover_expired` that writes the outcome of one submitted
target. -/
def writeOutcome (input : RecordInput) (store : Store) :
    Except PublicationOperationError (TargetState × Store) := do
  let store ← insertAttempt input store
  let (state, next) ← outcomeOf input
  let (affected, store) ← store.updateTargets (recordTarget state next input.finishedAt input)
  require (affected == 1) .leaseLost
  pure (state, store)

/-- The update of the outbox after its targets were written. -/
def release (expired : Bool) (lease : PublicationLease) (now : Nat) (store : Store) :
    Except PublicationOperationError (Verdict × Store) := do
  let verdict ← disposition lease.outbox (readTargets lease.outbox.id store.targets.rows)
  let (affected, store) ← store.updateOutbox (releaseOutbox expired verdict now lease)
  require (affected == 1) .leaseLost
  pure (verdict, store)

/-- `record_outcome`. -/
def recordOutcome (input : RecordInput) (store : Store) :
    Except PublicationOperationError (AttemptCommit × Store) :=
  match store.deliveries.rows.find? fun row => row.attemptId == input.attemptId with
  | some existing => do
      let commit ← reconcileRecorded input existing store
      pure (commit, store)
  | none => do
      validateLease input.lease input.finishedAt store
      let target ← orError ((readTargets input.lease.outbox.id store.targets.rows).find?
        fun target => target.targetOrdinal == input.targetOrdinal) .invariant
      require (target.state == .submitted && target.revision == input.targetRevision &&
        target.attemptCount == input.attemptNumber &&
        target.lastAttemptId == some input.attemptId && target.updatedAt == input.startedAt)
        .leaseLost
      let (state, store) ← writeOutcome input store
      let (verdict, store) ← release false input.lease input.finishedAt store
      pure (⟨input.lease.outbox.id, input.attemptId, input.targetOrdinal, input.attemptNumber,
        input.outcome, state, verdict.outboxState.1⟩, store)

/-- `read_expired_candidate`. -/
def readExpiredCandidate (now : UnixMilliseconds) (binding : AuthorityBinding) (store : Store) :
    Except PublicationOperationError (Option RecoveryCandidate) :=
  match readExpiredOutbox now.get store.outbox.rows with
  | none => .ok none
  | some row => do
      let outbox ← decodeOutbox row
      require (outbox.boundTo binding) .invariant
      let targets := readTargets outbox.id store.targets.rows
      validateTargets outbox targets
      let submitted := (targets.filter fun target => target.state == .submitted).map
        (·.attemptCount)
      require (decide (submitted.length ≤ 1)) .invariant
      let attempt := submitted.head?.filter fun attempt => decide (attempt < outbox.maxAttempts)
      pure (some ⟨outbox,
        attempt.elim 0 (retryUpperBound outbox.initialBackoff outbox.maximumBackoff)⟩)

/-- The input `recover_expired` records for a submitted target. -/
def recoveryInput (lease : PublicationLease) (now delay : Nat) (target : TargetRow)
    (attemptId : Digest) : RecordInput where
  lease
  targetOrdinal := target.targetOrdinal
  targetRevision := target.revision
  attemptNumber := target.attemptCount
  attemptId
  startedAt := target.updatedAt
  finishedAt := now
  outcome := .unknown
  retryDelay := delay

/-- The loop of `recover_expired`. -/
def recoverTargets (lease : PublicationLease) (now delay : Nat) :
    List TargetRow → Store → Except PublicationOperationError Store
  | [], store => .ok store
  | target :: rest, store => do
      let attemptId ← orError target.lastAttemptId .invariant
      let publication ← readCommitted lease.outbox.id store
      require (decide (target.targetOrdinal ≤ 31 ∧ 1 ≤ target.attemptCount ∧
        target.attemptCount ≤ 100 ∧ target.updatedAt ≤ now)) .invariant
      require (attemptId == deriveAttemptId publication.outboxId publication.eventDigest
        target.targetOrdinal target.attemptCount &&
        !store.deliveries.rows.any fun row => row.attemptId == attemptId) .invariant
      let (_, store) ← writeOutcome (recoveryInput lease now delay target attemptId) store
      recoverTargets lease now delay rest store

/-- `recover_expired`. -/
def recoverExpired (candidate : RecoveryCandidate) (now : UnixMilliseconds) (delay : Nat)
    (store : Store) : Except PublicationOperationError (Unit × Store) := do
  let current ← readOutbox candidate.outbox.id store
  require (current == some candidate.outbox) .leaseLost
  require (candidate.outbox.state == .leased &&
    candidate.outbox.leaseExpires.any fun expires => decide (expires ≤ now.get)) .leaseLost
  let owner ← orError candidate.outbox.leaseOwner .invariant
  let expiresAt ← orError candidate.outbox.leaseExpires .invariant
  let lease : PublicationLease := ⟨candidate.outbox, owner, expiresAt⟩
  let targets := readTargets candidate.outbox.id store.targets.rows
  validateTargets candidate.outbox targets
  let store ← recoverTargets lease now.get delay
    (targets.filter fun target => target.state == .submitted) store
  let (_, store) ← release true lease now.get store
  pure ((), store)

end Bodies

section Operations

variable [Sha256]

/-- `claim_next_publication`. -/
def claimNextPublication (mode : HostMode) (disposition : Disposition) (owner : LeaseOwner)
    (now : UnixMilliseconds) (authority : PublicationAuthority) (store : Store) :
    Except PublicationErrorKind (Option PublicationLease) × Store :=
  if mode ≠ .readWriteExisting then
    (.error .invalidMode, store)
  else
    match AuthorityBinding.fromAuthority authority with
    | none => (.ok none, store)
    | some binding =>
        transaction mapPublicationError disposition (claimNext owner now binding) store

/-- `prepare_next_publication_target`. -/
def prepareNextPublicationTarget (mode : HostMode) (disposition : Disposition)
    (lease : PublicationLease) (startedAt : UnixMilliseconds) (store : Store) :
    Except PublicationErrorKind PreparedAttempt × Store :=
  if mode ≠ .readWriteExisting then
    (.error .invalidMode, store)
  else
    transaction mapPublicationError disposition (prepareNext lease startedAt) store

/-- `RecordInput::from_prepared`. -/
def RecordInput.fromPrepared (prepared : PreparedAttempt) (finishedAt : UnixMilliseconds)
    (outcome : AttemptOutcome) (delay : Nat) : Except PublicationErrorKind RecordInput := do
  require (decide (prepared.startedAt.get ≤ finishedAt.get) && outcome != .submitted) .invalidInput
  require (decide (prepared.target.targetOrdinal ≤ 31 ∧ 1 ≤ prepared.target.attemptCount ∧
    prepared.target.attemptCount ≤ 100)) .invalidInput
  require (deriveAttemptId prepared.publication.outboxId prepared.publication.eventDigest
    prepared.target.targetOrdinal prepared.target.attemptCount == prepared.attemptId) .invariant
  pure {
    lease := prepared.lease
    targetOrdinal := prepared.target.targetOrdinal
    targetRevision := prepared.target.revision
    attemptNumber := prepared.target.attemptCount
    attemptId := prepared.attemptId
    startedAt := prepared.startedAt.get
    finishedAt := finishedAt.get
    outcome
    retryDelay := delay }

/-- `record_publication_outcome`. -/
def recordPublicationOutcome (mode : HostMode) (disposition : Disposition)
    (prepared : PreparedAttempt) (finishedAt : UnixMilliseconds) (outcome : AttemptOutcome)
    (delay : Nat) (store : Store) : Except PublicationErrorKind AttemptCommit × Store :=
  if mode ≠ .readWriteExisting then
    (.error .invalidMode, store)
  else
    match RecordInput.fromPrepared prepared finishedAt outcome delay with
    | .error error => (.error error, store)
    | .ok input => transaction mapPublicationError disposition (recordOutcome input) store

/-- The first transaction of `recover_one_expired_publication`. -/
def readExpiredPublication (mode : HostMode) (disposition : Disposition) (now : UnixMilliseconds)
    (authority : PublicationAuthority) (store : Store) :
    Except PublicationErrorKind (Option RecoveryCandidate) :=
  if mode ≠ .readWriteExisting then
    .error .invalidMode
  else
    match AuthorityBinding.fromAuthority authority with
    | none => .ok none
    | some binding =>
        (transaction mapPublicationError disposition (fun store => do
          let candidate ← readExpiredCandidate now binding store
          pure (candidate, store)) store).1

/-- The second transaction of `recover_one_expired_publication`. -/
def recoverExpiredPublication (disposition : Disposition) (candidate : RecoveryCandidate)
    (now : UnixMilliseconds) (delay : Nat) (store : Store) :
    Except PublicationErrorKind Unit × Store :=
  transaction mapPublicationError disposition (recoverExpired candidate now delay) store

end Operations

section Administration

/-- `AdminJournalOperationError`, as far as the retry of a publication reports it. -/
inductive AdminOperationError where
  | conflict
  | storage
deriving DecidableEq, Repr

/-- The statement that makes every target of an outbox pending again. -/
def retryTargets (outbox : Digest) (now : Nat) : Change TargetRow where
  selects row := row.outboxId == outbox && row.state != .accepted
  write row := { row with
    state := .pending, revision := row.revision + 1, nextAttempt := some now, updatedAt := now }

/-- The statement that makes a blocked outbox pending again. -/
def retryOutbox (outbox : Digest) (revision now : Nat) : Change OutboxRow where
  selects row := row.outboxId == outbox && row.state == .blocked && row.revision == revision
  write row := { row with
    state := .pending, revision := row.revision + 1, nextAttempt := some now, updatedAt := now }

/-- The operation of `publication_retry`, inside the transaction of the operation journal. -/
def retry (outbox : Digest) (expected targetCount : Nat) (now : UnixMilliseconds) (store : Store) :
    Except AdminOperationError (Unit × Store) := do
  let row ← orError (store.outbox.rows.find? fun row => row.outboxId == outbox) .conflict
  require (row.state == .blocked && row.revision == expected && row.targetCount == targetCount)
    .conflict
  let (targets, _) ← orError (store.targets.update (retryTargets outbox now.get)) .storage
  let (rows, affected) ← orError (store.outbox.update (retryOutbox outbox expected now.get))
    .storage
  require (affected == 1) .conflict
  pure ((), { store with targets, outbox := rows })

/-- `publication_retry`; a failed operation changes nothing, whatever its report. -/
def publicationRetry (disposition : Disposition) (outbox : Digest) (expected targetCount : Nat)
    (now : UnixMilliseconds) (store : Store) : Except (Failure AdminOperationError) Unit × Store :=
  transaction id disposition (retry outbox expected targetCount now) store

end Administration

end Publication

end Rhi
