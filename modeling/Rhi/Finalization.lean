import Rhi.Commit

/-!
# Finalization

The last transaction of an attempt: it re-validates the lease, the dirty generation, the committed
inventory and the checkpoints, makes the manifest, the projection, the signed report and its
publication durable, and completes the job.  A repeated call is recognised by its footprint.
-/

namespace Rhi

open Relational Transactional

section Inputs

/-- `FinalizationSource`. -/
structure FinalizationSource where
  sourceId : SourceId
  required : Bool
  completion : ManifestCompletion
  admittedEventCount : Nat
deriving DecidableEq, Repr

/-- `RhiSignedEvidenceAttestation` with the fence it was signed under: `prepare_finalization`
accepts only an evaluation of the attempt its lease was claimed for. -/
structure Attestation where
  lease : Lease
  manifestDigest : Digest
  canonicalManifest : List UInt8
  observedAt : Nat
  sources : List FinalizationSource
  observationCount : Nat
  projectionDigest : Digest
  sharedProjectionDigest : Digest
  issueCount : Nat
  statementDigest : Digest
  claimMutationId : MutationId
  issuerPublicKey : PublicKey
  outcome : EvidenceOutcome
  canonicalReport : List UInt8
  reportObservedAt : Nat
  supersession : Option (Digest × EventId)
  eventId : EventId
  signedEventDigest : Digest
  createdAt : Nat
  signedEvent : List UInt8
  leased : lease.job.state = .leased
  attempted : lease.job.attemptCount ≠ 0
deriving DecidableEq, Repr

/-- One target of a publication authority. -/
structure PublicationTarget where
  ordinal : Nat
  relayId : SourceId
  required : Bool
deriving DecidableEq, Repr

structure PublicationRetry where
  maximumAttempts : Nat
  initialBackoff : Nat
  maximumBackoff : Nat
  attemptDeadline : Nat
deriving DecidableEq, Repr

inductive PublicationMode where
  | disabled
  | required
deriving DecidableEq, Repr

/-- `RhiPublicationAuthority`. -/
structure PublicationAuthority where
  configuration : Digest
  mode : PublicationMode
  authority : Digest
  targetSet : Digest
  queueCapacity : Nat
  retry : Option PublicationRetry
  targets : List PublicationTarget
deriving DecidableEq, Repr

/-- `RHI_PUBLICATION_MAX_TARGETS`. -/
def publicationMaxTargets : Nat := 32

/-- `RequiredPublication`. -/
structure RequiredPublication where
  outboxId : Digest
  authority : Digest
  targetSet : Digest
  queueCapacity : Nat
  retry : PublicationRetry
  targets : List PublicationTarget
deriving DecidableEq, Repr

/-- `FinalizationRecord`; its identity is the one of the lease. -/
structure FinalizationRecord where
  attestation : Attestation
  now : UnixMilliseconds
  publication : Option RequiredPublication
deriving DecidableEq, Repr

variable [Sha256]

/-- `outbox_id`. -/
def outboxId (event : EventId) (authority targetSet : Digest) : Digest :=
  Sha256.digest (domainBytes "radroots.rhi.publication_outbox.v1" ++ toBeBytes 32 event.toNat ++
    toBeBytes 32 authority.toNat ++ toBeBytes 32 targetSet.toNat)

/-- The publication part of `FinalizationRecord::from_inputs`. -/
def requiredPublication (event : EventId) (publication : PublicationAuthority) :
    Option (Option RequiredPublication) :=
  match publication.mode with
  | .disabled => do
      guard (publication.targets = [] ∧ publication.retry = none)
      pure none
  | .required => do
      let retry ← publication.retry
      guard (publication.targets ≠ [] ∧ publication.targets.length ≤ publicationMaxTargets ∧
        publication.targets.map (·.ordinal) = List.range publication.targets.length)
      pure (some {
        outboxId := outboxId event publication.authority publication.targetSet
        authority := publication.authority
        targetSet := publication.targetSet
        queueCapacity := publication.queueCapacity
        retry
        targets := publication.targets })

/-- `FinalizationRecord::from_inputs`. -/
def FinalizationRecord.fromInputs (attestation : Attestation) (publication : PublicationAuthority)
    (now : UnixMilliseconds) : Option FinalizationRecord := do
  guard (attestation.sources.length ≤ 255 ∧ attestation.observationCount < 2 ^ 32 ∧
    attestation.issueCount < 2 ^ 32)
  guard (attestation.reportObservedAt = attestation.observedAt ∧
    attestation.observedAt ≤ maxInteger ∧ attestation.createdAt ≤ maxInteger ∧
    attestation.lease.job.inputGeneration ≤ maxInteger)
  let publication ← requiredPublication attestation.eventId publication
  pure ⟨attestation, now, publication⟩

end Inputs

section Rows

namespace Attestation

def manifestRow [Sha256] (attestation : Attestation) : ManifestRow where
  manifestDigest := attestation.manifestDigest
  attemptId := attemptId attestation.lease.job.id attestation.lease.job.attemptCount
  tradeId := attestation.lease.job.tradeId
  tradeGeneration := attestation.lease.job.inputGeneration
  evidencePolicy := attestation.lease.job.policyDigest
  canonicalManifest := attestation.canonicalManifest
  observedAt := attestation.observedAt
  sourceCount := attestation.sources.length
  observationCount := attestation.observationCount

def projectionRow (attestation : Attestation) : ProjectionRow where
  projectionDigest := attestation.projectionDigest
  manifestDigest := attestation.manifestDigest
  sharedProjectionDigest := attestation.sharedProjectionDigest
  issueCount := attestation.issueCount

def reportRow (attestation : Attestation) : ReportRow where
  statementDigest := attestation.statementDigest
  manifestDigest := attestation.manifestDigest
  projectionDigest := attestation.projectionDigest
  tradeId := attestation.lease.job.tradeId
  claimMutationId := attestation.claimMutationId
  issuerPublicKey := attestation.issuerPublicKey
  outcome := attestation.outcome
  canonicalReport := attestation.canonicalReport
  observedAt := attestation.observedAt
  supersedes := attestation.supersession

def signedEventRow (attestation : Attestation) : SignedEventRow where
  eventId := attestation.eventId
  statementDigest := attestation.statementDigest
  eventDigest := attestation.signedEventDigest
  issuerPublicKey := attestation.issuerPublicKey
  authoredAt := attestation.createdAt
  canonicalEventJson := attestation.signedEvent

/-- The attempt a finalization belongs to. -/
def attemptId [Sha256] (attestation : Attestation) : AttemptId :=
  Rhi.attemptId attestation.lease.job.id attestation.lease.job.attemptCount

end Attestation

/-- The row `INSERT_OUTBOX_SQL` writes. -/
def RequiredPublication.outboxRow (required : RequiredPublication) (attestation : Attestation)
    (now : Nat) : OutboxRow where
  outboxId := required.outboxId
  eventId := attestation.eventId
  eventDigest := attestation.signedEventDigest
  publicationAuthority := required.authority
  targetSet := required.targetSet
  targetCount := required.targets.length
  requiredTargetCount := required.targets.countP (·.required)
  maxAttempts := required.retry.maximumAttempts
  initialBackoff := required.retry.initialBackoff
  maximumBackoff := required.retry.maximumBackoff
  attemptDeadline := required.retry.attemptDeadline
  state := .pending
  revision := 1
  nextAttempt := some now
  leaseOwner := none
  leaseExpires := none
  createdAt := now
  updatedAt := now

/-- The row `INSERT_TARGET_SQL` writes. -/
def PublicationTarget.row (target : PublicationTarget) (outbox : Digest) (now : Nat) :
    TargetRow where
  outboxId := outbox
  targetOrdinal := target.ordinal
  relayId := target.relayId
  required := target.required
  state := .pending
  revision := 1
  attemptCount := 0
  nextAttempt := some now
  lastAttemptId := none
  updatedAt := now

end Rows

/-- `OperationError` of the finalization commit. -/
inductive FinalizationOperationError where
  | leaseLost
  | generationConflict
  | attemptUnavailable
  | queueFull
  | conflict
  | storage
deriving DecidableEq, Repr

/-- `RhiReconciliationFinalizationCommitErrorKind`. -/
inductive FinalizationErrorKind where
  | invalidMode
  | invalidInput
  | leaseLost
  | generationConflict
  | attemptUnavailable
  | publicationQueueFull
  | conflict
  | storage
  | commitOutcomeUnknown
deriving DecidableEq, Repr

/-- `map_transaction_error` of the finalization commit. -/
def mapFinalizationError : Failure FinalizationOperationError → FinalizationErrorKind
  | .outcomeUnknown => .commitOutcomeUnknown
  | .operation .leaseLost => .leaseLost
  | .operation .generationConflict => .generationConflict
  | .operation .attemptUnavailable => .attemptUnavailable
  | .operation .queueFull => .publicationQueueFull
  | .operation .conflict => .conflict
  | .operation .storage | .aborted => .storage

/-- `RhiReconciliationFinalizationCommitOutcome`. -/
structure FinalizationOutcome where
  created : Bool
  publicationMode : PublicationMode
  targetCount : Nat
  outboxId : Option Digest
deriving DecidableEq, Repr

/-- `FinalizationRecord::outcome`. -/
def FinalizationRecord.outcome (record : FinalizationRecord) (created : Bool) :
    FinalizationOutcome :=
  match record.publication with
  | none => ⟨created, .disabled, 0, none⟩
  | some required => ⟨created, .required, required.targets.length, some required.outboxId⟩

section Existing

variable [Sha256]

/-- The footprint query of `reconcile_existing`. -/
def footprint (attestation : Attestation) (store : Store) : Nat :=
  store.manifests.rows.countP (fun row => row.manifestDigest == attestation.manifestDigest ||
      row.attemptId == attestation.attemptId) +
    store.projections.rows.countP (fun row =>
      row.projectionDigest == attestation.projectionDigest ||
        row.manifestDigest == attestation.manifestDigest) +
    store.reports.rows.countP (fun row => row.statementDigest == attestation.statementDigest) +
    store.signedEvents.rows.countP (fun row => row.eventId == attestation.eventId ||
      row.statementDigest == attestation.statementDigest ||
      row.eventDigest == attestation.signedEventDigest) +
    store.outbox.rows.countP (fun row => row.eventId == attestation.eventId) +
    store.jobs.rows.countP (fun row => row.jobId == attestation.lease.job.id &&
      row.state == .completed)

/-- The columns of the outbox that `publication_matches` compares: those no later progress of the
publication changes. -/
def RequiredPublication.matchesOutbox (required : RequiredPublication) (attestation : Attestation)
    (row : OutboxRow) : Bool :=
  row.outboxId == required.outboxId && row.eventId == attestation.eventId &&
    row.eventDigest == attestation.signedEventDigest &&
    row.publicationAuthority == required.authority && row.targetSet == required.targetSet &&
    row.targetCount == required.targets.length &&
    row.requiredTargetCount == required.targets.countP (·.required) &&
    row.maxAttempts == required.retry.maximumAttempts &&
    row.initialBackoff == required.retry.initialBackoff &&
    row.maximumBackoff == required.retry.maximumBackoff &&
    row.attemptDeadline == required.retry.attemptDeadline

def PublicationTarget.matchesRow (target : PublicationTarget) (outbox : Digest)
    (row : TargetRow) : Bool :=
  row.outboxId == outbox && row.targetOrdinal == target.ordinal &&
    row.relayId == target.relayId && row.required == target.required

/-- `publication_matches`. -/
def publicationMatches (attestation : Attestation) (publication : Option RequiredPublication)
    (store : Store) : Bool :=
  match publication with
  | none => store.outbox.rows.countP (fun row => row.eventId == attestation.eventId) == 0
  | some required =>
      store.outbox.rows.countP (required.matchesOutbox attestation) == 1 &&
        store.targets.rows.countP (fun row => row.outboxId == required.outboxId) ==
          required.targets.length &&
        required.targets.all fun target =>
          store.targets.rows.countP (target.matchesRow required.outboxId) == 1

/-- The columns `completed_job_matches` compares. -/
def Lease.matchesCompleted (lease : Lease) (row : JobRow) : Bool :=
  row.jobId == lease.job.id && row.tradeId == lease.job.tradeId &&
    row.inputGeneration == lease.job.inputGeneration &&
    row.evidencePolicy == lease.job.policyDigest && row.state == .completed &&
    row.revision == lease.job.revision + 1 && row.attemptCount == lease.job.attemptCount &&
    row.failureCount == lease.job.failureCount &&
    row.maxAttempts == lease.job.policy.maxAttempts && row.nextAttempt.isNone &&
    row.leaseOwner.isNone && row.leaseExpires.isNone

/-- Whether a stored completion belongs to a class of the manifest. -/
def ManifestCompletion.covers (manifest : ManifestCompletion) (completion : SourceCompletion) :
    Bool :=
  completion.toManifest == manifest

/-- The per-source comparison of `validate_source_inventory`. -/
def sourceMatches (attempt : AttemptId) (store : Store) (ordinal : Nat)
    (source : FinalizationSource) : Bool :=
  store.attemptSources.rows.countP (fun row => row.attemptId == attempt &&
    row.sourceOrdinal == ordinal && row.sourceId == source.sourceId &&
    row.required == source.required && row.acceptedEventCount == source.admittedEventCount &&
    source.completion.covers row.completion) == 1

/-- The comparisons of `validate_source_inventory`. -/
def inventoryMatches (attestation : Attestation) (store : Store) : Bool :=
  store.attempts.rows.countP (fun row => row.attemptId == attestation.attemptId &&
      row.sourceCount == attestation.sources.length) == 1 &&
    store.attemptSources.rows.countP (fun row => row.attemptId == attestation.attemptId) ==
      attestation.sources.length &&
    attestation.sources.zipIdx.all fun entry =>
      sourceMatches attestation.attemptId store entry.2 entry.1

/-- `validate_source_inventory`. -/
def validateSourceInventory (attestation : Attestation) (store : Store) :
    Except FinalizationOperationError Unit :=
  require (inventoryMatches attestation store) .attemptUnavailable

/-- The join of `validate_supersession`. -/
def supersessionMatches (attestation : Attestation) (store : Store) : Bool :=
  attestation.supersession.all fun superseded =>
    (store.reports.rows.map fun report => store.signedEvents.rows.countP fun event =>
      event.statementDigest == report.statementDigest &&
        report.statementDigest == superseded.1 && event.eventId == superseded.2).sum == 1

/-- `validate_supersession`. -/
def validateSupersession (attestation : Attestation) (store : Store) :
    Except FinalizationOperationError Unit :=
  require (supersessionMatches attestation store) .conflict

/-- Whether the rows of a finalization other than its job are durable as given. -/
def rowsMatch (record : FinalizationRecord) (store : Store) : Bool :=
  store.manifests.rows.count record.attestation.manifestRow == 1 &&
    store.projections.rows.count record.attestation.projectionRow == 1 &&
    store.reports.rows.count record.attestation.reportRow == 1 &&
    store.signedEvents.rows.count record.attestation.signedEventRow == 1 &&
    publicationMatches record.attestation record.publication store

/-- `reconcile_existing` of the finalization commit; true when the finalization is durable. -/
def reconcileFinalization (record : FinalizationRecord) (store : Store) :
    Except FinalizationOperationError Bool :=
  if footprint record.attestation store = 0 then
    .ok false
  else if rowsMatch record store then do
    require (decide (record.attestation.lease.job.revision + 1 ≤ maxInteger)) .storage
    require (store.jobs.rows.countP record.attestation.lease.matchesCompleted == 1) .conflict
    validateSourceInventory record.attestation store
    validateSupersession record.attestation store
    pure true
  else
    .error .conflict

end Existing

section Operations

variable [Sha256]

/-- `validate_finalization_identity`, for the identity of a lease. -/
def validateFinalizationIdentity (lease : Lease) (now : UnixMilliseconds) (store : Store) :
    Except FinalizationOperationError Unit := do
  require (decide (now.get < lease.leaseExpires.get)) .leaseLost
  validateExactLease .leaseLost .storage lease store
  require ((readDirty store lease.job.tradeId).any fun row =>
    row.generation == lease.job.inputGeneration && row.evidencePolicy == lease.job.policyDigest)
    .generationConflict
  require (decide (lease.job.inputGeneration ≤ maxInteger)) .storage
  require (store.attempts.rows.countP (fun row =>
    row.attemptId == attemptId lease.job.id lease.job.attemptCount &&
      row.jobId == lease.job.id && row.tradeId == lease.job.tradeId &&
      row.inputGeneration == lease.job.inputGeneration &&
      row.evidencePolicy == lease.job.policyDigest) == 1) .attemptUnavailable

/-- `validate_advanced_checkpoints`. -/
def validateAdvancedCheckpoints (attestation : Attestation) (store : Store) :
    Except FinalizationOperationError Unit :=
  require (store.attemptSources.rows.all fun row =>
    !(row.attemptId == attestation.attemptId && row.checkpointAdvanced) ||
      (readCheckpoint store row.sourceId attestation.lease.job.policyDigest row.tradeId).any
        fun checkpoint => row.candidateCursor.all (· == checkpoint.cursor)) .generationConflict

/-- The queue check of a required publication. -/
def validateQueue (publication : Option RequiredPublication) (store : Store) :
    Except FinalizationOperationError Unit :=
  require (publication.all fun required => decide
    (store.outbox.rows.countP (fun row => row.state != .complete) < required.queueCapacity))
    .queueFull

/-- The targets of an outbox, inserted in order. -/
def insertTargets (outbox : Digest) (now : Nat) :
    List PublicationTarget → Store → Except FinalizationOperationError Store
  | [], store => .ok store
  | target :: rest, store => do
      let targets ← orError (store.targets.insert (target.row outbox now)) .storage
      insertTargets outbox now rest { store with targets }

/-- The publication part of `insert_finalization`. -/
def insertPublication (record : FinalizationRecord) (store : Store) :
    Except FinalizationOperationError Store :=
  match record.publication with
  | none => .ok store
  | some required => do
      let outbox ← orError
        (store.outbox.insert (required.outboxRow record.attestation record.now.get)) .storage
      insertTargets required.outboxId record.now.get required.targets { store with outbox }

/-- `insert_finalization`.  Each row references the one inserted before it; the manifest references
the attempt. -/
def insertFinalization (record : FinalizationRecord) (store : Store) :
    Except FinalizationOperationError Store := do
  let attestation := record.attestation
  require (store.attempts.rows.any fun row => row.attemptId == attestation.attemptId) .storage
  let manifests ← orError (store.manifests.insert attestation.manifestRow) .storage
  let projections ← orError (store.projections.insert attestation.projectionRow) .storage
  require (attestation.supersession.all fun superseded => store.reports.rows.any fun report =>
    report.statementDigest == superseded.1) .storage
  let reports ← orError (store.reports.insert attestation.reportRow) .storage
  let signedEvents ← orError (store.signedEvents.insert attestation.signedEventRow) .storage
  insertPublication record { store with manifests, projections, reports, signedEvents }

/-- The job of a finalization becomes completed. -/
def completeLease (lease : Lease) (now : UnixMilliseconds) (store : Store) :
    Except FinalizationOperationError Store := do
  let (affected, store) ←
    (store.updateJobs (completeJob now.get lease)).mapError fun _ => .storage
  require (affected == 1) .leaseLost
  pure store

/-- The part of `commit` that follows when nothing of the finalization is durable yet. -/
def createFinalization (record : FinalizationRecord) (store : Store) :
    Except FinalizationOperationError (FinalizationOutcome × Store) := do
  validateFinalizationIdentity record.attestation.lease record.now store
  validateSourceInventory record.attestation store
  validateAdvancedCheckpoints record.attestation store
  validateSupersession record.attestation store
  validateQueue record.publication store
  let store ← insertFinalization record store
  let store ← completeLease record.attestation.lease record.now store
  pure (record.outcome true, store)

/-- `commit` of a finalization. -/
def finalize (record : FinalizationRecord) (store : Store) :
    Except FinalizationOperationError (FinalizationOutcome × Store) := do
  let durable ← reconcileFinalization record store
  if durable then
    pure (record.outcome false, store)
  else
    createFinalization record store

/-- `commit_finalization`. -/
def commitFinalization (host : Host) (disposition : Disposition) (attestation : Attestation)
    (publication : PublicationAuthority) (now : UnixMilliseconds) (store : Store) :
    Except FinalizationErrorKind FinalizationOutcome × Store :=
  if host.mode ≠ .readWriteExisting then
    (.error .invalidMode, store)
  else if publication.configuration ≠ host.binding.normalizedConfig then
    (.error .invalidInput, store)
  else
    match FinalizationRecord.fromInputs attestation publication now with
    | none => (.error .invalidInput, store)
    | some record => transaction mapFinalizationError disposition (finalize record) store

end Operations

end Rhi
