import Rhi.Data
import Rhi.Lib.Table

/-!
# The state catalog

Row types of the durable tables, with the checks, triggers and unique keys their declarations
attach to them.  Rows are never deleted.  A table whose updates a trigger always aborts has the
update guard `immutable`.  Foreign keys are checked by the statements that insert, since they
relate two tables.
-/

namespace Rhi

open Relational

/-- Update guard of the append-only tables. -/
def immutable {Row : Type} : Row → Row → Bool := fun _ _ => false

/-- A table whose insertions no trigger inspects. -/
def unguarded {Row : Type} : List Row → Row → Bool := fun _ _ => true

section Configuration

/-- The identity an applied configuration is bound to (`ConfigBinding`). -/
structure ConfigBinding where
  normalizedConfig : Digest
  evidencePolicy : EvidencePolicyDigest
  servicePublicKey : PublicKey
  configContractVersion : Nat
  stateContractVersion : Nat
  adminContractVersion : Nat
  statusContractVersion : Nat
  providerContractVersion : Nat
deriving DecidableEq, Repr

/-- A row of `rhi_config_bindings`. -/
structure ConfigBindingRow where
  generation : Nat
  binding : ConfigBinding
  appliedAt : Nat
deriving DecidableEq, Repr

/-- `RHI_CONFIG_BINDING_MAX_GENERATIONS`. -/
def configBindingMaxGenerations : Nat := 1024

/-- Rows are appended in generation order, at nondecreasing instants. -/
def configBindings : Schema ConfigBindingRow where
  check row := decide (1 ≤ row.generation ∧ row.generation ≤ configBindingMaxGenerations ∧
    row.appliedAt ≤ maxInteger)
  guardInsert stored row :=
    row.generation == (stored.map (·.generation)).foldl max 0 + 1 &&
      decide (stored.length < configBindingMaxGenerations) &&
      decide ((stored.map (·.appliedAt)).foldl max 0 ≤ row.appliedAt)
  guardUpdate := immutable
  clash left right := left.generation == right.generation

end Configuration

section Evidence

/-- Contract of a trade mutation; the source names them by their text identifiers. -/
inductive MutationKind where
  | proposal
  | decision
  | revisionProposal
  | revisionDecision
  | cancellation
deriving DecidableEq, Repr

/-- A row of `trade_mutations`. -/
structure MutationRow where
  mutationId : MutationId
  tradeId : TradeId
  contract : MutationKind
  schemaVersion : Nat
  eventKind : Nat
  authorPubkey : PublicKey
  canonicalContent : List UInt8
deriving DecidableEq, Repr

/-- The event kinds the evidence tables admit. -/
def eventKinds : List Nat := [3470, 3471, 3472, 3473, 3474]

def tradeMutations : Schema MutationRow where
  check row := decide (row.schemaVersion = 1 ∧ row.eventKind ∈ eventKinds ∧
    1 ≤ row.canonicalContent.length ∧ row.canonicalContent.length ≤ 131072)
  guardInsert := unguarded
  guardUpdate := immutable
  clash left right := left.mutationId == right.mutationId

/-- A row of `nostr_events`. -/
structure EventRow where
  eventId : EventId
  eventSignature : EventSignature
  mutationId : MutationId
  authorPubkey : PublicKey
  eventKind : Nat
  authoredAt : Nat
  canonicalEventJson : List UInt8
deriving DecidableEq, Repr

def nostrEvents : Schema EventRow where
  check row := decide (row.eventKind ∈ eventKinds ∧ row.authoredAt ≤ maxInteger ∧
    1 ≤ row.canonicalEventJson.length ∧ row.canonicalEventJson.length ≤ 524288)
  guardInsert := unguarded
  guardUpdate := immutable
  clash left right :=
    left.eventId == right.eventId && left.eventSignature == right.eventSignature

/-- A row of `relay_observations`. -/
structure ObservationRow where
  sourceId : SourceId
  evidencePolicy : EvidencePolicyDigest
  eventId : EventId
  eventSignature : EventSignature
  observedAt : Nat
deriving DecidableEq, Repr

/-- The primary key spans every column. -/
def relayObservations : Schema ObservationRow where
  check row := decide (1 ≤ row.observedAt ∧ row.observedAt ≤ maxInteger)
  guardInsert := unguarded
  guardUpdate := immutable
  clash left right := left == right

/-- A row of `relay_checkpoints`. -/
structure CheckpointRow where
  sourceId : SourceId
  evidencePolicy : EvidencePolicyDigest
  tradeId : TradeId
  cursor : SourceCursor
  revision : Nat
  completedAt : Nat
deriving DecidableEq, Repr

/-- Whether two checkpoints belong to one source scope. -/
def CheckpointRow.sameScope (left right : CheckpointRow) : Bool :=
  left.sourceId == right.sourceId && left.evidencePolicy == right.evidencePolicy &&
    left.tradeId == right.tradeId

/-- `relay_checkpoints_guard_update` lets only the cursor advance. -/
def relayCheckpoints : Schema CheckpointRow where
  check row := decide (row.cursor.createdAt ≤ maxInteger ∧ 1 ≤ row.revision ∧
    row.revision ≤ maxInteger ∧ 1 ≤ row.completedAt ∧ row.completedAt ≤ maxInteger)
  guardInsert := unguarded
  guardUpdate old new :=
    old.sameScope new && new.revision == old.revision + 1 &&
      decide (old.completedAt ≤ new.completedAt) && old.cursor.lt new.cursor
  clash := CheckpointRow.sameScope

/-- A row of `trade_dirty_generations`. -/
structure DirtyRow where
  tradeId : TradeId
  generation : Nat
  evidencePolicy : EvidencePolicyDigest
  updatedAt : Nat
deriving DecidableEq, Repr

def tradeDirtyGenerations : Schema DirtyRow where
  check row := decide (1 ≤ row.generation ∧ row.generation ≤ maxInteger ∧
    row.updatedAt ≤ maxInteger)
  guardInsert := unguarded
  guardUpdate old new :=
    new.tradeId == old.tradeId && new.generation == old.generation + 1 &&
      decide (old.updatedAt ≤ new.updatedAt)
  clash left right := left.tradeId == right.tradeId

end Evidence

section Jobs

/-- `RhiReconciliationJobState`. -/
inductive JobState where
  | ready
  | leased
  | exhausted
  | superseded
  | completed
deriving DecidableEq, Repr

/-- `state IN ('ready', 'leased')`. -/
def JobState.active : JobState → Bool
  | .ready | .leased => true
  | .exhausted | .superseded | .completed => false

/-- A row of `reconciliation_jobs`. -/
structure JobRow where
  jobId : JobId
  tradeId : TradeId
  inputGeneration : Nat
  evidencePolicy : EvidencePolicyDigest
  state : JobState
  revision : Nat
  attemptCount : Nat
  failureCount : Nat
  maxAttempts : Nat
  leaseDuration : Nat
  leaseRenewal : Nat
  initialBackoff : Nat
  maximumBackoff : Nat
  nextAttempt : Option Nat
  leaseOwner : Option (BitVec 128)
  leaseExpires : Option Nat
  createdAt : Nat
  updatedAt : Nat
deriving DecidableEq, Repr

namespace JobRow

/-- The last check of the table, read in three-valued logic: a null column makes it unknown. -/
def shapeCheck (row : JobRow) : Ternary :=
  Ternary.or
    (Ternary.and (some (row.state == .ready && decide (row.attemptCount < row.maxAttempts)))
      (Ternary.and (Ternary.test row.nextAttempt fun instant => decide (instant ≤ maxInteger))
        (some (row.leaseOwner.isNone && row.leaseExpires.isNone))))
    (Ternary.or
      (Ternary.and
        (some (row.state == .leased &&
          decide (1 ≤ row.attemptCount ∧ row.attemptCount ≤ row.maxAttempts) &&
          row.nextAttempt.isNone))
        (Ternary.and (Ternary.test row.leaseOwner fun _ => true)
          (Ternary.test row.leaseExpires fun instant =>
            decide (1 ≤ instant ∧ instant ≤ maxInteger))))
      (some (!row.state.active && row.nextAttempt.isNone && row.leaseOwner.isNone &&
        row.leaseExpires.isNone)))

/-- The condition on which `reconciliation_jobs_shape_guard_insert` and
`reconciliation_jobs_shape_guard_update` abort: the two triggers inspect the new row alone, so
that together they act as one more check of the row. -/
def shapeGuard (row : JobRow) : Ternary :=
  match row.state with
  | .ready =>
      Ternary.or (some (decide (row.maxAttempts ≤ row.attemptCount) || row.nextAttempt.isNone))
        (Ternary.or
          (Ternary.test row.nextAttempt fun instant => !decide (instant ≤ maxInteger))
          (some (row.leaseOwner.isSome || row.leaseExpires.isSome)))
  | .leased =>
      Ternary.or
        (some (!decide (1 ≤ row.attemptCount ∧ row.attemptCount ≤ row.maxAttempts) ||
          row.nextAttempt.isSome || row.leaseOwner.isNone))
        (Ternary.or (some row.leaseExpires.isNone)
          (Ternary.test row.leaseExpires fun instant =>
            !decide (1 ≤ instant ∧ instant ≤ maxInteger)))
  | .exhausted | .superseded | .completed =>
      some (row.nextAttempt.isSome || row.leaseOwner.isSome || row.leaseExpires.isSome)

/-- The remaining checks of the table. -/
def Bounded (row : JobRow) : Prop :=
  (1 ≤ row.inputGeneration ∧ row.inputGeneration ≤ maxInteger) ∧
  (1 ≤ row.revision ∧ row.revision ≤ maxInteger) ∧
  row.attemptCount ≤ 100 ∧ row.failureCount ≤ row.attemptCount ∧
  (1 ≤ row.maxAttempts ∧ row.maxAttempts ≤ 100) ∧
  (1000 ≤ row.leaseDuration ∧ row.leaseDuration ≤ 300000) ∧
  (100 ≤ row.leaseRenewal ∧ row.leaseRenewal ≤ 150000) ∧
  (1 ≤ row.initialBackoff ∧ row.initialBackoff ≤ 60000) ∧
  (1 ≤ row.maximumBackoff ∧ row.maximumBackoff ≤ 3600000) ∧
  row.createdAt ≤ maxInteger ∧
  (row.createdAt ≤ row.updatedAt ∧ row.updatedAt ≤ maxInteger) ∧
  row.leaseRenewal < row.leaseDuration ∧ row.initialBackoff ≤ row.maximumBackoff

instance (row : JobRow) : Decidable row.Bounded := by
  unfold Bounded
  infer_instance

/-- Equality of the columns `reconciliation_jobs_guard_update` freezes. -/
def SameIdentity (old new : JobRow) : Prop :=
  new.jobId = old.jobId ∧ new.tradeId = old.tradeId ∧
  new.inputGeneration = old.inputGeneration ∧ new.evidencePolicy = old.evidencePolicy ∧
  new.maxAttempts = old.maxAttempts ∧ new.leaseDuration = old.leaseDuration ∧
  new.leaseRenewal = old.leaseRenewal ∧ new.initialBackoff = old.initialBackoff ∧
  new.maximumBackoff = old.maximumBackoff ∧ new.createdAt = old.createdAt

instance (old new : JobRow) : Decidable (SameIdentity old new) := by
  unfold SameIdentity
  infer_instance

/-- The state changes `reconciliation_jobs_guard_update` lets through. -/
def transitionAllowed : JobState → JobState → Bool
  | .ready, .leased | .ready, .superseded => true
  | .leased, _ => true
  | .exhausted, .superseded => true
  | _, _ => false

end JobRow

/-- `reconciliation_jobs`, its one-active-per-trade index and its triggers. -/
def reconciliationJobs : Schema JobRow where
  check row := decide row.Bounded && row.shapeCheck.admits && !row.shapeGuard.fires
  guardInsert := unguarded
  guardUpdate old new :=
    decide (JobRow.SameIdentity old new) && new.revision == old.revision + 1 &&
      decide (old.updatedAt ≤ new.updatedAt) && JobRow.transitionAllowed old.state new.state
  clash left right :=
    left.jobId == right.jobId ||
      (left.state.active && right.state.active && left.tradeId == right.tradeId)

end Jobs

section Attempts

/-- A row of `evidence_reconciliations`. -/
structure AttemptRow where
  attemptId : AttemptId
  jobId : JobId
  tradeId : TradeId
  inputGeneration : Nat
  evidencePolicy : EvidencePolicyDigest
  attemptStarted : Nat
  deadline : Nat
  sourceCount : Nat
deriving DecidableEq, Repr

def evidenceReconciliations : Schema AttemptRow where
  check row := decide (1 ≤ row.inputGeneration ∧ row.inputGeneration ≤ maxInteger ∧
    row.attemptStarted + 1 ≤ row.deadline ∧ row.deadline ≤ maxInteger ∧
    1 ≤ row.sourceCount ∧ row.sourceCount ≤ 16)
  guardInsert := unguarded
  guardUpdate := immutable
  clash left right := left.attemptId == right.attemptId

/-- A row of `evidence_reconciliation_sources`. -/
structure AttemptSourceRow where
  attemptId : AttemptId
  requestId : Digest
  sourceOrdinal : Nat
  sourceId : SourceId
  tradeId : TradeId
  required : Bool
  selectorDigest : Digest
  replayId : Digest
  completion : SourceCompletion
  started : Nat
  finished : Nat
  acceptedEventCount : Nat
  acceptedEventBytes : Nat
  acceptedInventory : Digest
  duplicateObservationCount : Nat
  firstObserved : Option Nat
  priorCursor : Option SourceCursor
  overlapSeconds : Nat
  inclusiveSince : Nat
  candidateCursor : Option SourceCursor
  checkpointAdvanced : Bool
deriving DecidableEq, Repr

def evidenceReconciliationSources : Schema AttemptSourceRow where
  check row := decide (row.sourceOrdinal ≤ 15 ∧ row.started ≤ row.finished ∧
    row.finished ≤ maxInteger ∧ row.acceptedEventCount ≤ 4096 ∧
    row.acceptedEventBytes ≤ 8388608 ∧ row.duplicateObservationCount ≤ 4096 ∧
    (∀ instant ∈ row.firstObserved, instant ≤ maxInteger) ∧
    (∀ cursor ∈ row.priorCursor, cursor.createdAt ≤ maxInteger) ∧
    1 ≤ row.overlapSeconds ∧ row.overlapSeconds ≤ 86400 ∧ row.inclusiveSince ≤ maxInteger ∧
    (∀ cursor ∈ row.candidateCursor, cursor.createdAt ≤ maxInteger) ∧
    (row.acceptedEventCount = 0 ↔ row.acceptedEventBytes = 0) ∧
    (row.acceptedEventCount = 0 ↔ row.firstObserved = none) ∧
    (row.acceptedEventCount = 0 ↔ row.candidateCursor = none) ∧
    (row.checkpointAdvanced = true → row.completion = .complete) ∧
    (row.checkpointAdvanced = true → row.candidateCursor ≠ none))
  guardInsert := unguarded
  guardUpdate := immutable
  clash left right := left.attemptId == right.attemptId &&
    (left.requestId == right.requestId || left.sourceOrdinal == right.sourceOrdinal)

end Attempts

section Finalization

/-- A row of `evidence_manifests`. -/
structure ManifestRow where
  manifestDigest : Digest
  attemptId : AttemptId
  tradeId : TradeId
  tradeGeneration : Nat
  evidencePolicy : EvidencePolicyDigest
  canonicalManifest : List UInt8
  observedAt : Nat
  sourceCount : Nat
  observationCount : Nat
deriving DecidableEq, Repr

def evidenceManifests : Schema ManifestRow where
  check row := decide (1 ≤ row.tradeGeneration ∧ row.tradeGeneration ≤ maxInteger ∧
    1 ≤ row.canonicalManifest.length ∧ row.canonicalManifest.length ≤ 16777216 ∧
    row.observedAt ≤ maxInteger ∧ 1 ≤ row.sourceCount ∧ row.sourceCount ≤ 16 ∧
    row.observationCount ≤ 65536)
  guardInsert := unguarded
  guardUpdate := immutable
  clash left right :=
    left.manifestDigest == right.manifestDigest || left.attemptId == right.attemptId

/-- A row of `trade_projections`; its reducer contract columns are constant. -/
structure ProjectionRow where
  projectionDigest : Digest
  manifestDigest : Digest
  sharedProjectionDigest : Digest
  issueCount : Nat
deriving DecidableEq, Repr

def tradeProjections : Schema ProjectionRow where
  check row := decide (row.issueCount ≤ 65536)
  guardInsert := unguarded
  guardUpdate := immutable
  clash left right := left.projectionDigest == right.projectionDigest ||
    left.manifestDigest == right.manifestDigest

/-- `RadrootsTradeEvidenceOutcomeV1`. -/
inductive EvidenceOutcome where
  | valid
  | invalid
  | indeterminate
deriving DecidableEq, Repr

/-- A row of `attestation_reports`. -/
structure ReportRow where
  statementDigest : Digest
  manifestDigest : Digest
  projectionDigest : Digest
  tradeId : TradeId
  claimMutationId : MutationId
  issuerPublicKey : PublicKey
  outcome : EvidenceOutcome
  canonicalReport : List UInt8
  observedAt : Nat
  supersedes : Option (Digest × EventId)
deriving DecidableEq, Repr

/-- One statement has at most one successor. -/
def attestationReports : Schema ReportRow where
  check row := decide (1 ≤ row.canonicalReport.length ∧ row.canonicalReport.length ≤ 16384 ∧
    row.observedAt ≤ maxInteger)
  guardInsert := unguarded
  guardUpdate := immutable
  clash left right := left.statementDigest == right.statementDigest ||
    (left.supersedes.isSome && left.supersedes.map (·.1) == right.supersedes.map (·.1))

/-- A row of `signed_attestation_events`. -/
structure SignedEventRow where
  eventId : EventId
  statementDigest : Digest
  eventDigest : Digest
  issuerPublicKey : PublicKey
  authoredAt : Nat
  canonicalEventJson : List UInt8
deriving DecidableEq, Repr

def signedAttestationEvents : Schema SignedEventRow where
  check row := decide (row.authoredAt ≤ maxInteger ∧ 1 ≤ row.canonicalEventJson.length ∧
    row.canonicalEventJson.length ≤ 32768)
  guardInsert := unguarded
  guardUpdate := immutable
  clash left right := left.eventId == right.eventId ||
    left.statementDigest == right.statementDigest || left.eventDigest == right.eventDigest

inductive OutboxState where
  | pending
  | leased
  | complete
  | blocked
deriving DecidableEq, Repr

/-- A row of `publication_outbox`. -/
structure OutboxRow where
  outboxId : Digest
  eventId : EventId
  eventDigest : Digest
  publicationAuthority : Digest
  targetSet : Digest
  targetCount : Nat
  requiredTargetCount : Nat
  maxAttempts : Nat
  initialBackoff : Nat
  maximumBackoff : Nat
  attemptDeadline : Nat
  state : OutboxState
  revision : Nat
  nextAttempt : Option Nat
  leaseOwner : Option (BitVec 128)
  leaseExpires : Option Nat
  createdAt : Nat
  updatedAt : Nat
deriving DecidableEq, Repr

/-- The columns `publication_outbox_guard_update` freezes. -/
def OutboxRow.SameIdentity (old new : OutboxRow) : Prop :=
  new.outboxId = old.outboxId ∧ new.eventId = old.eventId ∧
  new.eventDigest = old.eventDigest ∧ new.publicationAuthority = old.publicationAuthority ∧
  new.targetSet = old.targetSet ∧ new.targetCount = old.targetCount ∧
  new.requiredTargetCount = old.requiredTargetCount ∧ new.maxAttempts = old.maxAttempts ∧
  new.initialBackoff = old.initialBackoff ∧ new.maximumBackoff = old.maximumBackoff ∧
  new.attemptDeadline = old.attemptDeadline ∧ new.createdAt = old.createdAt

instance (old new : OutboxRow) : Decidable (OutboxRow.SameIdentity old new) := by
  unfold OutboxRow.SameIdentity
  infer_instance

/-- The state shape the checks of the outbox prescribe; no column of it can be unknown. -/
def OutboxRow.shaped (row : OutboxRow) : Bool :=
  match row.state with
  | .pending => row.nextAttempt.any (fun instant => decide (instant ≤ maxInteger)) &&
      row.leaseOwner.isNone && row.leaseExpires.isNone
  | .leased => row.nextAttempt.isNone && row.leaseOwner.isSome &&
      row.leaseExpires.any fun instant => decide (1 ≤ instant ∧ instant ≤ maxInteger)
  | .complete | .blocked =>
      row.nextAttempt.isNone && row.leaseOwner.isNone && row.leaseExpires.isNone

def OutboxRow.transitionAllowed : OutboxState → OutboxState → Bool
  | .pending, .leased | .pending, .blocked => true
  | .leased, _ => true
  | .blocked, .pending => true
  | _, _ => false

def publicationOutbox : Schema OutboxRow where
  check row := decide (1 ≤ row.targetCount ∧ row.targetCount ≤ 32 ∧
    row.requiredTargetCount ≤ row.targetCount ∧ 1 ≤ row.maxAttempts ∧ row.maxAttempts ≤ 100 ∧
    1 ≤ row.initialBackoff ∧ row.initialBackoff ≤ 60000 ∧ 1 ≤ row.maximumBackoff ∧
    row.maximumBackoff ≤ 3600000 ∧ 100 ≤ row.attemptDeadline ∧ row.attemptDeadline ≤ 30000 ∧
    1 ≤ row.revision ∧ row.revision ≤ maxInteger ∧ row.createdAt ≤ row.updatedAt ∧
    row.updatedAt ≤ maxInteger ∧ row.initialBackoff ≤ row.maximumBackoff) && row.shaped
  guardInsert := unguarded
  guardUpdate old new :=
    decide (OutboxRow.SameIdentity old new) && new.revision == old.revision + 1 &&
      decide (old.updatedAt ≤ new.updatedAt) && OutboxRow.transitionAllowed old.state new.state
  clash left right := left.outboxId == right.outboxId || left.eventId == right.eventId

inductive TargetState where
  | pending
  | submitted
  | accepted
  | rejected
  | rateLimited
  | authRequired
  | failed
  | unknown
deriving DecidableEq, Repr

/-- A row of `publication_targets`. -/
structure TargetRow where
  outboxId : Digest
  targetOrdinal : Nat
  relayId : SourceId
  required : Bool
  state : TargetState
  revision : Nat
  attemptCount : Nat
  nextAttempt : Option Nat
  lastAttemptId : Option Digest
  updatedAt : Nat
deriving DecidableEq, Repr

def publicationTargets : Schema TargetRow where
  check row := decide (row.targetOrdinal ≤ 31 ∧ 1 ≤ row.revision ∧ row.revision ≤ maxInteger ∧
    row.attemptCount ≤ 100 ∧ (∀ instant ∈ row.nextAttempt, instant ≤ maxInteger) ∧
    row.updatedAt ≤ maxInteger ∧ (row.attemptCount = 0 ↔ row.lastAttemptId = none))
  guardInsert := unguarded
  guardUpdate old new :=
    decide (new.outboxId = old.outboxId ∧ new.targetOrdinal = old.targetOrdinal ∧
      new.relayId = old.relayId ∧ new.required = old.required ∧
      new.revision = old.revision + 1 ∧ old.attemptCount ≤ new.attemptCount ∧
      new.attemptCount ≤ old.attemptCount + 1 ∧ old.updatedAt ≤ new.updatedAt) &&
      old.state != .accepted
  clash left right := left.outboxId == right.outboxId &&
    (left.targetOrdinal == right.targetOrdinal || left.relayId == right.relayId)

/-- `RhiPublicationAttemptOutcome`. -/
inductive AttemptOutcome where
  | submitted
  | accepted
  | rejected
  | rateLimited
  | authRequired
  | failed
  | unknown
deriving DecidableEq, Repr

/-- A row of `publication_attempts`; its result code is the one of its outcome. -/
structure DeliveryRow where
  attemptId : Digest
  outboxId : Digest
  targetOrdinal : Nat
  attemptNumber : Nat
  eventDigest : Digest
  leaseOwner : BitVec 128
  started : Nat
  finished : Nat
  outcome : AttemptOutcome
deriving DecidableEq, Repr

def publicationAttempts : Schema DeliveryRow where
  check row := decide (row.targetOrdinal ≤ 31 ∧ 1 ≤ row.attemptNumber ∧
    row.attemptNumber ≤ 100 ∧ row.started ≤ row.finished ∧ row.finished ≤ maxInteger)
  guardInsert := unguarded
  guardUpdate := immutable
  clash left right := left.attemptId == right.attemptId ||
    (left.outboxId == right.outboxId && left.targetOrdinal == right.targetOrdinal &&
      left.attemptNumber == right.attemptNumber)

end Finalization

/-- The durable store. -/
structure Store where
  configBindings : Table configBindings
  mutations : Table tradeMutations
  events : Table nostrEvents
  observations : Table relayObservations
  checkpoints : Table relayCheckpoints
  dirty : Table tradeDirtyGenerations
  jobs : Table reconciliationJobs
  attempts : Table evidenceReconciliations
  attemptSources : Table evidenceReconciliationSources
  manifests : Table evidenceManifests
  projections : Table tradeProjections
  reports : Table attestationReports
  signedEvents : Table signedAttestationEvents
  outbox : Table publicationOutbox
  targets : Table publicationTargets
  deliveries : Table publicationAttempts
deriving DecidableEq

/-- The store of a freshly migrated database. -/
def Store.initial : Store where
  configBindings := .empty
  mutations := .empty
  events := .empty
  observations := .empty
  checkpoints := .empty
  dirty := .empty
  jobs := .empty
  attempts := .empty
  attemptSources := .empty
  manifests := .empty
  projections := .empty
  reports := .empty
  signedEvents := .empty
  outbox := .empty
  targets := .empty
  deliveries := .empty

end Rhi
