import Rhi.Manifest

/-!
# Commit of an attempt

One transaction makes the inventory of an attempt durable: the attempt, the evidence it found, one
result per source, the checkpoints it may move and, when the evidence is new, the next dirty
generation.  A retry of a committed attempt is recognised by comparing every column.
-/

namespace Rhi

open Relational Transactional

/-- `CommitOperationError`. -/
inductive CommitOperationError where
  | leaseLost
  | generationConflict
  | conflict
  | storage
deriving DecidableEq, Repr

/-- `RhiReconciliationCommitErrorKind`. -/
inductive CommitErrorKind where
  | invalidMode
  | invalidInput
  | leaseLost
  | generationConflict
  | conflict
  | storage
  | commitOutcomeUnknown
deriving DecidableEq, Repr

/-- `map_transaction_error` of the attempt commit. -/
def mapCommitError : Failure CommitOperationError → CommitErrorKind
  | .outcomeUnknown => .commitOutcomeUnknown
  | .operation .leaseLost => .leaseLost
  | .operation .generationConflict => .generationConflict
  | .operation .conflict => .conflict
  | .operation .storage | .aborted => .storage

/-- `map_persistence_error`. -/
def mapPersistenceError : PersistenceOperationError → CommitOperationError
  | .mutationConflict | .signedEventConflict => .conflict
  | .storage => .storage

/-- `map_source_error`. -/
def mapSourceError : SourceOperationError → CommitOperationError
  | .generationConflict => .generationConflict
  | .persistence error => mapPersistenceError error
  | .storage => .storage

/-- A cursor the commit made durable, with its scope. -/
structure CommittedCursor where
  sourceId : SourceId
  tradeId : TradeId
  policyDigest : EvidencePolicyDigest
  selectorDigest : Digest
  cursor : SourceCursor
deriving DecidableEq, Repr

/-- `RawCommitOutcome`. -/
structure RawCommitOutcome where
  created : Bool
  sourceResultCount : Nat
  dirtyGenerationAdvanced : Bool
  cursorScopes : List CommittedCursor
deriving DecidableEq, Repr

/-- `RhiReconciliationSourceCommitOutcome`. -/
structure SourceCommitOutcome where
  created : Bool
  sourceResultCount : Nat
  checkpointAdvanceCount : Nat
  dirtyGenerationAdvanced : Bool
  committedCursors : List CommittedCursor
  manifestMaterial : ManifestMaterial
deriving DecidableEq, Repr

/-- A replay sealed by `finish`: every fact belongs to the trade the replay was planned for. -/
structure SealedReplay where
  replay : SourceReplay
  same_trade : ∀ fact ∈ replay.facts, fact.record.tradeId = replay.plan.tradeId
deriving DecidableEq

section Rows

/-- The row of an attempt; the trade is the one of its first request. -/
def AttemptPlan.row (plan : AttemptPlan) : Option AttemptRow :=
  plan.requests.head?.map fun request => {
    attemptId := plan.id
    jobId := plan.jobId
    tradeId := request.tradeId
    inputGeneration := plan.inputGeneration
    evidencePolicy := plan.policyDigest
    attemptStarted := plan.attemptStartedAt
    deadline := plan.deadline
    sourceCount := plan.requests.length }

/-- Whether the numbers of a row fit the columns they are bound to. -/
def AttemptRow.representable (row : AttemptRow) : Bool :=
  decide (row.inputGeneration ≤ maxInteger ∧ row.attemptStarted ≤ maxInteger ∧
    row.deadline ≤ maxInteger)

def AttemptSourceRow.representable (row : AttemptSourceRow) : Bool :=
  decide (row.started ≤ maxInteger ∧ row.finished ≤ maxInteger ∧
    row.acceptedEventBytes ≤ maxInteger ∧
    (∀ cursor ∈ row.priorCursor, cursor.createdAt ≤ maxInteger) ∧
    row.overlapSeconds ≤ maxInteger ∧ row.inclusiveSince ≤ maxInteger ∧
    ∀ cursor ∈ row.candidateCursor, cursor.createdAt ≤ maxInteger)

variable [Sha256]

/-- The row of one source result. -/
def SourceReplay.row (replay : SourceReplay) (attempt : AttemptId) (ordinal : Nat) :
    AttemptSourceRow where
  attemptId := attempt
  requestId := replay.plan.requestId
  sourceOrdinal := ordinal
  sourceId := replay.plan.sourceId
  tradeId := replay.plan.tradeId
  required := replay.plan.required
  selectorDigest := replay.plan.selectorDigest
  replayId := replay.plan.id
  completion := replay.result.outcome
  started := replay.result.startedAt
  finished := replay.result.finishedAt
  acceptedEventCount := replay.result.acceptedEventCount
  acceptedEventBytes := replay.result.acceptedEventBytes
  acceptedInventory := acceptedInventoryDigest replay.facts
  duplicateObservationCount := replay.duplicateObservations
  firstObserved := replay.firstObservedAt.map (·.get)
  priorCursor := replay.plan.priorCursor
  overlapSeconds := replay.plan.overlapSeconds
  inclusiveSince := replay.plan.since
  candidateCursor := replay.cursorCandidate
  checkpointAdvanced := replay.eligibleCursor.isSome

end Rows

section Operations

/-- The checkpoints an attempt resumed from, which must not have moved. -/
def readCheckpoints (plan : AttemptPlan) (store : Store) :
    List SourceReplay → Except CommitOperationError (List (Option CheckpointRow))
  | [] => .ok []
  | replay :: rest => do
      let checkpoint :=
        readCheckpoint store replay.plan.sourceId plan.policyDigest replay.plan.tradeId
      require (checkpoint.map (·.cursor) == replay.plan.priorCursor) .generationConflict
      let checkpoints ← readCheckpoints plan store rest
      pure (checkpoint :: checkpoints)

variable [Sha256]

/-- `validate_exact_lease`. -/
def validateExactLease {Error : Type} (lost storage : Error) (lease : Lease) (store : Store) :
    Except Error Unit := do
  let current ← (readJob store lease.job.id).mapError fun _ => storage
  require (current == some lease.job && lease.job.state == .leased &&
    lease.job.leaseExpires == some lease.leaseExpires) lost

/-- The checkpoint a source moved must not lie before the cursor it moved to. -/
def checkpointReached (plan : AttemptPlan) (replay : SourceReplay) (store : Store) : Bool :=
  replay.eligibleCursor.all fun candidate =>
    (readCheckpoint store replay.plan.sourceId plan.policyDigest replay.plan.tradeId).any
      fun checkpoint => !checkpoint.cursor.lt candidate

/-- `match_source_result` and the checkpoint comparison of `reconcile_existing`, for the sources
from an ordinal on. -/
def matchSourceResults (plan : AttemptPlan) (store : Store) :
    List SourceReplay → Nat → Except CommitOperationError Unit
  | [], _ => .ok ()
  | replay :: rest, ordinal => do
      require (replay.row plan.id ordinal).representable .storage
      require (store.attemptSources.rows.count (replay.row plan.id ordinal) == 1) .conflict
      require (checkpointReached plan replay store) .conflict
      matchSourceResults plan store rest (ordinal + 1)

/-- `reconcile_existing`. -/
def reconcileAttempt (plan : AttemptPlan) (replays : List SourceReplay) (store : Store) :
    Except CommitOperationError Bool :=
  if store.attempts.rows.countP (fun row => row.attemptId == plan.id) = 0 then
    .ok false
  else do
    let row ← orError plan.row .storage
    require row.representable .storage
    require (store.attempts.rows.count row == 1) .conflict
    require (store.attemptSources.rows.countP (fun row => row.attemptId == plan.id) ==
      replays.length) .conflict
    matchSourceResults plan store replays 0
    pure true

/-- `insert_attempt`, with the foreign key to the jobs. -/
def insertAttempt (plan : AttemptPlan) (store : Store) : Except CommitOperationError Store := do
  let row ← orError plan.row .storage
  require (store.jobs.rows.any fun job => job.jobId == row.jobId) .storage
  let attempts ← orError (store.attempts.insert row) .storage
  pure { store with attempts }

/-- The facts of an attempt with their observations, in the order they are persisted. -/
def replayRecords (policy : EvidencePolicyDigest) (replays : List SourceReplay) :
    List (PersistenceRecord × ObservationRow) :=
  replays.flatMap fun replay => replay.facts.map fun fact =>
    (fact.record, fact.record.observation replay.plan.sourceId policy fact.observedAt)

/-- The instant new evidence of an attempt is stamped with. -/
def latestFinishedSeconds (replays : List SourceReplay) : Nat :=
  (replays.map fun replay => replay.result.finishedAt / 1000).foldl max 0

/-- `insert_source_result`, with the foreign key to the attempts. -/
def insertSourceResult (attempt : AttemptId) (ordinal : Nat) (replay : SourceReplay)
    (store : Store) : Except CommitOperationError Store := do
  require (store.attempts.rows.any fun row => row.attemptId == attempt) .storage
  let attemptSources ←
    orError (store.attemptSources.insert (replay.row attempt ordinal)) .storage
  pure { store with attemptSources }

/-- The checkpoint of a source moves to its eligible cursor. -/
def moveCheckpoint (plan : AttemptPlan) (replay : SourceReplay)
    (checkpoint : Option CheckpointRow) (store : Store) : Except CommitOperationError Store :=
  match replay.eligibleCursor with
  | none => .ok store
  | some candidate =>
      (writeCheckpoint replay.plan.sourceId plan.policyDigest replay.plan.tradeId checkpoint
        candidate (replay.result.finishedAt / 1000) store).mapError mapSourceError

/-- The last loop of `commit`: the checkpoint of a source moves, then its result is inserted. -/
def commitSources (plan : AttemptPlan) : List (SourceReplay × Option CheckpointRow) → Nat →
    Store → Except CommitOperationError Store
  | [], _, store => .ok store
  | (replay, checkpoint) :: rest, ordinal, store => do
      let store ← moveCheckpoint plan replay checkpoint store
      let store ← insertSourceResult plan.id ordinal replay store
      commitSources plan rest (ordinal + 1) store

/-- `raw_outcome`. -/
def rawOutcome (created advanced : Bool) (replays : List SourceReplay) : RawCommitOutcome where
  created
  sourceResultCount := replays.length
  dirtyGenerationAdvanced := advanced
  cursorScopes := replays.filterMap fun replay => replay.eligibleCursor.map fun cursor => {
    sourceId := replay.plan.sourceId
    tradeId := replay.plan.tradeId
    policyDigest := replay.plan.policyDigest
    selectorDigest := replay.plan.selectorDigest
    cursor }

/-- The part of `commit` that follows when the attempt is not durable yet. -/
def createAttempt (lease : Lease) (plan : AttemptPlan) (replays : List SourceReplay)
    (store : Store) : Except CommitOperationError (RawCommitOutcome × Store) := do
  validateExactLease .leaseLost .storage lease store
  let dirty ← orError ((readDirty store lease.job.tradeId).filter fun row =>
    row.generation == plan.inputGeneration && row.evidencePolicy == plan.policyDigest)
    .generationConflict
  let checkpoints ← readCheckpoints plan store replays
  let store ← insertAttempt plan store
  let (inserted, store) ←
    (persistAll (replayRecords plan.policyDigest replays) .zero store).mapError mapPersistenceError
  let (_, store) ← (markDirty inserted.relevant lease.job.tradeId plan.policyDigest
    (latestFinishedSeconds replays) (some dirty) store).mapError mapSourceError
  let store ← commitSources plan (replays.zip checkpoints) 0 store
  pure (rawOutcome true inserted.relevant replays, store)

/-- `commit` of an attempt. -/
def commitAttempt (lease : Lease) (plan : AttemptPlan) (replays : List SourceReplay)
    (store : Store) : Except CommitOperationError (RawCommitOutcome × Store) := do
  let existing ← reconcileAttempt plan replays store
  if existing then
    pure (rawOutcome false false replays, store)
  else
    createAttempt lease plan replays store

/-- What `commit_source_replays` asks of a replay and the request it answers. -/
def replayMatches (lease : Lease) (plan : AttemptPlan) (replay : SourceReplay)
    (request : SourceRequest) : Bool :=
  replay.plan.requestId == request.id && replay.result.requestId == request.id &&
    replay.plan.sourceId == request.sourceId && replay.plan.tradeId == request.tradeId &&
    replay.plan.required == request.required && replay.plan.tradeId == lease.job.tradeId &&
    replay.plan.policyDigest == plan.policyDigest &&
    replay.plan.selectorDigest == request.selectorDigest &&
    decide (replay.result.finishedAt < lease.leaseExpires.get) &&
    replay.facts.length == replay.result.acceptedEventCount &&
    !(replay.eligibleCursor.isSome && replay.result.finishedAt / 1000 == 0)

/-- The checks of `commit_source_replays` before its transaction. -/
def admitsReplays (lease : Lease) (plan : AttemptPlan) (replays : List SourceReplay) : Bool :=
  replays.length == plan.requests.length && plan.jobId == lease.job.id &&
    plan.inputGeneration == lease.job.inputGeneration &&
    plan.policyDigest == lease.job.policyDigest &&
    decide (plan.deadline ≤ lease.leaseExpires.get) &&
    (replays.zip plan.requests).all fun pair => replayMatches lease plan pair.1 pair.2

variable [TradeEvidence]

/-- `commit_source_replays`. -/
def commitSourceReplays (mode : HostMode) (disposition : Disposition) (lease : Lease)
    (plan : AttemptPlan) (sealed : List SealedReplay) (store : Store) :
    Except CommitErrorKind SourceCommitOutcome × Store :=
  let replays := sealed.map (·.replay)
  if mode ≠ .readWriteExisting then
    (.error .invalidMode, store)
  else if admitsReplays lease plan replays then
    match committedManifestMaterial plan replays with
    | none => (.error .invalidInput, store)
    | some material =>
        let (result, store) :=
          transaction mapCommitError disposition (commitAttempt lease plan replays) store
        (result.map fun raw => {
          created := raw.created
          sourceResultCount := raw.sourceResultCount
          checkpointAdvanceCount := raw.cursorScopes.length
          dirtyGenerationAdvanced := raw.dirtyGenerationAdvanced
          committedCursors := raw.cursorScopes
          manifestMaterial := material }, store)
  else
    (.error .invalidInput, store)

end Operations

end Rhi
