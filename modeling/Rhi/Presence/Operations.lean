import Rhi.Presence

/-!
# Presence operations

The bodies of the presence transactions and the operations of the repository and of the operator.
-/

namespace Rhi

open Relational Transactional

namespace Presence

section Committing

variable [Sha256] [PresenceEvents]

/-- `validate_document_set`. -/
def validateDocumentSet (documents : SignedDocuments) (desired : DesiredRow) :
    Except PresenceOperationError Unit := do
  require (documents.desiredState == desired &&
    documents.targets.length == desired.targetCount &&
    documents.documents.length == desired.documentKinds.length &&
    targetSetDigest presenceTargetSet documents.targets == desired.targetSet &&
    PresenceEvents.validPublicKey documents.servicePublicKey) .desiredStateMismatch
  require ((documents.documents.zip desired.documentKinds).all fun (document, kind) =>
    document.kind == kind && !document.signedEvent.isEmpty &&
      decide (document.signedEvent.length ≤ presenceMaxBytes) &&
      Sha256.digest document.signedEvent == document.eventDigest &&
      validateSignedDocument document.kind documents.servicePublicKey document.createdAt
        document.signedEvent == some document.eventId) .verificationFailed

omit [PresenceEvents] in
/-- The comparison of one document with its outbox. -/
def documentMatches (documents : SignedDocuments) (document : SignedDocument)
    (outbox : PresenceRecord) : Bool :=
  outbox.row.generation == documents.desiredState.generation &&
    outbox.row.desired == documents.desiredState.desired &&
    outbox.row.targetSet == documents.desiredState.targetSet &&
    outbox.row.targetCount == documents.desiredState.targetCount &&
    outbox.row.requiredTargetCount == documents.desiredState.requiredTargetCount &&
    outbox.row.outboxId == deriveOutboxId outbox.row.generation document.kind outbox.row.desired
      document.eventDigest &&
    document.kind == outbox.row.kind && document.eventId == outbox.row.eventId &&
    document.eventDigest == outbox.row.eventDigest &&
    document.signedEvent == outbox.row.signedEvent &&
    document.createdAt == outbox.row.authoredAt &&
    documents.servicePublicKey == outbox.row.servicePublicKey &&
    (documents.targets.zip outbox.targets).all fun (expected, actual) => expected == actual.target

omit [PresenceEvents] in
/-- The loop of `generation_matches`. -/
def documentsMatch (documents : SignedDocuments) :
    List (SignedDocument × PresenceRecord) → Except PresenceOperationError Bool
  | [] => .ok true
  | (document, outbox) :: rest =>
      if documentMatches documents document outbox then do
        validateTargets outbox.row outbox.targets
        documentsMatch documents rest
      else
        .ok false

omit [PresenceEvents] in
/-- `generation_matches`. -/
def generationMatches (documents : SignedDocuments) (current : List PresenceRecord) :
    Except PresenceOperationError Bool :=
  if documents.documents.length ≠ current.length then
    .ok false
  else
    documentsMatch documents (documents.documents.zip current)

omit [PresenceEvents] in
/-- The row `INSERT_OUTBOX_SQL` writes for a document. -/
def outboxRow (documents : SignedDocuments) (desired : DesiredRow) (committedAt : Nat)
    (document : SignedDocument) : PresenceRow where
  outboxId := deriveOutboxId desired.generation document.kind desired.desired document.eventDigest
  generation := desired.generation
  kind := document.kind
  desired := desired.desired
  targetSet := desired.targetSet
  eventId := document.eventId
  eventDigest := document.eventDigest
  signedEvent := document.signedEvent
  authoredAt := document.createdAt
  servicePublicKey := documents.servicePublicKey
  targetCount := desired.targetCount
  requiredTargetCount := desired.requiredTargetCount
  state := .pending
  revision := 1
  nextAttempt := some committedAt
  leaseOwner := none
  leaseExpires := none
  createdAt := committedAt
  updatedAt := committedAt

omit [Sha256] [PresenceEvents] in
/-- The row `INSERT_TARGET_SQL` writes for a target. -/
def targetRow (outbox : Digest) (committedAt : Nat) (target : PublicationTarget) : TargetRow where
  outboxId := outbox
  targetOrdinal := target.ordinal
  relayId := target.relayId
  required := target.required
  state := .pending
  revision := 1
  attemptCount := 0
  nextAttempt := some committedAt
  lastAttemptId := none
  updatedAt := committedAt

omit [Sha256] [PresenceEvents] in
/-- The insertion of the targets of one outbox. -/
def insertTargets (outbox : Digest) (committedAt : Nat) :
    List PublicationTarget → Table presenceTargets → Option (Table presenceTargets)
  | [], targets => some targets
  | target :: rest, targets => do
      let targets ← targets.insert (targetRow outbox committedAt target)
      insertTargets outbox committedAt rest targets

omit [PresenceEvents] in
/-- The insertion of the outboxes of a generation. -/
def insertDocuments (documents : SignedDocuments) (desired : DesiredRow) (committedAt : Nat) :
    List SignedDocument → PresenceStore → Option PresenceStore
  | [], store => some store
  | document :: rest, store => do
      let row := outboxRow documents desired committedAt document
      let outbox ← store.outbox.insert row
      let targets ← insertTargets row.outboxId committedAt documents.targets store.targets
      insertDocuments documents desired committedAt rest { store with outbox, targets }

/-- `commit_signed`. -/
def commitSigned (documents : SignedDocuments) (committedAt : UnixMilliseconds)
    (store : PresenceStore) : Except PresenceOperationError (PresenceCommit × PresenceStore) := do
  let desired ← readDesiredBinding store
  validateDocumentSet documents desired
  let current ← readGenerationOutboxes desired.generation store
  let same ← if current.isEmpty then pure false else generationMatches documents current
  if same then
    pure (⟨documents.desiredState, documents.documents.length, false⟩, store)
  else do
    require current.isEmpty .invariant
    require (!documents.desiredState.enabled || documents.documents.all fun document =>
      !store.outbox.rows.any fun row => row.kind == document.kind &&
        decide (document.createdAt ≤ row.authoredAt)) .invalidInput
    require (!store.outbox.rows.any fun row => row.generation != desired.generation &&
      row.state == .leased) .notReady
    let (outbox, superseded) ←
      orError (store.outbox.update (supersedeOutbox desired.generation committedAt.get)) .storage
    let store ← orError (insertDocuments documents desired committedAt.get documents.documents
      { store with outbox }) .storage
    let committed ← readGenerationOutboxes desired.generation store
    let same ← generationMatches documents committed
    require same .invariant
    pure (⟨documents.desiredState, documents.documents.length,
      !documents.documents.isEmpty || superseded != 0⟩, store)

end Committing

section Delivering

variable [Sha256] [PresenceEvents]

/-- `claim_next`. -/
def claimNext (owner : LeaseOwner) (now : UnixMilliseconds) (store : PresenceStore) :
    Except PresenceOperationError (Option PresenceLease × PresenceStore) :=
  match readClaimable now.get store with
  | none => .ok (none, store)
  | some row => do
      let current ← readOutbox row.outboxId store
      let outbox ← orError current .invariant
      validateCurrentDesired outbox.row store
      validateTargets outbox.row outbox.targets
      let expires := now.get + presenceAttemptDeadline
      require (decide (expires ≤ maxInteger)) .invalidInput
      let (rows, affected) ← orError (store.outbox.update
        (claimOutbox owner expires now.get outbox.row.outboxId outbox.row.revision)) .storage
      require (affected == 1) .leaseLost
      let store := { store with outbox := rows }
      let current ← readOutbox row.outboxId store
      let leased ← orError current .invariant
      require (leased.row.state == .leased && leased.row.leaseOwner == some owner.bytes &&
        leased.row.leaseExpires == some expires) .invariant
      pure (some ⟨leased, owner, expires⟩, store)

/-- `prepare_next`.  The candidate is found among the targets of the lease. -/
def prepareNext (lease : PresenceLease) (startedAt : UnixMilliseconds) (store : PresenceStore) :
    Except PresenceOperationError (PreparedPresence × PresenceStore) := do
  validateLease lease startedAt.get store
  let row := lease.outbox.row
  let candidate ← orError (lease.outbox.targets.find? fun target =>
    target.isDue presenceMaxAttempts startedAt.get) .notReady
  let attemptNumber := candidate.attemptCount + 1
  require (decide (attemptNumber ≤ presenceMaxAttempts)) .invariant
  let attemptId :=
    deriveAttemptId row.outboxId row.eventDigest candidate.targetOrdinal attemptNumber
  let (targets, affected) ← orError (store.targets.update (prepareTarget attemptId startedAt.get
    row.outboxId candidate.targetOrdinal candidate.revision presenceMaxAttempts)) .storage
  require (affected == 1) .leaseLost
  let store := { store with targets }
  let current ← readOutbox row.outboxId store
  let outbox ← orError current .invariant
  require (decide (PresenceRow.SameIdentity row outbox.row)) .leaseLost
  let target ← orError (outbox.targets.find? fun target =>
    target.targetOrdinal == candidate.targetOrdinal) .invariant
  require (target.state == .submitted && target.attemptCount == attemptNumber &&
    target.lastAttemptId == some attemptId && target.updatedAt == startedAt.get) .invariant
  require (validateSignedDocument row.kind row.servicePublicKey row.authoredAt
    row.signedEvent).isSome .invariant
  pure (⟨lease, target, attemptId, startedAt.get, row.signedEvent⟩, store)

/-- `reconcile_recorded`. -/
def reconcileRecorded (input : PresenceInput) (existing : DeliveryRow) (store : PresenceStore) :
    Except PresenceOperationError PresenceAttemptCommit := do
  require (existing == input.row) .invariant
  let current ← readOutbox input.outboxId store
  let outbox ← orError current .invariant
  require (outbox.row.revision == input.outboxRevision + 1 &&
    outbox.row.updatedAt == input.finishedAt && outbox.row.leaseOwner.isNone &&
    outbox.row.leaseExpires.isNone && outbox.row.eventDigest == input.eventDigest) .invariant
  validateTargets outbox.row outbox.targets
  let (state, next) ← outcomeOf input
  let target ← orError (outbox.targets.find? fun target =>
    target.targetOrdinal == input.targetOrdinal) .invariant
  require (target.revision == input.targetRevision + 1 &&
    target.attemptCount == input.attemptNumber &&
    target.lastAttemptId == some input.attemptId && target.state == state &&
    target.nextAttempt == next && target.updatedAt == input.finishedAt) .invariant
  let verdict ← disposition outbox.row outbox.targets
  require (outbox.row.state == verdict.presenceState.1 &&
    outbox.row.nextAttempt == verdict.presenceState.2) .invariant
  pure ⟨outbox.row.outboxId, input.attemptId, input.targetOrdinal, input.attemptNumber,
    input.outcome, target.state, outbox.row.state⟩

omit [Sha256] [PresenceEvents] in
/-- The attempt and the outcome of a target, as both an executor and a recovery write them. -/
def writeOutcome (input : PresenceInput) (store : PresenceStore) :
    Except PresenceOperationError (TargetState × PresenceStore) := do
  let store ← insertAttempt input store
  let (state, next) ← outcomeOf input
  let (targets, affected) ← orError (store.targets.update (recordTarget state next input)) .storage
  require (affected == 1) .leaseLost
  pure (state, { store with targets })

omit [Sha256] [PresenceEvents] in
/-- The end of a lease. -/
def release (expired : Bool) (state : PresenceState) (next : Option Nat) (now : Nat) (id : Digest)
    (revision : Nat) (owner : BitVec 128) (expires : Nat) (store : PresenceStore) :
    Except PresenceOperationError PresenceStore := do
  let (outbox, affected) ← orError (store.outbox.update
    (releaseOutbox expired state next now id revision owner expires)) .storage
  require (affected == 1) .leaseLost
  pure { store with outbox }

/-- `record_outcome`. -/
def recordOutcome (input : PresenceInput) (store : PresenceStore) :
    Except PresenceOperationError (PresenceAttemptCommit × PresenceStore) :=
  match store.attempts.rows.find? fun row => row.attemptId == input.attemptId with
  | some existing => do
      let commit ← reconcileRecorded input existing store
      pure (commit, store)
  | none => do
      validateInputLease input store
      let current ← readOutbox input.outboxId store
      let outbox ← orError current .invariant
      let target ← orError (outbox.targets.find? fun target =>
        target.targetOrdinal == input.targetOrdinal) .invariant
      require (target.state == .submitted && target.revision == input.targetRevision &&
        target.attemptCount == input.attemptNumber &&
        target.lastAttemptId == some input.attemptId && target.updatedAt == input.startedAt)
        .leaseLost
      let (state, store) ← writeOutcome input store
      let targets ← readTargetRows input.outboxId store
      let verdict ← disposition outbox.row targets
      let store ← release false verdict.presenceState.1 verdict.presenceState.2 input.finishedAt
        input.outboxId input.outboxRevision input.owner.bytes input.leaseExpires store
      pure (⟨input.outboxId, input.attemptId, input.targetOrdinal, input.attemptNumber,
        input.outcome, state, verdict.presenceState.1⟩, store)

/-- `read_expired_candidate`. -/
def readExpiredCandidate (now : UnixMilliseconds) (store : PresenceStore) :
    Except PresenceOperationError (Option PresenceCandidate) :=
  match readExpired now.get store with
  | none => .ok none
  | some row => do
      let current ← readOutbox row.outboxId store
      let outbox ← orError current .invariant
      let desired ← readDesiredBinding store
      let currentDesired := desiredMatchesOutbox desired outbox.row
      validateTargets outbox.row outbox.targets
      let submitted := (outbox.targets.filter fun target => target.state == .submitted).map
        (·.attemptCount)
      require (decide (submitted.length ≤ 1)) .invariant
      let attempt := submitted.head?.filter fun attempt => decide (attempt < presenceMaxAttempts)
      pure (some ⟨outbox,
        if currentDesired then
          attempt.elim 0 (retryUpperBound presenceInitialBackoff presenceMaximumBackoff)
        else
          0,
        currentDesired⟩)

omit [Sha256] [PresenceEvents] in
/-- The input `recover_expired` records for a submitted target. -/
def recoveryInput (row : PresenceRow) (owner : LeaseOwner) (expires now delay : Nat)
    (target : TargetRow) (attemptId : Digest) : PresenceInput where
  outboxId := row.outboxId
  outboxRevision := row.revision
  eventDigest := row.eventDigest
  owner
  leaseExpires := expires
  targetOrdinal := target.targetOrdinal
  targetRevision := target.revision
  attemptNumber := target.attemptCount
  attemptId
  startedAt := target.updatedAt
  finishedAt := now
  outcome := .unknown
  retryDelay := delay

omit [Sha256] [PresenceEvents] in
/-- The loop of `recover_expired` over the submitted targets. -/
def recoverTargets (row : PresenceRow) (owner : LeaseOwner) (expires now delay : Nat) :
    List TargetRow → PresenceStore → Except PresenceOperationError PresenceStore
  | [], store => .ok store
  | target :: rest, store => do
      let attemptId ← orError target.lastAttemptId .invariant
      require (!store.attempts.rows.any fun attempt => attempt.attemptId == attemptId) .invariant
      let (_, store) ← writeOutcome (recoveryInput row owner expires now delay target attemptId)
        store
      recoverTargets row owner expires now delay rest store

/-- `recover_expired`.  Whether the outbox is current was found by the search. -/
def recoverExpired (candidate : PresenceCandidate) (now : UnixMilliseconds) (delay : Nat)
    (store : PresenceStore) : Except PresenceOperationError (Unit × PresenceStore) := do
  let row := candidate.outbox.row
  let current ← readOutbox row.outboxId store
  require (current == some candidate.outbox) .leaseLost
  require (row.state == .leased && row.leaseExpires.any fun expires => decide (expires ≤ now.get))
    .leaseLost
  let owner ← orError (row.leaseOwner.bind LeaseOwner.fromBytes) .invariant
  let expires ← orError row.leaseExpires .invariant
  let store ← recoverTargets row owner expires now.get delay
    (candidate.outbox.targets.filter fun target => target.state == .submitted) store
  let targets ← readTargetRows row.outboxId store
  let (state, next) ← if candidate.currentDesired then do
      let verdict ← disposition row targets
      pure verdict.presenceState
    else
      pure (PresenceState.superseded, none)
  let store ← release true state next now.get row.outboxId row.revision owner.bytes expires store
  pure ((), store)

end Delivering

section Repository

variable [Sha256] [PresenceEvents]

/-- `commit_signed_presence`. -/
def commitSignedPresence (mode : HostMode) (disposition : Disposition)
    (documents : SignedDocuments) (committedAt : UnixMilliseconds) (store : PresenceStore) :
    Except PresenceErrorKind PresenceCommit × PresenceStore :=
  if mode ≠ .readWriteExisting then
    (.error .invalidMode, store)
  else
    transaction mapPresenceError disposition (commitSigned documents committedAt) store

/-- `claim_next_presence`. -/
def claimNextPresence (mode : HostMode) (disposition : Disposition) (owner : LeaseOwner)
    (now : UnixMilliseconds) (store : PresenceStore) :
    Except PresenceErrorKind (Option PresenceLease) × PresenceStore :=
  if mode ≠ .readWriteExisting then
    (.error .invalidMode, store)
  else
    transaction mapPresenceError disposition (claimNext owner now) store

/-- `prepare_next_presence_target`. -/
def prepareNextPresenceTarget (mode : HostMode) (disposition : Disposition) (lease : PresenceLease)
    (startedAt : UnixMilliseconds) (store : PresenceStore) :
    Except PresenceErrorKind PreparedPresence × PresenceStore :=
  if mode ≠ .readWriteExisting then
    (.error .invalidMode, store)
  else
    transaction mapPresenceError disposition (prepareNext lease startedAt) store

omit [PresenceEvents] in
/-- `PresenceRecordInput::from_prepared`. -/
def PresenceInput.fromPrepared (prepared : PreparedPresence) (finishedAt : UnixMilliseconds)
    (outcome : AttemptOutcome) (delay : Nat) : Except PresenceErrorKind PresenceInput := do
  require (decide (prepared.startedAt ≤ finishedAt.get) && outcome != .submitted) .invalidInput
  let row := prepared.lease.outbox.row
  require (deriveAttemptId row.outboxId row.eventDigest prepared.target.targetOrdinal
    prepared.target.attemptCount == prepared.attemptId) .invariant
  pure {
    outboxId := row.outboxId
    outboxRevision := row.revision
    eventDigest := row.eventDigest
    owner := prepared.lease.owner
    leaseExpires := prepared.lease.expiresAt
    targetOrdinal := prepared.target.targetOrdinal
    targetRevision := prepared.target.revision
    attemptNumber := prepared.target.attemptCount
    attemptId := prepared.attemptId
    startedAt := prepared.startedAt
    finishedAt := finishedAt.get
    outcome
    retryDelay := delay }

/-- `record_presence_outcome`. -/
def recordPresenceOutcome (mode : HostMode) (disposition : Disposition)
    (prepared : PreparedPresence) (finishedAt : UnixMilliseconds) (outcome : AttemptOutcome)
    (delay : Nat) (store : PresenceStore) :
    Except PresenceErrorKind PresenceAttemptCommit × PresenceStore :=
  if mode ≠ .readWriteExisting then
    (.error .invalidMode, store)
  else
    match PresenceInput.fromPrepared prepared finishedAt outcome delay with
    | .error error => (.error error, store)
    | .ok input => transaction mapPresenceError disposition (recordOutcome input) store

/-- The first transaction of `recover_one_expired_presence`. -/
def readExpiredPresence (mode : HostMode) (disposition : Disposition) (now : UnixMilliseconds)
    (store : PresenceStore) : Except PresenceErrorKind (Option PresenceCandidate) :=
  if mode ≠ .readWriteExisting then
    .error .invalidMode
  else
    (transaction mapPresenceError disposition (fun store => do
      let candidate ← readExpiredCandidate now store
      pure (candidate, store)) store).1

/-- The second transaction of `recover_one_expired_presence`. -/
def recoverExpiredPresence (disposition : Disposition) (candidate : PresenceCandidate)
    (now : UnixMilliseconds) (delay : Nat) (store : PresenceStore) :
    Except PresenceErrorKind Unit × PresenceStore :=
  transaction mapPresenceError disposition (recoverExpired candidate now delay) store

omit [Sha256] [PresenceEvents]

/-- `AdminJournalOperationError`, as far as the refresh of presence reports it. -/
inductive RefreshError where
  | binding
  | conflict
  | storage
deriving DecidableEq, Repr

/-- The operation of `presence_refresh`, inside the transaction of the operation journal. -/
def refresh (expected : Nat) (now : UnixMilliseconds) (store : PresenceStore) :
    Except RefreshError (Unit × PresenceStore) := do
  let desired ← match store.desired.rows with
    | [row] => pure row
    | _ => .error .binding
  require (desired.generation == expected && desired.enabled) .conflict
  let listed := (store.outbox.rows.filter fun row => row.generation == expected).take 3
  require (decide (listed ≠ [] ∧ listed.length ≤ 2)) .conflict
  require (decide (listed.map (·.kind)).Nodup) .binding
  let (outbox, affected) ←
    orError (store.outbox.update (refreshOutbox expected now.get)) .storage
  require (decide (1 ≤ affected ∧ affected ≤ listed.length)) .conflict
  pure ((), { store with outbox })

/-- `presence_refresh`; a failed operation changes nothing, whatever its report. -/
def presenceRefresh (disposition : Disposition) (expected : Nat) (now : UnixMilliseconds)
    (store : PresenceStore) : Except (Failure RefreshError) Unit × PresenceStore :=
  transaction id disposition (refresh expected now) store

end Repository

end Presence

end Rhi
