import Rhi.Presence.Tables

/-!
# Presence

The service announces itself with signed documents.  A start commits the desired state of its
configuration and, when that changed it, signs the documents of the new generation and commits them
with their targets.  An executor then delivers them like publications; work of an earlier generation
is superseded.  Every step is one transaction.
-/

namespace Rhi

open Relational Transactional

section Rendering

/-- `AuthoredEventPlan`, as far as a signed document is compared with it. -/
structure EventPlan where
  expectedEventId : EventId
  kind : Nat
  tags : List (List String)
  content : String
deriving DecidableEq, Repr

/-- `EventEnvelope`: a parsed event whose identifier and signature are verified. -/
structure EventEnvelope where
  eventId : EventId
  author : PublicKey
  createdAt : Nat
  kind : Nat
  tags : List (List String)
  content : String
deriving DecidableEq, Repr

/-- What the event libraries do for presence: they plan the event of a document, sign it with the
service identity and the given entropy, and parse and verify signed bytes. -/
class PresenceEvents where
  validPublicKey : PublicKey → Bool
  plan : DocumentKind → PublicKey → Nat → Option EventPlan
  sign : PublicKey → EventPlan → List UInt8 → Option (List UInt8)
  verify : List UInt8 → Option EventEnvelope

variable [PresenceEvents]

/-- `validate_signed_document`; the identifier of the verified event. -/
def validateSignedDocument (kind : DocumentKind) (author : PublicKey) (createdAt : Nat)
    (bytes : List UInt8) : Option EventId := do
  guard (bytes ≠ [] ∧ bytes.length ≤ presenceMaxBytes)
  let event ← PresenceEvents.verify bytes
  guard (event.author = author ∧ event.createdAt = createdAt)
  let expected ← PresenceEvents.plan kind author createdAt
  guard (event.eventId = expected.expectedEventId ∧ event.kind = expected.kind ∧
    event.tags = expected.tags ∧ event.content = expected.content)
  pure event.eventId

end Rendering

section Desired

/-- The parts of an admitted configuration that `derive_authority` of presence reads. -/
structure PresenceDocument where
  configuration : Digest
  servicePublicKey : PublicKey
  enabled : Bool
  profile : Bool
  applicationHandler : Bool
  targetRelayIds : Option (List SourceId)
  relays : List Relay
  queueCapacity : Nat
deriving DecidableEq, Repr

/-- `RhiPresenceDesiredAuthority`. -/
structure DesiredAuthority where
  configuration : Digest
  servicePublicKey : PublicKey
  enabled : Bool
  documentKinds : List DocumentKind
  targets : List PublicationTarget
  queueCapacity : Nat
  targetSet : Digest
  desired : Digest
deriving DecidableEq, Repr

def presenceTargetSet : String := "radroots.rhi.presence_target_set.v1"

/-- The lowercase hexadecimal text of a key. -/
def hexBytes (key : PublicKey) : List UInt8 :=
  (List.range 64).map fun index =>
    let digit := key.toNat / 16 ^ (63 - index) % 16
    UInt8.ofNat (if digit < 10 then 48 + digit else 87 + digit)

variable [Sha256]

/-- `desired_state_digest`. -/
def desiredStateDigest (enabled : Bool) (documentKinds : List DocumentKind)
    (targets : List PublicationTarget) (queueCapacity : Nat) (servicePublicKey : PublicKey) :
    Digest :=
  Sha256.digest (domainBytes "radroots.rhi.presence_desired_state.v1" ++ flagByte enabled ++
    toBeBytes 4 documentKinds.length ++ (documentKinds.flatMap fun kind => toBeBytes 1 kind.tag) ++
    toBeBytes 4 targets.length ++ (targets.flatMap fun target => toBeBytes 4 target.ordinal ++
      framed (textBytes target.relayId.text) ++ flagByte target.required) ++
    toBeBytes 4 queueCapacity ++ framed (hexBytes servicePublicKey))

/-- `derive_authority` of presence. -/
def deriveDesired [PresenceEvents] (document : PresenceDocument) : Option DesiredAuthority := do
  guard (PresenceEvents.validPublicKey document.servicePublicKey)
  guard (1 ≤ document.queueCapacity ∧ document.queueCapacity ≤ 4096)
  let (documentKinds, targets, queueCapacity) ←
    if document.enabled then do
      let kinds := (if document.profile then [DocumentKind.serviceProfile] else []) ++
        if document.applicationHandler then [DocumentKind.applicationHandler] else []
      guard (kinds ≠ [])
      let ids ← document.targetRelayIds
      guard (ids ≠ [] ∧ ids.length ≤ publicationMaxTargets)
      let targets ← deriveTargets document.relays ids []
      pure (kinds, targets, document.queueCapacity)
    else do
      guard (!document.profile && !document.applicationHandler && document.targetRelayIds.isNone)
      pure ([], [], 0)
  pure {
    configuration := document.configuration
    servicePublicKey := document.servicePublicKey
    enabled := document.enabled
    documentKinds
    targets
    queueCapacity
    targetSet := targetSetDigest presenceTargetSet targets
    desired := desiredStateDigest document.enabled documentKinds targets queueCapacity
      document.servicePublicKey }

omit [Sha256] in
/-- The columns an authority prescribes for a generation. -/
def DesiredAuthority.row (authority : DesiredAuthority) (generation : Nat) : DesiredRow where
  generation
  enabled := authority.enabled
  profile := authority.documentKinds.contains .serviceProfile
  applicationHandler := authority.documentKinds.contains .applicationHandler
  targetSet := authority.targetSet
  targetCount := authority.targets.length
  requiredTargetCount := authority.targets.countP (·.required)
  queueCapacity := authority.queueCapacity
  desired := authority.desired

omit [Sha256] in
/-- `matches_authority`: all columns but the generation are compared. -/
def DesiredRow.matchesAuthority (row : DesiredRow) (authority : DesiredAuthority) : Bool :=
  row == authority.row row.generation

/-- `OperationError` of the desired state. -/
inductive DesiredOperationError where
  | invalidInput
  | binding
  | resourceExhausted
  | storage
deriving DecidableEq, Repr

/-- `RhiPresenceDesiredErrorKind`, of a commit. -/
inductive DesiredErrorKind where
  | invalidConfiguration
  | invalidMode
  | binding
  | resourceExhausted
  | storage
  | commitOutcomeUnknown
deriving DecidableEq, Repr

/-- `map_transaction_error` of the desired state. -/
def mapDesiredError : Failure DesiredOperationError → DesiredErrorKind
  | .outcomeUnknown => .commitOutcomeUnknown
  | .operation .invalidInput => .invalidConfiguration
  | .operation .binding => .binding
  | .operation .resourceExhausted => .resourceExhausted
  | .operation .storage | .aborted => .storage

/-- `RhiPresenceDesiredCommitOutcome`. -/
structure DesiredCommit where
  state : DesiredRow
  changed : Bool
deriving DecidableEq, Repr

namespace Presence

omit [Sha256]

/-- The newest binding, as `READ_CURRENT_CONFIG_SQL` reads it. -/
def currentConfig (store : PresenceStore) : Option ConfigBinding :=
  (store.configBindings.rows.foldl (fun newest row =>
    if newest.all fun other => decide (other.generation < row.generation) then some row
    else newest) none).map (·.binding)

/-- `require_current_config`. -/
def requireCurrentConfig [PresenceEvents] (authority : DesiredAuthority) (store : PresenceStore) :
    Except DesiredOperationError Unit := do
  let binding ← orError (currentConfig store) .binding
  require (PresenceEvents.validPublicKey binding.servicePublicKey &&
    binding.normalizedConfig == authority.configuration &&
    binding.servicePublicKey == authority.servicePublicKey) .binding

/-- `read_desired`. -/
def readDesired (store : PresenceStore) : Except DesiredOperationError (Option DesiredRow) :=
  match store.desired.rows with
  | [] => .ok none
  | [row] => .ok (some row)
  | _ => .error .binding

/-- `UPDATE_DESIRED_SQL`. -/
def updateDesired (authority : DesiredAuthority) (current : DesiredRow) : Change DesiredRow where
  selects row := row.generation == current.generation && row.desired == current.desired
  write row := authority.row (row.generation + 1)

/-- `commit_desired`. -/
def commitDesired [PresenceEvents] (authority : DesiredAuthority) (store : PresenceStore) :
    Except DesiredOperationError (DesiredCommit × PresenceStore) := do
  requireCurrentConfig authority store
  let current ← readDesired store
  match current with
  | some current =>
      if current.matchesAuthority authority then
        pure (⟨current, false⟩, store)
      else do
        require (current.generation != maxInteger) .resourceExhausted
        let (desired, affected) ←
          orError (store.desired.update (updateDesired authority current)) .storage
        require (affected == 1) .binding
        let committed ← readDesired { store with desired }
        let state ← orError (committed.filter (·.matchesAuthority authority)) .binding
        pure (⟨state, true⟩, { store with desired })
  | none => do
      let desired ← orError (store.desired.insert (authority.row 1)) .storage
      let committed ← readDesired { store with desired }
      let state ← orError (committed.filter (·.matchesAuthority authority)) .binding
      pure (⟨state, true⟩, { store with desired })

/-- `RhiDesiredPresenceRepository::commit`. -/
def commitDesiredPresence [PresenceEvents] (mode : HostMode) (disposition : Disposition)
    (authority : DesiredAuthority) (store : PresenceStore) :
    Except DesiredErrorKind DesiredCommit × PresenceStore :=
  if mode ≠ .readWriteExisting then
    (.error .invalidMode, store)
  else
    transaction mapDesiredError disposition (commitDesired authority) store

end Presence

end Desired

section Documents

/-- `PresenceOperationError`. -/
inductive PresenceOperationError where
  | invalidInput
  | desiredStateMismatch
  | verificationFailed
  | notReady
  | leaseLost
  | invariant
  | storage
deriving DecidableEq, Repr

/-- `RhiPresencePublicationErrorKind`. -/
inductive PresenceErrorKind where
  | invalidMode
  | invalidInput
  | desiredStateMismatch
  | identityMismatch
  | entropyUnavailable
  | renderingFailed
  | verificationFailed
  | notReady
  | leaseLost
  | invariant
  | clockUnavailable
  | storage
  | commitOutcomeUnknown
deriving DecidableEq, Repr

/-- `map_transaction_error` of presence. -/
def mapPresenceError : Failure PresenceOperationError → PresenceErrorKind
  | .outcomeUnknown => .commitOutcomeUnknown
  | .operation .invalidInput => .invalidInput
  | .operation .desiredStateMismatch => .desiredStateMismatch
  | .operation .verificationFailed => .verificationFailed
  | .operation .notReady => .notReady
  | .operation .leaseLost => .leaseLost
  | .operation .invariant => .invariant
  | .operation .storage | .aborted => .storage

/-- `RhiSignedPresenceDocument`. -/
structure SignedDocument where
  kind : DocumentKind
  eventId : EventId
  eventDigest : Digest
  signedEvent : List UInt8
  createdAt : Nat
deriving DecidableEq, Repr

/-- `RhiSignedPresenceDocuments`. -/
structure SignedDocuments where
  desiredState : DesiredRow
  servicePublicKey : PublicKey
  targets : List PublicationTarget
  documents : List SignedDocument
deriving DecidableEq, Repr

/-- `RhiPresenceCommitOutcome`. -/
structure PresenceCommit where
  desiredState : DesiredRow
  documentCount : Nat
  changed : Bool
deriving DecidableEq, Repr

variable [Sha256] [PresenceEvents]

/-- The documents of the listed kinds, each signed with its own entropy. -/
def signDocuments (key : PublicKey) (createdAt : Nat) : List DocumentKind → List (List UInt8) →
    Except PresenceErrorKind (List SignedDocument)
  | [], _ => .ok []
  | kind :: kinds, entropy => do
      let plan ← orError (PresenceEvents.plan kind key createdAt) .renderingFailed
      let auxiliary ← orError entropy.head? .entropyUnavailable
      let bytes ← orError (PresenceEvents.sign key plan auxiliary) .renderingFailed
      let eventId ← orError (validateSignedDocument kind key createdAt bytes) .verificationFailed
      let documents ← signDocuments key createdAt kinds entropy.tail
      pure (⟨kind, eventId, Sha256.digest bytes, bytes, createdAt⟩ :: documents)

/-- `build_rhi_signed_presence_documents`. -/
def buildSignedDocuments (state : DesiredRow) (authority : DesiredAuthority) (identity : PublicKey)
    (createdAt : Nat) (entropy : List (List UInt8)) : Except PresenceErrorKind SignedDocuments := do
  require (decide (createdAt ≤ maxInteger)) .invalidInput
  require (state.matchesAuthority authority) .desiredStateMismatch
  require (identity == authority.servicePublicKey) .identityMismatch
  let documents ← signDocuments identity createdAt authority.documentKinds entropy
  require (if state.enabled then documents.length == authority.documentKinds.length
    else documents.isEmpty) .invariant
  pure ⟨state, authority.servicePublicKey, authority.targets, documents⟩

end Documents

section Records

/-- `PresenceOutboxRecord`: a row with its targets. -/
structure PresenceRecord where
  row : PresenceRow
  targets : List TargetRow
deriving DecidableEq, Repr

/-- `RhiPresenceLease`. -/
structure PresenceLease where
  outbox : PresenceRecord
  owner : LeaseOwner
  expiresAt : Nat
deriving DecidableEq, Repr

/-- `RhiPreparedPresenceAttempt`. -/
structure PreparedPresence where
  lease : PresenceLease
  target : TargetRow
  attemptId : Digest
  startedAt : Nat
  signedEvent : List UInt8
deriving DecidableEq, Repr

/-- `PresenceRecordInput`. -/
structure PresenceInput where
  outboxId : Digest
  outboxRevision : Nat
  eventDigest : Digest
  owner : LeaseOwner
  leaseExpires : Nat
  targetOrdinal : Nat
  targetRevision : Nat
  attemptNumber : Nat
  attemptId : Digest
  startedAt : Nat
  finishedAt : Nat
  outcome : AttemptOutcome
  retryDelay : Nat
deriving DecidableEq, Repr

/-- `PresenceAttemptRecord::from_input`, and the row `INSERT_ATTEMPT_SQL` writes. -/
def PresenceInput.row (input : PresenceInput) : DeliveryRow where
  attemptId := input.attemptId
  outboxId := input.outboxId
  targetOrdinal := input.targetOrdinal
  attemptNumber := input.attemptNumber
  eventDigest := input.eventDigest
  leaseOwner := input.owner.bytes
  started := input.startedAt
  finished := input.finishedAt
  outcome := input.outcome

/-- `RhiPresenceAttemptCommit`. -/
structure PresenceAttemptCommit where
  outboxId : Digest
  attemptId : Digest
  targetOrdinal : Nat
  attemptNumber : Nat
  outcome : AttemptOutcome
  targetState : TargetState
  outboxState : PresenceState
deriving DecidableEq, Repr

/-- `PresenceRecoveryCandidate`. -/
structure PresenceCandidate where
  outbox : PresenceRecord
  retryUpperBound : Nat
  currentDesired : Bool
deriving DecidableEq, Repr

/-- The state and the schedule a verdict gives an outbox. -/
def Verdict.presenceState : Verdict → PresenceState × Option Nat
  | .complete => (.complete, none)
  | .blocked => (.blocked, none)
  | .pending next => (.pending, some next)

end Records

namespace Presence

section Statements

/-- `SUPERSEDE_OUTBOX_SQL`. -/
def supersedeOutbox (generation now : Nat) : Change PresenceRow where
  selects row := row.generation != generation &&
    (row.state == .pending || row.state == .blocked) && decide (row.updatedAt ≤ now)
  write row := { row with
    state := .superseded, revision := row.revision + 1, nextAttempt := none, leaseOwner := none
    leaseExpires := none, updatedAt := now }

/-- `CLAIM_OUTBOX_SQL`. -/
def claimOutbox (owner : LeaseOwner) (expires now : Nat) (id : Digest) (revision : Nat) :
    Change PresenceRow where
  selects row := row.outboxId == id && row.revision == revision && row.state == .pending &&
    row.nextAttempt.any (fun next => decide (next ≤ now)) && decide (row.updatedAt ≤ now)
  write row := { row with
    state := .leased, revision := row.revision + 1, nextAttempt := none
    leaseOwner := some owner.bytes, leaseExpires := some expires, updatedAt := now }

/-- `UPDATE_TARGET_OUTCOME_SQL`. -/
def recordTarget (state : TargetState) (next : Option Nat) (input : PresenceInput) :
    Change TargetRow where
  selects row := row.outboxId == input.outboxId && row.targetOrdinal == input.targetOrdinal &&
    row.revision == input.targetRevision && row.state == .submitted &&
    row.attemptCount == input.attemptNumber && row.lastAttemptId == some input.attemptId
  write row := { row with
    state, revision := row.revision + 1, nextAttempt := next, updatedAt := input.finishedAt }

/-- `UPDATE_OUTBOX_AFTER_ATTEMPT_SQL` and `UPDATE_OUTBOX_RECOVERY_SQL`, which differ in the side of
the expiry they require. -/
def releaseOutbox (expired : Bool) (state : PresenceState) (next : Option Nat) (now : Nat)
    (id : Digest) (revision : Nat) (owner : BitVec 128) (expires : Nat) : Change PresenceRow where
  selects row := row.outboxId == id && row.revision == revision && row.state == .leased &&
    row.leaseOwner == some owner && row.leaseExpires == some expires &&
    decide (expires ≤ now) == expired && decide (row.updatedAt ≤ now)
  write row := { row with
    state, revision := row.revision + 1, nextAttempt := next, leaseOwner := none
    leaseExpires := none, updatedAt := now }

/-- The statement of `presence_refresh`. -/
def refreshOutbox (generation now : Nat) : Change PresenceRow where
  selects row := row.generation == generation && row.state == .blocked
  write row := { row with
    state := .pending, revision := row.revision + 1, nextAttempt := some now, updatedAt := now }

/-- Order by a scheduling instant, then creation, then document, then identity. -/
def before (due : PresenceRow → Nat) (document : PresenceRow → Nat) (left right : PresenceRow) :
    Prop :=
  due left < due right ∨ (due left = due right ∧
    (left.createdAt < right.createdAt ∨ (left.createdAt = right.createdAt ∧
      (document left < document right ∨
        (document left = document right ∧ left.outboxId ≤ right.outboxId)))))

instance (due document : PresenceRow → Nat) : DecidableRel (before due document) :=
  fun left right => by
    unfold before
    infer_instance

/-- `READ_CLAIMABLE_OUTBOX_SQL`, with its join on the desired state. -/
def readClaimable (now : Nat) (store : PresenceStore) : Option PresenceRow :=
  ((store.outbox.rows.filter fun row => row.state == .pending &&
    row.nextAttempt.any (fun next => decide (next ≤ now)) &&
    store.desired.rows.any fun desired => desired.generation == row.generation &&
      desired.desired == row.desired).insertionSort
        (before (fun row => row.nextAttempt.getD 0) (fun row => row.kind.tag))).head?

/-- `READ_EXPIRED_OUTBOX_SQL`, which orders the documents by their names. -/
def readExpired (now : Nat) (store : PresenceStore) : Option PresenceRow :=
  ((store.outbox.rows.filter fun row => row.state == .leased &&
    row.leaseExpires.any fun expires => decide (expires ≤ now)).insertionSort
      (before (fun row => row.leaseExpires.getD 0) (fun row => 1 - row.kind.tag))).head?

/-- The rows of a generation, as `READ_GENERATION_OUTBOX_SQL` orders them. -/
def generationRows (generation : Nat) (store : PresenceStore) : List PresenceRow :=
  ((store.outbox.rows.filter fun row => row.generation == generation).insertionSort
    fun left right => left.kind.tag ≤ right.kind.tag).take 3

end Statements

section Reading

variable [Sha256] [PresenceEvents]

/-- `derive_outbox_id`. -/
def deriveOutboxId (generation : Nat) (kind : DocumentKind) (desired event : Digest) : Digest :=
  Sha256.digest (domainBytes "radroots.rhi.presence_outbox.v1" ++ toBeBytes 8 generation ++
    toBeBytes 1 kind.tag ++ toBeBytes 32 desired.toNat ++ toBeBytes 32 event.toNat)

/-- `derive_attempt_id`. -/
def deriveAttemptId (outbox event : Digest) (ordinal attemptNumber : Nat) : Digest :=
  Sha256.digest (domainBytes "radroots.rhi.presence_attempt.v1" ++ toBeBytes 32 outbox.toNat ++
    toBeBytes 32 event.toNat ++ toBeBytes 1 ordinal ++ toBeBytes 2 attemptNumber)

omit [Sha256] [PresenceEvents] in
/-- `read_desired_binding`. -/
def readDesiredBinding (store : PresenceStore) : Except PresenceOperationError DesiredRow :=
  match store.desired.rows with
  | [row] => .ok row
  | _ => .error .desiredStateMismatch

/-- What `decode_outbox` checks beyond the checks of the table. -/
def decodable (row : PresenceRow) : Bool :=
  Sha256.digest row.signedEvent == row.eventDigest &&
    PresenceEvents.validPublicKey row.servicePublicKey && row.leaseOwner != some 0

omit [Sha256] [PresenceEvents] in
/-- `read_targets`. -/
def readTargetRows (id : Digest) (store : PresenceStore) :
    Except PresenceOperationError (List TargetRow) := do
  let targets := readTargets id store.targets.rows
  require (decide (targets.length ≤ publicationMaxTargets)) .invariant
  pure targets

/-- `decode_outbox`, with the targets of the outbox. -/
def decodeRecord (store : PresenceStore) (row : PresenceRow) :
    Except PresenceOperationError PresenceRecord := do
  require (decodable row) .invariant
  let targets ← readTargetRows row.outboxId store
  pure ⟨row, targets⟩

/-- `read_outbox`. -/
def readOutbox (id : Digest) (store : PresenceStore) :
    Except PresenceOperationError (Option PresenceRecord) :=
  match store.outbox.rows.find? fun row => row.outboxId == id with
  | none => .ok none
  | some row => do
      let record ← decodeRecord store row
      pure (some record)

/-- `read_generation_outboxes`. -/
def readGenerationOutboxes (generation : Nat) (store : PresenceStore) :
    Except PresenceOperationError (List PresenceRecord) := do
  let rows := generationRows generation store
  require (decide (rows.length ≤ 2)) .invariant
  rows.mapM (decodeRecord store)

omit [PresenceEvents] in
/-- `validate_targets`. -/
def validateTargets (row : PresenceRow) (targets : List TargetRow) :
    Except PresenceOperationError Unit :=
  require (targetsValid presenceTargetSet row.targetCount row.requiredTargetCount row.targetSet
    targets && !targets.isEmpty) .invariant

omit [PresenceEvents] in
/-- `disposition`. -/
def disposition (row : PresenceRow) (targets : List TargetRow) :
    Except PresenceOperationError Verdict := do
  validateTargets row targets
  orError (verdict presenceMaxAttempts targets) .invariant

omit [Sha256] [PresenceEvents] in
/-- `desired_matches_outbox`. -/
def desiredMatchesOutbox (desired : DesiredRow) (row : PresenceRow) : Bool :=
  desired.enabled && desired.generation == row.generation && desired.desired == row.desired &&
    desired.targetSet == row.targetSet && desired.targetCount == row.targetCount &&
    desired.requiredTargetCount == row.requiredTargetCount &&
    desired.documentKinds.contains row.kind

omit [Sha256] [PresenceEvents] in
/-- `validate_current_desired`. -/
def validateCurrentDesired (row : PresenceRow) (store : PresenceStore) :
    Except PresenceOperationError Unit := do
  let desired ← readDesiredBinding store
  require (desiredMatchesOutbox desired row) .desiredStateMismatch

/-- `validate_lease`, which always requires an unexpired lease; all columns and targets of the
claimed outbox are compared. -/
def validateLease (lease : PresenceLease) (now : Nat) (store : PresenceStore) :
    Except PresenceOperationError Unit := do
  let current ← readOutbox lease.outbox.row.outboxId store
  require (current == some lease.outbox) .leaseLost
  validateCurrentDesired lease.outbox.row store
  require (lease.outbox.row.state == .leased &&
    lease.outbox.row.leaseOwner == some lease.owner.bytes &&
    lease.outbox.row.leaseExpires == some lease.expiresAt && decide (now < lease.expiresAt))
    .leaseLost

/-- `validate_input_lease`, which always requires an unexpired lease. -/
def validateInputLease (input : PresenceInput) (store : PresenceStore) :
    Except PresenceOperationError Unit := do
  let current ← readOutbox input.outboxId store
  let outbox ← orError current .leaseLost
  validateCurrentDesired outbox.row store
  require (outbox.row.revision == input.outboxRevision &&
    outbox.row.eventDigest == input.eventDigest && outbox.row.state == .leased &&
    outbox.row.leaseOwner == some input.owner.bytes &&
    outbox.row.leaseExpires == some input.leaseExpires &&
    decide (input.finishedAt < input.leaseExpires)) .leaseLost

omit [Sha256] [PresenceEvents] in
/-- `target_outcome_schedule`. -/
def outcomeOf (input : PresenceInput) :
    Except PresenceOperationError (TargetState × Option Nat) :=
  orError (outcomeSchedule presenceMaxAttempts
    (retryUpperBound presenceInitialBackoff presenceMaximumBackoff input.attemptNumber)
    input.attemptNumber input.finishedAt input.retryDelay input.outcome) .invalidInput

omit [Sha256] [PresenceEvents] in
/-- `insert_attempt`, with the foreign key to the targets. -/
def insertAttempt (input : PresenceInput) (store : PresenceStore) :
    Except PresenceOperationError PresenceStore := do
  require (store.targets.rows.any fun target => target.outboxId == input.outboxId &&
    target.targetOrdinal == input.targetOrdinal) .storage
  let attempts ← orError (store.attempts.insert input.row) .storage
  pure { store with attempts }

end Reading

end Presence

end Rhi
