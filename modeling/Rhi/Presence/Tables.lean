import Rhi.Publication

/-!
# Presence tables

The desired state is one row, whose generation counts its changes.  Every generation has one outbox
for each of its documents, with the exact signed bytes, and the outbox has one target for each
relay.  The number of attempts, the backoff and the deadline are constants of the tables.
-/

namespace Rhi

open Relational Transactional

/-- `RhiPresenceDocumentKind`. -/
inductive DocumentKind where
  | serviceProfile
  | applicationHandler
deriving DecidableEq, Repr

/-- `document_kind_tag`, which is also the order of the documents. -/
def DocumentKind.tag : DocumentKind → Nat
  | .serviceProfile => 0
  | .applicationHandler => 1

/-- `RHI_PRESENCE_MAX_ATTEMPTS`. -/
def presenceMaxAttempts : Nat := 100

/-- `RHI_PRESENCE_SIGNED_EVENT_MAX_BYTES`. -/
def presenceMaxBytes : Nat := 32768

def presenceInitialBackoff : Nat := 250

def presenceMaximumBackoff : Nat := 30000

def presenceAttemptDeadline : Nat := 15000

section Desired

/-- The row of `presence_desired_state`, and `RhiPresenceDesiredState`. -/
structure DesiredRow where
  generation : Nat
  enabled : Bool
  profile : Bool
  applicationHandler : Bool
  targetSet : Digest
  targetCount : Nat
  requiredTargetCount : Nat
  queueCapacity : Nat
  desired : Digest
deriving DecidableEq, Repr

/-- The documents of a desired state, in their order. -/
def DesiredRow.documentKinds (row : DesiredRow) : List DocumentKind :=
  (if row.profile then [.serviceProfile] else []) ++
    if row.applicationHandler then [.applicationHandler] else []

def presenceDesiredState : Schema DesiredRow where
  check row := decide (1 ≤ row.generation ∧ row.generation ≤ maxInteger ∧ row.targetCount ≤ 32 ∧
    row.requiredTargetCount ≤ row.targetCount ∧ row.queueCapacity ≤ 4096) &&
    if row.enabled then
      (row.profile || row.applicationHandler) &&
        decide (1 ≤ row.targetCount ∧ 1 ≤ row.queueCapacity)
    else
      !row.profile && !row.applicationHandler &&
        decide (row.targetCount = 0 ∧ row.requiredTargetCount = 0 ∧ row.queueCapacity = 0)
  guardInsert stored row := row.generation == 1 && stored.isEmpty
  guardUpdate old new := decide (old.generation < maxInteger) &&
    new.generation == old.generation + 1 && new.desired != old.desired
  clash _ _ := true

end Desired

section Outbox

inductive PresenceState where
  | pending
  | leased
  | complete
  | blocked
  | superseded
deriving DecidableEq, Repr

/-- A row of `presence_outbox`. -/
structure PresenceRow where
  outboxId : Digest
  generation : Nat
  kind : DocumentKind
  desired : Digest
  targetSet : Digest
  eventId : EventId
  eventDigest : Digest
  signedEvent : List UInt8
  authoredAt : Nat
  servicePublicKey : PublicKey
  targetCount : Nat
  requiredTargetCount : Nat
  state : PresenceState
  revision : Nat
  nextAttempt : Option Nat
  leaseOwner : Option (BitVec 128)
  leaseExpires : Option Nat
  createdAt : Nat
  updatedAt : Nat
deriving DecidableEq, Repr

/-- The columns `presence_outbox_guard_update` freezes. -/
def PresenceRow.SameIdentity (old new : PresenceRow) : Prop :=
  new.outboxId = old.outboxId ∧ new.generation = old.generation ∧ new.kind = old.kind ∧
  new.desired = old.desired ∧ new.targetSet = old.targetSet ∧ new.eventId = old.eventId ∧
  new.eventDigest = old.eventDigest ∧ new.signedEvent = old.signedEvent ∧
  new.authoredAt = old.authoredAt ∧ new.servicePublicKey = old.servicePublicKey ∧
  new.targetCount = old.targetCount ∧ new.requiredTargetCount = old.requiredTargetCount ∧
  new.createdAt = old.createdAt

instance (old new : PresenceRow) : Decidable (PresenceRow.SameIdentity old new) := by
  unfold PresenceRow.SameIdentity
  infer_instance

def PresenceRow.shaped (row : PresenceRow) : Bool :=
  match row.state with
  | .pending => row.nextAttempt.any (fun instant => decide (instant ≤ maxInteger)) &&
      row.leaseOwner.isNone && row.leaseExpires.isNone
  | .leased => row.nextAttempt.isNone && row.leaseOwner.isSome &&
      row.leaseExpires.any fun instant => decide (1 ≤ instant ∧ instant ≤ maxInteger)
  | .complete | .blocked | .superseded =>
      row.nextAttempt.isNone && row.leaseOwner.isNone && row.leaseExpires.isNone

def PresenceRow.transitionAllowed : PresenceState → PresenceState → Bool
  | .pending, .leased | .pending, .superseded => true
  | .leased, .pending | .leased, .complete | .leased, .blocked | .leased, .superseded => true
  | .blocked, .pending | .blocked, .superseded => true
  | _, _ => false

def presenceOutbox : Schema PresenceRow where
  check row := decide (1 ≤ row.generation ∧ row.generation ≤ maxInteger ∧
    1 ≤ row.signedEvent.length ∧ row.signedEvent.length ≤ presenceMaxBytes ∧
    row.authoredAt ≤ maxInteger ∧ 1 ≤ row.targetCount ∧ row.targetCount ≤ 32 ∧
    row.requiredTargetCount ≤ row.targetCount ∧ 1 ≤ row.revision ∧ row.revision ≤ maxInteger ∧
    row.createdAt ≤ row.updatedAt ∧ row.updatedAt ≤ maxInteger) && row.shaped
  guardInsert := unguarded
  guardUpdate old new := decide (PresenceRow.SameIdentity old new) &&
    new.revision == old.revision + 1 && decide (old.updatedAt ≤ new.updatedAt) &&
    PresenceRow.transitionAllowed old.state new.state
  clash left right := left.outboxId == right.outboxId ||
    (left.generation == right.generation && left.kind == right.kind)

end Outbox

section Targets

/-- The shape the checks of `presence_targets` prescribe for each state. -/
def TargetRow.shaped (row : TargetRow) : Bool :=
  match row.state with
  | .pending => row.attemptCount == 0 && row.nextAttempt.isSome && row.lastAttemptId.isNone
  | .submitted | .accepted | .rejected | .authRequired => decide (1 ≤ row.attemptCount) &&
      row.nextAttempt.isNone && row.lastAttemptId.isSome
  | .rateLimited | .failed | .unknown => decide (1 ≤ row.attemptCount) &&
      row.nextAttempt.isSome == decide (row.attemptCount < presenceMaxAttempts) &&
      row.lastAttemptId.isSome

def TargetRow.presenceTransition (old new : TargetRow) : Bool :=
  (old.state.retryable && new.state == .submitted && new.attemptCount == old.attemptCount + 1 &&
    new.lastAttemptId.isSome && new.lastAttemptId != old.lastAttemptId) ||
  (old.state == .submitted && new.state != .pending && new.state != .submitted &&
    new.attemptCount == old.attemptCount && new.lastAttemptId == old.lastAttemptId)

def presenceTargets : Schema TargetRow where
  check row := decide (row.targetOrdinal ≤ 31 ∧ 1 ≤ row.revision ∧ row.revision ≤ maxInteger ∧
    row.attemptCount ≤ presenceMaxAttempts ∧ (∀ instant ∈ row.nextAttempt, instant ≤ maxInteger) ∧
    row.updatedAt ≤ maxInteger) && row.shaped
  guardInsert := unguarded
  guardUpdate old new := decide (new.outboxId = old.outboxId ∧
    new.targetOrdinal = old.targetOrdinal ∧ new.relayId = old.relayId ∧
    new.required = old.required ∧ new.revision = old.revision + 1 ∧
    old.updatedAt ≤ new.updatedAt) && TargetRow.presenceTransition old new
  clash left right := left.outboxId == right.outboxId &&
    (left.targetOrdinal == right.targetOrdinal || left.relayId == right.relayId)

def presenceAttempts : Schema DeliveryRow where
  check row := decide (row.targetOrdinal ≤ 31 ∧ 1 ≤ row.attemptNumber ∧
    row.attemptNumber ≤ presenceMaxAttempts ∧ row.started ≤ row.finished ∧
    row.finished ≤ maxInteger) && row.outcome != .submitted
  guardInsert := unguarded
  guardUpdate := immutable
  clash left right := left.attemptId == right.attemptId ||
    (left.outboxId == right.outboxId && left.targetOrdinal == right.targetOrdinal &&
      left.attemptNumber == right.attemptNumber)

end Targets

/-- The tables that presence reads and writes. -/
structure PresenceStore where
  configBindings : Table configBindings
  desired : Table presenceDesiredState
  outbox : Table presenceOutbox
  targets : Table presenceTargets
  attempts : Table presenceAttempts
deriving DecidableEq

def PresenceStore.initial : PresenceStore where
  configBindings := .empty
  desired := .empty
  outbox := .empty
  targets := .empty
  attempts := .empty

end Rhi
