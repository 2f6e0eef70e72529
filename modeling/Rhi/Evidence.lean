import Rhi.Job

/-!
# Trade evidence

Admission of signed trade events, their immutable persistence, the dirty generation of a trade and
the checkpoint of a source scope.  Verification of an event is done by other packages: a wire
event carries what they return for it.
-/

namespace Rhi

open Relational Transactional

section Admission

/-- A signed event that the verification of identifiers, signature and mutation accepted. -/
structure VerifiedEvent where
  eventId : EventId
  eventSignature : EventSignature
  authorPubkey : PublicKey
  eventKind : Nat
  authoredAt : Nat
  mutationId : MutationId
  tradeId : TradeId
  contract : MutationKind
  content : List UInt8
  canonicalEventJson : List UInt8
  kind_mem : eventKind ∈ eventKinds
  content_nonempty : 1 ≤ content.length
  json_nonempty : 1 ≤ canonicalEventJson.length
deriving DecidableEq, Repr

/-- An event as a relay delivers it.  Its canonical re-encoding is never longer than the original
bytes. -/
structure WireEvent where
  rawLength : Nat
  verified : Option VerifiedEvent
  canonical_le : ∀ event ∈ verified, event.canonicalEventJson.length ≤ rawLength
deriving DecidableEq

/-- The two limits of `RhiTradeMutationAdmissionLimits` that reach durable state. -/
structure AdmissionLimits where
  wireBytes : Nat
  contentBytes : Nat
  wire_le : wireBytes ≤ 524288
  content_le : contentBytes ≤ 131072
deriving DecidableEq, Repr

/-- `RhiAdmittedTradeMutationEvent`, sealed to the admission boundary. -/
@[ext]
structure AdmittedEvent where
  event : VerifiedEvent
  rawLength : Nat
  observedAt : ObservedAt
  raw_positive : 1 ≤ rawLength
  json_le : event.canonicalEventJson.length ≤ 524288
  content_le : event.content.length ≤ 131072
  authored_le : event.authoredAt ≤ maxInteger
deriving Repr

instance : DecidableEq AdmittedEvent :=
  fun _ _ => decidable_of_iff _ AdmittedEvent.ext_iff.symm

/-- `admit_rhi_trade_mutation_event`; its callers do not look at the reason of a rejection. -/
def admitTradeMutationEvent (limits : AdmissionLimits) (observedAt : ObservedAt)
    (maximumFuture : Nat) (wire : WireEvent) : Option AdmittedEvent :=
  match found : wire.verified with
  | none => none
  | some event =>
      if admissible : 1 ≤ wire.rawLength ∧ wire.rawLength ≤ limits.wireBytes ∧
          event.content.length ≤ limits.contentBytes ∧ event.authoredAt ≤ maxInteger ∧
          event.authoredAt ≤ observedAt.get + maximumFuture then
        some {
          event, rawLength := wire.rawLength, observedAt
          raw_positive := admissible.1
          json_le := (wire.canonical_le event found).trans
            (admissible.2.1.trans limits.wire_le)
          content_le := admissible.2.2.1.trans limits.content_le
          authored_le := admissible.2.2.2.1 }
      else
        none

/-- The position of an event in the order of its source. -/
def VerifiedEvent.cursor (event : VerifiedEvent) : SourceCursor :=
  ⟨event.authoredAt, event.eventId⟩

end Admission

section Persistence

/-- `PersistenceRecord`. -/
structure PersistenceRecord where
  mutationId : MutationId
  tradeId : TradeId
  contract : MutationKind
  schemaVersion : Nat
  eventId : EventId
  eventSignature : EventSignature
  authorPubkey : PublicKey
  eventKind : Nat
  authoredAt : Nat
  canonicalContent : List UInt8
  canonicalEventJson : List UInt8
deriving DecidableEq, Repr

/-- The record of a verified event. -/
def VerifiedEvent.record (event : VerifiedEvent) : PersistenceRecord where
  mutationId := event.mutationId
  tradeId := event.tradeId
  contract := event.contract
  schemaVersion := 1
  eventId := event.eventId
  eventSignature := event.eventSignature
  authorPubkey := event.authorPubkey
  eventKind := event.eventKind
  authoredAt := event.authoredAt
  canonicalContent := event.content
  canonicalEventJson := event.canonicalEventJson

/-- `PersistenceRecord::from_admitted`. -/
def PersistenceRecord.fromAdmitted (admitted : AdmittedEvent) : Option PersistenceRecord :=
  if 1 ≤ admitted.event.canonicalEventJson.length ∧
      admitted.event.canonicalEventJson.length ≤ 524288 ∧
      1 ≤ admitted.event.content.length ∧ admitted.event.content.length ≤ 131072 then
    some admitted.event.record
  else
    none

def PersistenceRecord.mutationRow (record : PersistenceRecord) : MutationRow where
  mutationId := record.mutationId
  tradeId := record.tradeId
  contract := record.contract
  schemaVersion := record.schemaVersion
  eventKind := record.eventKind
  authorPubkey := record.authorPubkey
  canonicalContent := record.canonicalContent

def PersistenceRecord.eventRow (record : PersistenceRecord) : EventRow where
  eventId := record.eventId
  eventSignature := record.eventSignature
  mutationId := record.mutationId
  authorPubkey := record.authorPubkey
  eventKind := record.eventKind
  authoredAt := record.authoredAt
  canonicalEventJson := record.canonicalEventJson

/-- `RhiTradeSourceObservation` of a record. -/
def PersistenceRecord.observation (record : PersistenceRecord) (source : SourceId)
    (policy : EvidencePolicyDigest) (observedAt : ObservedAt) : ObservationRow where
  sourceId := source
  evidencePolicy := policy
  eventId := record.eventId
  eventSignature := record.eventSignature
  observedAt := observedAt.get

inductive PersistenceOperationError where
  | mutationConflict
  | signedEventConflict
  | storage
deriving DecidableEq, Repr

/-- `RhiTradeEvidencePersistenceOutcome`. -/
structure PersistenceOutcome where
  mutationInserted : Bool
  signedEventInserted : Bool
  observationInserted : Bool
deriving DecidableEq, Repr

/-- `insert_mutation` with `mutation_matches`. -/
def insertMutation (record : PersistenceRecord) (store : Store) :
    Except PersistenceOperationError (Bool × Store) := do
  let (mutations, inserted) ← orError (store.mutations.insertIfAbsent record.mutationRow) .storage
  require (inserted || (store.mutations.rows.find? fun row =>
    row.mutationId == record.mutationId) == some record.mutationRow) .mutationConflict
  pure (inserted, { store with mutations })

/-- `insert_event` with `event_matches`; a new event must reference a stored mutation. -/
def insertEvent (record : PersistenceRecord) (store : Store) :
    Except PersistenceOperationError (Bool × Store) := do
  let (events, inserted) ← orError (store.events.insertIfAbsent record.eventRow) .storage
  require (!inserted || store.mutations.rows.any fun row =>
    row.mutationId == record.mutationId) .storage
  require (inserted || (store.events.rows.find? fun row =>
    row.eventId == record.eventId && row.eventSignature == record.eventSignature) ==
      some record.eventRow) .signedEventConflict
  pure (inserted, { store with events })

/-- `insert_observation`; a new observation must reference a stored event. -/
def insertObservation (observation : ObservationRow) (store : Store) :
    Except PersistenceOperationError (Bool × Store) := do
  let (observations, inserted) ←
    orError (store.observations.insertIfAbsent observation) .storage
  require (!inserted || store.events.rows.any fun row =>
    row.eventId == observation.eventId && row.eventSignature == observation.eventSignature)
    .storage
  pure (inserted, { store with observations })

/-- `persist`. -/
def persist (record : PersistenceRecord) (observation : ObservationRow) (store : Store) :
    Except PersistenceOperationError (PersistenceOutcome × Store) := do
  let (mutationInserted, store) ← insertMutation record store
  let (signedEventInserted, store) ← insertEvent record store
  let (observationInserted, store) ← insertObservation observation store
  pure (⟨mutationInserted, signedEventInserted, observationInserted⟩, store)

/-- Totals of the rows one transaction inserted. -/
structure InsertedCounts where
  mutations : Nat
  signedEvents : Nat
  observations : Nat
deriving DecidableEq, Repr

def InsertedCounts.zero : InsertedCounts := ⟨0, 0, 0⟩

def InsertedCounts.add (counts : InsertedCounts) (outcome : PersistenceOutcome) :
    InsertedCounts where
  mutations := counts.mutations + outcome.mutationInserted.toNat
  signedEvents := counts.signedEvents + outcome.signedEventInserted.toNat
  observations := counts.observations + outcome.observationInserted.toNat

/-- Whether a transaction inserted evidence that makes its trade dirty. -/
def InsertedCounts.relevant (counts : InsertedCounts) : Bool :=
  counts.mutations != 0 || counts.signedEvents != 0

/-- Persists records with their observations in order. -/
def persistAll : List (PersistenceRecord × ObservationRow) → InsertedCounts → Store →
    Except PersistenceOperationError (InsertedCounts × Store)
  | [], counts, store => .ok (counts, store)
  | (record, observation) :: rest, counts, store => do
      let (outcome, store) ← persist record observation store
      persistAll rest (counts.add outcome) store

end Persistence

section Fences

inductive SourceOperationError where
  | generationConflict
  | persistence (error : PersistenceOperationError)
  | storage
deriving DecidableEq, Repr

/-- `INSERT_DIRTY_SQL`. -/
def insertDirty (trade : TradeId) (policy : EvidencePolicyDigest) (updatedAt : Nat)
    (store : Store) : Except SourceOperationError Store := do
  let dirty ← orError (store.dirty.insert ⟨trade, 1, policy, updatedAt⟩) .storage
  pure { store with dirty }

/-- `UPDATE_DIRTY_SQL`. -/
def updateDirty (trade : TradeId) (policy : EvidencePolicyDigest) (updatedAt generation : Nat) :
    Change DirtyRow where
  selects row := row.tradeId == trade && row.generation == generation
  write row := { row with
    generation := row.generation + 1, evidencePolicy := policy, updatedAt := updatedAt }

/-- `advance_dirty_generation`. -/
def advanceDirtyGeneration (trade : TradeId) (policy : EvidencePolicyDigest) (updatedAt : Nat)
    (expected : Option DirtyRow) (store : Store) : Except SourceOperationError (Nat × Store) := do
  require (decide (updatedAt ≤ maxInteger)) .storage
  match expected with
  | none =>
      let store ← insertDirty trade policy updatedAt store
      pure (1, store)
  | some current =>
      require (current.evidencePolicy == policy && decide (current.updatedAt ≤ updatedAt))
        .generationConflict
      require (decide (current.generation + 1 ≤ maxInteger)) .storage
      let (dirty, affected) ←
        orError (store.dirty.update (updateDirty trade policy updatedAt current.generation))
          .storage
      require (affected == 1) .generationConflict
      pure (current.generation + 1, { store with dirty })

/-- The dirty generation moves once when a transaction inserted relevant evidence. -/
def markDirty (relevant : Bool) (trade : TradeId) (policy : EvidencePolicyDigest)
    (updatedAt : Nat) (expected : Option DirtyRow) (store : Store) :
    Except SourceOperationError (Option Nat × Store) :=
  if relevant then do
    let (generation, store) ← advanceDirtyGeneration trade policy updatedAt expected store
    pure (some generation, store)
  else
    pure (expected.map (·.generation), store)

/-- `read_checkpoint`. -/
def readCheckpoint (store : Store) (source : SourceId) (policy : EvidencePolicyDigest)
    (trade : TradeId) : Option CheckpointRow :=
  store.checkpoints.rows.find? fun row =>
    row.sourceId == source && row.evidencePolicy == policy && row.tradeId == trade

/-- `UPDATE_CHECKPOINT_SQL`. -/
def updateCheckpoint (source : SourceId) (policy : EvidencePolicyDigest) (trade : TradeId)
    (revision : Nat) (cursor : SourceCursor) (completedAt : Nat) : Change CheckpointRow where
  selects row := row.sourceId == source && row.evidencePolicy == policy &&
    row.tradeId == trade && row.revision == revision
  write row := { row with cursor, revision := row.revision + 1, completedAt }

/-- `write_checkpoint`. -/
def writeCheckpoint (source : SourceId) (policy : EvidencePolicyDigest) (trade : TradeId)
    (current : Option CheckpointRow) (next : SourceCursor) (completedAt : Nat) (store : Store) :
    Except SourceOperationError Store := do
  require (decide (next.createdAt ≤ maxInteger ∧ completedAt ≤ maxInteger)) .storage
  match current with
  | none =>
      let checkpoints ← orError
        (store.checkpoints.insert ⟨source, policy, trade, next, 1, completedAt⟩) .storage
      pure { store with checkpoints }
  | some current =>
      let (checkpoints, affected) ← orError (store.checkpoints.update
        (updateCheckpoint source policy trade current.revision next completedAt)) .storage
      require (affected == 1) .generationConflict
      pure { store with checkpoints }

end Fences

section Ingest

/-- The sealed values `commit_source_result` receives of one fetched or delivered result. -/
structure FetchedSource (trade : TradeId) where
  completion : SourceCompletion
  receivedEvents : Nat
  duplicateEvents : Nat
  admitted : List AdmittedEvent
  rejectedEvents : Nat
  cursorCandidate : Option SourceCursor
  same_trade : ∀ event ∈ admitted, event.event.tradeId = trade
deriving DecidableEq

/-- `InitialState`: the checkpoint and the dirty row read before the fetch. -/
structure InitialState where
  checkpoint : Option CheckpointRow
  dirty : Option DirtyRow
deriving DecidableEq, Repr

/-- `RhiTradeSourceIngestOutcome`. -/
structure IngestOutcome where
  completion : SourceCompletion
  receivedEvents : Nat
  admittedEvents : Nat
  rejectedEvents : Nat
  duplicateEvents : Nat
  inserted : InsertedCounts
  checkpoint : Option SourceCursor
  checkpointAdvanced : Bool
  dirtyGeneration : Option Nat
  dirtyGenerationAdvanced : Bool
deriving DecidableEq, Repr

inductive IngestErrorKind where
  | invalidMode
  | invalidInput
  | invalidConfiguration
  | generationConflict
  | storage
  | commitOutcomeUnknown
deriving DecidableEq, Repr

/-- `map_transaction_error` of the source ingest. -/
def mapIngestError : Failure SourceOperationError → IngestErrorKind
  | .outcomeUnknown => .commitOutcomeUnknown
  | .operation .generationConflict => .generationConflict
  | .operation (.persistence _) | .operation .storage | .aborted => .storage

/-- The body of the transaction of `read_initial_state`. -/
def readInitialState (source : SourceId) (policy : EvidencePolicyDigest) (trade : TradeId)
    (store : Store) : InitialState :=
  ⟨readCheckpoint store source policy trade, readDirty store trade⟩

/-- The records and observations of the admitted events of one source. -/
def admittedRecords (source : SourceId) (policy : EvidencePolicyDigest) :
    List AdmittedEvent → Option (List (PersistenceRecord × ObservationRow))
  | [] => some []
  | admitted :: rest => do
      let record ← PersistenceRecord.fromAdmitted admitted
      let records ← admittedRecords source policy rest
      pure ((record, record.observation source policy admitted.observedAt) :: records)

/-- Whether the candidate of a result lies beyond the checkpoint it was fetched from. -/
def advancesCheckpoint (current : Option CheckpointRow) (candidate : SourceCursor) : Bool :=
  match current with
  | none => true
  | some current => current.cursor.lt candidate

/-- The last part of `commit_source_result`: the checkpoint moves only on a complete result. -/
def commitCheckpoint (source : SourceId) (policy : EvidencePolicyDigest) (trade : TradeId)
    (completedAt : Nat) (initial : Option CheckpointRow) (completion : SourceCompletion)
    (candidate : Option SourceCursor) (store : Store) :
    Except SourceOperationError (Option SourceCursor × Bool × Store) :=
  match candidate with
  | some next =>
      if completion.allowsCheckpoint && advancesCheckpoint initial next then do
        let store ← writeCheckpoint source policy trade initial next completedAt store
        pure (some next, true, store)
      else
        pure (initial.map (·.cursor), false, store)
  | none => pure (initial.map (·.cursor), false, store)

/-- `commit_source_result`, inside its transaction. -/
def commitSource (source : SourceId) (policy : EvidencePolicyDigest) {trade : TradeId}
    (observedAt : ObservedAt) (initial : InitialState) (fetched : FetchedSource trade)
    (store : Store) : Except SourceOperationError (IngestOutcome × Store) := do
  require (readInitialState source policy trade store == initial) .generationConflict
  let records ← orError (admittedRecords source policy fetched.admitted) .storage
  let (inserted, store) ← (persistAll records .zero store).mapError .persistence
  let (dirtyGeneration, store) ←
    markDirty inserted.relevant trade policy observedAt.get initial.dirty store
  let (checkpoint, checkpointAdvanced, store) ←
    commitCheckpoint source policy trade observedAt.get initial.checkpoint fetched.completion
      fetched.cursorCandidate store
  pure ({
    completion := fetched.completion
    receivedEvents := fetched.receivedEvents
    admittedEvents := fetched.admitted.length
    rejectedEvents := fetched.rejectedEvents
    duplicateEvents := fetched.duplicateEvents
    inserted, checkpoint, checkpointAdvanced, dirtyGeneration
    dirtyGenerationAdvanced := inserted.relevant }, store)

/-- `commit_source_result`. -/
def commitSourceResult (disposition : Disposition) (source : SourceId)
    (policy : EvidencePolicyDigest) {trade : TradeId} (observedAt : ObservedAt)
    (initial : InitialState) (fetched : FetchedSource trade) (store : Store) :
    Except IngestErrorKind IngestOutcome × Store :=
  transaction mapIngestError disposition (commitSource source policy observedAt initial fetched)
    store

/-- What `ingest_rhi_subscribed_trade_event` commits for one delivered event: a complete result
whose only event is also its cursor candidate. -/
def subscribedResult (admitted : AdmittedEvent) : FetchedSource admitted.event.tradeId where
  completion := .complete
  receivedEvents := 1
  duplicateEvents := 0
  admitted := [admitted]
  rejectedEvents := 0
  cursorCandidate := some admitted.event.cursor
  same_trade := by simp

end Ingest

end Rhi
