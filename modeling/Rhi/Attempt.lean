import Rhi.Configuration

/-!
# Reconciliation attempts

Planning of one claimed job: a request per configured source, the overlap window each request
resumes from, and the canonical replay a fetched result is turned into.  Every identity is the
digest of what it stands for.
-/

namespace Rhi

open Relational Transactional

section Identities

variable [Sha256]

/-- `hash_framed` and `update_framed`: a byte string with its length in front. -/
def framed (bytes : List UInt8) : List UInt8 :=
  toBeBytes 8 bytes.length ++ bytes

def textBytes (text : String) : List UInt8 :=
  text.toList.map fun character => UInt8.ofNat character.toNat

def flagByte (flag : Bool) : List UInt8 :=
  [if flag then 1 else 0]

/-- `attempt_id`. -/
def attemptId (job : JobId) (attemptCount : Nat) : AttemptId :=
  Sha256.digest (domainBytes "radroots.rhi.reconciliation_attempt.v1" ++
    toBeBytes 32 job.toNat ++ toBeBytes 2 attemptCount)

/-- `selector_digest`. -/
def selectorDigest (trade : TradeId) : Digest :=
  Sha256.digest (domainBytes "radroots.rhi.reconciliation_selector.v1" ++
    framed (textBytes "trade_mutation_lineage_v1") ++ toBeBytes 4 eventKinds.length ++
    eventKinds.flatMap (toBeBytes 4) ++ textBytes "d" ++ toBeBytes 16 trade.toNat)

/-- `request_id`. -/
def requestId (attempt : AttemptId) (source : SourceId) (required : Bool) (selector : Digest)
    (startedAt deadline lookbackSeconds maximumEvents maximumBytes : Nat) : Digest :=
  Sha256.digest (domainBytes "radroots.rhi.reconciliation_source_request.v1" ++
    toBeBytes 32 attempt.toNat ++ framed (textBytes source.text) ++ flagByte required ++
    toBeBytes 32 selector.toNat ++ toBeBytes 8 startedAt ++ toBeBytes 8 deadline ++
    toBeBytes 8 lookbackSeconds ++ toBeBytes 4 maximumEvents ++ toBeBytes 8 maximumBytes)

/-- `update_optional_cursor`. -/
def cursorBytes : Option SourceCursor → List UInt8
  | some cursor => 1 :: (toBeBytes 8 cursor.createdAt ++ toBeBytes 32 cursor.eventId.toNat)
  | none => [0]

/-- `replay_id`. -/
def replayId (request : Digest) (prior : Option SourceCursor) (overlapSeconds since : Nat) :
    Digest :=
  Sha256.digest (domainBytes "radroots.rhi.reconciliation_source_replay.v1" ++
    toBeBytes 32 request.toNat ++ cursorBytes prior ++ toBeBytes 8 overlapSeconds ++
    toBeBytes 8 since)

end Identities

section Planning

/-- `RhiReconciliationSourceRequest`. -/
structure SourceRequest where
  id : Digest
  sourceId : SourceId
  tradeId : TradeId
  required : Bool
  selectorDigest : Digest
  attemptStartedAt : Nat
  deadline : Nat
  lookbackSeconds : Nat
  maximumEvents : Nat
  maximumBytes : Nat
  events_fit : maximumEvents < 2 ^ 32
  bytes_fit : maximumBytes < 2 ^ 64
deriving DecidableEq, Repr

/-- `RhiReconciliationAttemptPlan`. -/
structure AttemptPlan where
  id : AttemptId
  jobId : JobId
  inputGeneration : Nat
  policyDigest : EvidencePolicyDigest
  attemptStartedAt : Nat
  deadline : Nat
  requests : List SourceRequest
deriving DecidableEq, Repr

inductive AttemptError where
  | invalidInput
  | invalidConfiguration
  | policyMismatch
  | leaseExpired
deriving DecidableEq, Repr

/-- `absolute_deadline`. -/
def absoluteDeadline (startedAt duration ceiling : Nat) : Except AttemptError Nat := do
  require (decide (startedAt + duration ≤ maxInteger)) .invalidInput
  let deadline := min (startedAt + duration) ceiling
  require (decide (startedAt < deadline)) .invalidInput
  pure deadline

/-- `attempt_policy_matches`. -/
def Job.attemptPolicyMatches (job : Job) (expected : JobPolicy) : Bool :=
  job.policy.leaseDuration == expected.leaseDuration &&
    job.policy.leaseRenewal == expected.leaseRenewal &&
    job.policy.maxAttempts == expected.maxAttempts &&
    job.policy.initialBackoff == expected.initialBackoff &&
    job.policy.maximumBackoff == expected.maximumBackoff

variable [Sha256]

/-- The request of one configured source. -/
def sourceRequest (job : Job) (startedAt deadline : Nat) (source : SourceConfiguration) :
    Except AttemptError SourceRequest := do
  let sourceDeadline ← absoluteDeadline startedAt source.deadline deadline
  let attempt := attemptId job.id job.attemptCount
  let selector := selectorDigest job.tradeId
  pure {
    id := requestId attempt source.sourceId source.required selector startedAt sourceDeadline
      source.lookbackSeconds sourceResultMaxEvents sourceResultMaxBytes
    sourceId := source.sourceId
    tradeId := job.tradeId
    required := source.required
    selectorDigest := selector
    attemptStartedAt := startedAt
    deadline := sourceDeadline
    lookbackSeconds := source.lookbackSeconds
    maximumEvents := sourceResultMaxEvents
    maximumBytes := sourceResultMaxBytes
    events_fit := by decide
    bytes_fit := by decide }

/-- The requests of all configured sources, in their order. -/
def sourceRequests (job : Job) (startedAt deadline : Nat) :
    List SourceConfiguration → Except AttemptError (List SourceRequest)
  | [] => .ok []
  | source :: rest => do
      let request ← sourceRequest job startedAt deadline source
      let requests ← sourceRequests job startedAt deadline rest
      pure (request :: requests)

/-- `RhiReconciliationAttemptPlan::from_claim`.  The order of the sources and their deadlines are
part of the configuration type. -/
def AttemptPlan.fromClaim (lease : Lease) (configuration : Configuration)
    (startedAt : UnixMilliseconds) : Except AttemptError AttemptPlan := do
  require (lease.job.state == .leased && lease.job.attemptCount != 0) .invalidInput
  require (decide (startedAt.get < lease.leaseExpires.get)) .leaseExpired
  require (configuration.policy == lease.job.policyDigest) .policyMismatch
  require (lease.job.attemptPolicyMatches configuration.jobPolicy) .policyMismatch
  require (decide (configuration.attemptDeadline ≤ 30000)) .invalidConfiguration
  let deadline ←
    absoluteDeadline startedAt.get configuration.attemptDeadline lease.leaseExpires.get
  let requests ← sourceRequests lease.job startedAt.get deadline configuration.sources
  pure {
    id := attemptId lease.job.id lease.job.attemptCount
    jobId := lease.job.id
    inputGeneration := lease.job.inputGeneration
    policyDigest := configuration.policy
    attemptStartedAt := startedAt.get
    deadline, requests }

end Planning

section Replay

/-- `RhiReconciliationSourceReplayPlan`, with the cursor it resumes from. -/
structure ReplayPlan where
  id : Digest
  requestId : Digest
  sourceId : SourceId
  tradeId : TradeId
  required : Bool
  policyDigest : EvidencePolicyDigest
  selectorDigest : Digest
  priorCursor : Option SourceCursor
  overlapSeconds : Nat
  since : Nat
deriving DecidableEq, Repr

inductive ReplayError where
  | invalidInput
  | invalidConfiguration
  | policyMismatch
  | resourceLimit
  | mutationConflict
  | signedEventConflict
deriving DecidableEq, Repr

/-- The inclusive start of a query: the overlap before the cursor, or the lookback before the
attempt when there is none. -/
def replaySince (startedAt lookbackSeconds overlapSeconds : Nat) : Option SourceCursor → Nat
  | none => startedAt / 1000 - lookbackSeconds
  | some cursor => cursor.createdAt - overlapSeconds

/-- `RhiReconciliationSourceReplayPlan::from_request`.  The prior cursor was read for the scope of
the request, so that its scope always matches. -/
def ReplayPlan.fromRequest [Sha256] (attempt : AttemptPlan) (request : SourceRequest)
    (configuration : Configuration) (prior : Option SourceCursor) :
    Except ReplayError ReplayPlan := do
  require (attempt.requests.any fun candidate => candidate.id == request.id) .invalidInput
  require (configuration.policy == attempt.policyDigest) .policyMismatch
  let source ← orError (configuration.sources.find? fun source =>
    source.sourceId == request.sourceId) .invalidConfiguration
  require (source.lookbackSeconds == request.lookbackSeconds) .invalidConfiguration
  let since :=
    replaySince request.attemptStartedAt source.lookbackSeconds source.overlapSeconds prior
  pure {
    id := replayId request.id prior source.overlapSeconds since
    requestId := request.id
    sourceId := request.sourceId
    tradeId := request.tradeId
    required := request.required
    policyDigest := configuration.policy
    selectorDigest := request.selectorDigest
    priorCursor := prior
    overlapSeconds := source.overlapSeconds
    since }

/-- `RhiReconciliationSourceResult`. -/
structure SourceResult where
  requestId : Digest
  outcome : SourceCompletion
  startedAt : Nat
  finishedAt : Nat
  acceptedEventCount : Nat
  acceptedEventBytes : Nat
deriving DecidableEq, Repr

/-- `RhiReconciliationSourceResult::new`: a result is a timeout exactly when it did not finish
before the deadline of its request. -/
def SourceResult.new (request : SourceRequest) (outcome : SourceCompletion)
    (startedAt finishedAt acceptedEventCount acceptedEventBytes : Nat) : Option SourceResult :=
  if request.attemptStartedAt ≤ startedAt ∧ startedAt ≤ finishedAt ∧
      startedAt < request.deadline ∧
      (outcome = .incompleteTimeout ↔ request.deadline ≤ finishedAt) ∧
      acceptedEventCount ≤ request.maximumEvents ∧ acceptedEventBytes ≤ request.maximumBytes ∧
      (acceptedEventCount = 0 ↔ acceptedEventBytes = 0) ∧
      (outcome = .unsupported → acceptedEventCount = 0 ∧ acceptedEventBytes = 0) then
    some ⟨request.id, outcome, startedAt, finishedAt, acceptedEventCount, acceptedEventBytes⟩
  else
    none

/-- `ReplayFact`: a durable record with its provenance. -/
structure ReplayFact where
  record : PersistenceRecord
  originalBytes : Nat
  observedAt : ObservedAt
deriving DecidableEq, Repr

/-- The checks `finish` makes of one admitted event before it becomes a fact. -/
def replayFact (trade : TradeId) (startedAt finishedAt : Nat) (event : AdmittedEvent) :
    Except ReplayError ReplayFact := do
  require (event.event.tradeId == trade) .invalidInput
  require (decide (startedAt ≤ event.observedAt.get * 1000 + 999 ∧
    event.observedAt.get * 1000 ≤ finishedAt)) .invalidInput
  let record ← orError (PersistenceRecord.fromAdmitted event) .invalidInput
  pure ⟨record, event.rawLength, event.observedAt⟩

/-- `ingest_bounded_facts`, over the remaining room for events and bytes. -/
def ingestBoundedFacts (trade : TradeId) (startedAt finishedAt : Nat) :
    List AdmittedEvent → Nat → Nat → Except ReplayError (List ReplayFact)
  | [], _, _ => .ok []
  | event :: rest, events, bytes => do
      require (decide (0 < events)) .resourceLimit
      let fact ← replayFact trade startedAt finishedAt event
      require (decide (fact.originalBytes ≤ bytes)) .resourceLimit
      let facts ← ingestBoundedFacts trade startedAt finishedAt rest (events - 1)
        (bytes - fact.originalBytes)
      pure (fact :: facts)

/-- `compare_fact`. -/
def ReplayFact.before (left right : ReplayFact) : Prop :=
  left.record.authoredAt < right.record.authoredAt ∨
    (left.record.authoredAt = right.record.authoredAt ∧
      (left.record.eventId < right.record.eventId ∨
        (left.record.eventId = right.record.eventId ∧
          (left.record.eventSignature < right.record.eventSignature ∨
            (left.record.eventSignature = right.record.eventSignature ∧
              (left.observedAt.get < right.observedAt.get ∨
                (left.observedAt.get = right.observedAt.get ∧
                  left.originalBytes ≤ right.originalBytes)))))))

instance : DecidableRel ReplayFact.before := fun left right => by
  unfold ReplayFact.before
  infer_instance

/-- The greater of two cursors, the first when they are equal. -/
def SourceCursor.latest (current next : SourceCursor) : SourceCursor :=
  if current.lt next then next else current

/-- `CanonicalReplay`. -/
structure CanonicalReplay where
  facts : List ReplayFact
  duplicateObservations : Nat
  acceptedOriginalBytes : Nat
  cursorCandidate : Option SourceCursor
  firstObservedAt : Option ObservedAt
deriving DecidableEq, Repr

def CanonicalReplay.empty : CanonicalReplay := ⟨[], 0, 0, none, none⟩

/-- A further fact, with the cursor, the provenance and the bytes it brings. -/
def CanonicalReplay.append (replay : CanonicalReplay) (fact : ReplayFact) : CanonicalReplay :=
  let cursor : SourceCursor := ⟨fact.record.authoredAt, fact.record.eventId⟩
  { facts := replay.facts ++ [fact]
    duplicateObservations := replay.duplicateObservations
    acceptedOriginalBytes := replay.acceptedOriginalBytes + fact.originalBytes
    cursorCandidate := some (replay.cursorCandidate.elim cursor (·.latest cursor))
    firstObservedAt := some (replay.firstObservedAt.elim fact.observedAt fun current =>
      if fact.observedAt.get < current.get then fact.observedAt else current) }

/-- One turn of the loop of `canonicalize`.  Repetitions are counted in 32 bits, bytes in 64. -/
def CanonicalReplay.accept (replay : CanonicalReplay) (fact : ReplayFact) :
    Except ReplayError CanonicalReplay :=
  match replay.facts.find? fun known => known.record.eventId == fact.record.eventId &&
      known.record.eventSignature == fact.record.eventSignature with
  | some known => do
      require (known.record == fact.record) .signedEventConflict
      require (decide (replay.duplicateObservations + 1 < 2 ^ 32)) .resourceLimit
      pure { replay with duplicateObservations := replay.duplicateObservations + 1 }
  | none => do
      let known := replay.facts.find? fun known =>
        known.record.mutationId == fact.record.mutationId
      require (known.all fun known => known.record.mutationRow == fact.record.mutationRow)
        .mutationConflict
      require (decide (replay.acceptedOriginalBytes + fact.originalBytes < 2 ^ 64)) .resourceLimit
      pure (replay.append fact)

/-- `canonicalize`, over facts already in order. -/
def canonicalizeFrom : List ReplayFact → CanonicalReplay → Except ReplayError CanonicalReplay
  | [], replay => .ok replay
  | fact :: rest, replay => do
      let replay ← replay.accept fact
      canonicalizeFrom rest replay

def canonicalize (candidates : List ReplayFact) : Except ReplayError CanonicalReplay :=
  canonicalizeFrom (candidates.insertionSort ReplayFact.before) .empty

/-- `RhiReconciliationSourceReplay`. -/
structure SourceReplay where
  plan : ReplayPlan
  result : SourceResult
  duplicateObservations : Nat
  cursorCandidate : Option SourceCursor
  firstObservedAt : Option ObservedAt
  facts : List ReplayFact
deriving DecidableEq, Repr

/-- `RhiReconciliationSourceReplayPlan::finish`. -/
def ReplayPlan.finish (plan : ReplayPlan) (request : SourceRequest) (outcome : SourceCompletion)
    (startedAt finishedAt : Nat) (events : List AdmittedEvent) :
    Except ReplayError SourceReplay := do
  require (request.id == plan.requestId) .invalidInput
  let _ ← orError (SourceResult.new request outcome startedAt finishedAt 0 0) .invalidInput
  let candidates ← ingestBoundedFacts request.tradeId startedAt finishedAt events
    request.maximumEvents request.maximumBytes
  let canonical ← canonicalize candidates
  let result ← orError (SourceResult.new request outcome startedAt finishedAt
    canonical.facts.length canonical.acceptedOriginalBytes) .invalidInput
  pure {
    plan, result
    duplicateObservations := canonical.duplicateObservations
    cursorCandidate := canonical.cursorCandidate
    firstObservedAt := canonical.firstObservedAt
    facts := canonical.facts }

/-- `eligible_cursor`: only a complete result beyond the prior cursor may move the checkpoint. -/
def SourceReplay.eligibleCursor (replay : SourceReplay) : Option SourceCursor :=
  if replay.result.outcome = .complete then
    replay.cursorCandidate.filter fun candidate =>
      replay.plan.priorCursor.all fun prior => prior.lt candidate
  else
    none

end Replay

end Rhi
