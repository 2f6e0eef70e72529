import Rhi.Attempt
import Rhi.Lib.BinarySearch

/-!
# Evidence manifests

Materialization of a committed attempt: one source result per request, one observation per fact,
and one entry per distinct mutation for the reducer.  The encoding of a manifest, its coverage and
the reduction of a trade belong to the shared evidence library, which enters as a parameter.
-/

namespace Rhi

open Transactional

/-- `RadrootsTradeEvidenceSourceCompletionV1`. -/
inductive ManifestCompletion where
  | complete
  | incomplete
  | unsupported
deriving DecidableEq, Repr

/-- `map_completion`. -/
def SourceCompletion.toManifest : SourceCompletion → ManifestCompletion
  | .complete => .complete
  | .unsupported => .unsupported
  | .incompleteTimeout | .incompleteUnavailable | .incompleteResourceLimit
  | .incompleteUnknown => .incomplete

/-- `RadrootsTradeEvidenceManifestSourceResultV1`. -/
structure ManifestSource where
  sourceId : SourceId
  required : Bool
  completion : ManifestCompletion
  admittedEventCount : Nat
  resultDigest : Digest
deriving DecidableEq, Repr

/-- `RadrootsTradeEvidenceManifestObservationV1`. -/
structure ManifestObservation where
  sourceId : SourceId
  mutationId : MutationId
  eventId : EventId
  signedEventDigest : Digest
  provenanceDigest : Digest
deriving DecidableEq, Repr

/-- `RadrootsTradeEvidenceCoverageV1`. -/
inductive Coverage where
  | missing
  | partly
  | scopeSatisfied
  | unsupported
deriving DecidableEq, Repr

/-- `RadrootsTradeEvidenceStateV1`. -/
inductive EvidenceState where
  | missing
  | queryPartial
  | complete
  | unsupportedVersion
deriving DecidableEq, Repr

/-- The arguments of `RadrootsTradeEvidenceManifestV1::new`; the prerequisites are satisfied in
every call the daemon makes. -/
structure ManifestContent where
  tradeId : TradeId
  generation : Nat
  policyDigest : EvidencePolicyDigest
  observedAt : Nat
  sources : List ManifestSource
  observations : List ManifestObservation
deriving DecidableEq, Repr

/-- `RadrootsTradeEvidenceManifestV1`. -/
structure SharedManifest where
  content : ManifestContent
  canonicalBytes : List UInt8
  digest : Digest
  coverage : Coverage
deriving DecidableEq, Repr

/-- `RadrootsTradeProjectionV1`, as the evaluation of a claim reads it.  The digest is absent when
its text is not a digest. -/
structure SharedProjection where
  rootMutation : Option MutationId
  projectionDigest : Option Digest
  evidenceState : EvidenceState
  issueCount : Nat
  claims : List MutationId
  activeClaims : List MutationId
  contestedClaims : List MutationId
  cancelledClaims : List MutationId
  agreed : Bool
deriving DecidableEq, Repr

/-- The shared trade evidence library. -/
class TradeEvidence where
  /-- A decoded mutation. -/
  Mutation : Type
  mutationId : Mutation → Option MutationId
  tradeId : Mutation → TradeId
  /-- `RadrootsTradeEvidenceSourceIdV1::parse` succeeds. -/
  acceptsSourceId : SourceId → Bool
  /-- `RadrootsTradeEvidenceSourceResultV1::new` succeeds. -/
  acceptsSourceResult : Bool → ManifestCompletion → Nat → Bool
  /-- `RadrootsTradeEvidenceManifestV1::new`. -/
  manifest : ManifestContent → Option SharedManifest
  /-- `trade_mutation_from_canonical_content` of UTF-8 content. -/
  decode : List UInt8 → Option Mutation
  /-- `reduce_trade_records`. -/
  reduce : TradeId → List (EventId × Mutation) → EvidenceState → Nat → SharedProjection

section Material

/-- `RhiReducerMutationMaterial`. -/
structure ReducerMutation where
  mutationId : MutationId
  eventId : EventId
  canonicalContent : List UInt8
deriving DecidableEq, Repr

/-- `RHI_REDUCER_MAXIMUM_MUTATIONS`. -/
def reducerMaximumMutations : Nat := 65536

/-- `RHI_REDUCER_MAXIMUM_MUTATION_MATERIAL_BYTES`. -/
def reducerMaximumMaterialBytes : Nat := 134217728

/-- `material_lengths_within_bounds`. -/
def materialWithinBounds (materials : List ReducerMutation) : Bool :=
  decide (materials.length ≤ reducerMaximumMutations ∧
    (materials.map (·.canonicalContent.length)).sum ≤ reducerMaximumMaterialBytes)

def ReducerMutation.ofFact (fact : ReplayFact) : ReducerMutation where
  mutationId := fact.record.mutationId
  eventId := fact.record.eventId
  canonicalContent := fact.record.canonicalContent

/-- The entry of a mutation after one more of its facts: the smallest event identity is kept. -/
def ReducerMutation.merge (current : ReducerMutation) (fact : ReplayFact) : ReducerMutation :=
  if fact.record.eventId < current.eventId then
    { current with
      eventId := fact.record.eventId, canonicalContent := fact.record.canonicalContent }
  else
    current

/-- One entry of the ordered map from mutation identities to material. -/
def enterMutation (fact : ReplayFact) : List ReducerMutation → List ReducerMutation
  | [] => [.ofFact fact]
  | current :: rest =>
      if fact.record.mutationId < current.mutationId then
        .ofFact fact :: current :: rest
      else if fact.record.mutationId = current.mutationId then
        current.merge fact :: rest
      else
        current :: enterMutation fact rest

/-- The reducer material of a sequence of facts. -/
def reducerMutations (facts : List ReplayFact) : List ReducerMutation :=
  facts.foldl (fun materials fact => enterMutation fact materials) []

/-- `RhiCommittedManifestMaterial`. -/
structure ManifestMaterial where
  attemptId : AttemptId
  jobId : JobId
  tradeId : TradeId
  generation : Nat
  policyDigest : EvidencePolicyDigest
  latestFinished : Nat
  sources : List ManifestSource
  observations : List ManifestObservation
  reducerMutations : List ReducerMutation
deriving DecidableEq, Repr

/-- The text of a completion class. -/
def SourceCompletion.code : SourceCompletion → String
  | .complete => "complete"
  | .incompleteTimeout => "incomplete_timeout"
  | .incompleteUnavailable => "incomplete_unavailable"
  | .incompleteResourceLimit => "incomplete_resource_limit"
  | .incompleteUnknown => "incomplete_unknown"
  | .unsupported => "unsupported"

/-- The text of a mutation contract. -/
def MutationKind.contractId : MutationKind → String
  | .proposal => "radroots.trade.proposal.v1"
  | .decision => "radroots.trade.decision.v1"
  | .revisionProposal => "radroots.trade.revision_proposal.v1"
  | .revisionDecision => "radroots.trade.revision_decision.v1"
  | .cancellation => "radroots.trade.cancellation.v1"

/-- The bytes one fact contributes to an inventory digest. -/
def ReplayFact.inventoryBytes (fact : ReplayFact) : List UInt8 :=
  toBeBytes 32 fact.record.mutationId.toNat ++ toBeBytes 16 fact.record.tradeId.toNat ++
    framed (textBytes fact.record.contract.contractId) ++ toBeBytes 2 fact.record.schemaVersion ++
    toBeBytes 32 fact.record.eventId.toNat ++ toBeBytes 64 fact.record.eventSignature.toNat ++
    toBeBytes 32 fact.record.authorPubkey.toNat ++ toBeBytes 4 fact.record.eventKind ++
    toBeBytes 8 fact.record.authoredAt ++ framed fact.record.canonicalContent ++
    framed fact.record.canonicalEventJson ++ toBeBytes 8 fact.observedAt.get

variable [Sha256]

/-- `accepted_inventory_digest_for_facts`. -/
def acceptedInventoryDigest (facts : List ReplayFact) : Digest :=
  Sha256.digest (domainBytes "radroots.rhi.reconciliation_source_inventory.v1" ++
    toBeBytes 4 facts.length ++ facts.flatMap (·.inventoryBytes))

/-- `update_optional_u64`. -/
def optionalBytes : Option Nat → List UInt8
  | some value => 1 :: toBeBytes 8 value
  | none => [0]

/-- `source_result_digest`. -/
def sourceResultDigest (attempt : AttemptId) (ordinal : Nat) (replay : SourceReplay) : Digest :=
  Sha256.digest (domainBytes "radroots.rhi.reconciliation_manifest_source_result.v1" ++
    toBeBytes 32 attempt.toNat ++ toBeBytes 4 ordinal ++ toBeBytes 32 replay.plan.requestId.toNat ++
    framed (textBytes replay.plan.sourceId.text) ++ toBeBytes 16 replay.plan.tradeId.toNat ++
    flagByte replay.plan.required ++ toBeBytes 32 replay.plan.policyDigest.toNat ++
    toBeBytes 32 replay.plan.selectorDigest.toNat ++ toBeBytes 32 replay.plan.id.toNat ++
    framed (textBytes replay.result.outcome.code) ++ toBeBytes 8 replay.result.startedAt ++
    toBeBytes 8 replay.result.finishedAt ++ toBeBytes 4 replay.result.acceptedEventCount ++
    toBeBytes 8 replay.result.acceptedEventBytes ++
    toBeBytes 32 (acceptedInventoryDigest replay.facts).toNat ++
    toBeBytes 4 replay.duplicateObservations ++
    optionalBytes (replay.firstObservedAt.map (·.get)) ++ cursorBytes replay.plan.priorCursor ++
    toBeBytes 8 replay.plan.overlapSeconds ++ toBeBytes 8 replay.plan.since ++
    cursorBytes replay.cursorCandidate ++ flagByte replay.eligibleCursor.isSome)

/-- `manifest_observation`. -/
def manifestObservation (replay : SourceReplay) (fact : ReplayFact) : ManifestObservation where
  sourceId := replay.plan.sourceId
  mutationId := fact.record.mutationId
  eventId := fact.record.eventId
  signedEventDigest := Sha256.digest fact.record.canonicalEventJson
  provenanceDigest := Sha256.digest (domainBytes "radroots.rhi.evidence_provenance.v1" ++
    framed (textBytes replay.plan.sourceId.text) ++
    framed (textBytes "trade_mutation_lineage_v1") ++
    toBeBytes 32 replay.plan.policyDigest.toNat ++ toBeBytes 32 fact.record.eventId.toNat ++
    toBeBytes 64 fact.record.eventSignature.toNat ++ toBeBytes 8 fact.observedAt.get)

def manifestSource (attempt : AttemptId) (ordinal : Nat) (replay : SourceReplay) :
    ManifestSource where
  sourceId := replay.plan.sourceId
  required := replay.plan.required
  completion := replay.result.outcome.toManifest
  admittedEventCount := replay.result.acceptedEventCount
  resultDigest := sourceResultDigest attempt ordinal replay

variable [TradeEvidence]

/-- `committed_manifest_material`. -/
def committedManifestMaterial (plan : AttemptPlan) (replays : List SourceReplay) :
    Option ManifestMaterial := do
  let first ← replays.head?
  guard (plan.inputGeneration ≠ 0)
  guard (replays.all fun replay => replay.plan.tradeId == first.plan.tradeId &&
    replay.plan.policyDigest == plan.policyDigest &&
    TradeEvidence.acceptsSourceId replay.plan.sourceId &&
    TradeEvidence.acceptsSourceResult replay.plan.required replay.result.outcome.toManifest
      replay.result.acceptedEventCount)
  let materials := reducerMutations (replays.flatMap (·.facts))
  guard (materialWithinBounds materials)
  pure {
    attemptId := plan.id
    jobId := plan.jobId
    tradeId := first.plan.tradeId
    generation := plan.inputGeneration
    policyDigest := plan.policyDigest
    latestFinished := (replays.map (·.result.finishedAt)).foldl max 0
    sources := replays.mapIdx fun ordinal replay => manifestSource plan.id ordinal replay
    observations := replays.flatMap fun replay => replay.facts.map (manifestObservation replay)
    reducerMutations := materials }

end Material

section Reduction

/-- `RhiReconciliationManifest`. -/
structure Manifest where
  shared : SharedManifest
  attemptId : AttemptId
  jobId : JobId
  reducerMutations : List ReducerMutation
deriving DecidableEq, Repr

inductive ManifestError where
  | invalidObservationTime
  | invalidCommittedInventory
deriving DecidableEq, Repr

inductive ReducerError where
  | invalidManifest
  | projectionUnavailable
deriving DecidableEq, Repr

/-- `RhiReconciliationProjection`. -/
structure Projection where
  manifest : Manifest
  shared : SharedProjection
  digest : Option Digest
deriving DecidableEq, Repr

/-- `RhiReconciliationReasonCode`. -/
inductive ReasonCode where
  | requiredEvidenceMissing
  | requiredSourceIncomplete
  | requiredSourceUnsupported
  | projectionDigestUnavailable
  | governingSchemaUnsupported
  | reducerIssueUnresolved
  | agreementClaimMissing
  | agreementClaimUnresolved
  | scopeSatisfied
  | agreementClaimCancelled
deriving DecidableEq, Repr

/-- `RhiReconciliationEvaluation`. -/
structure Evaluation where
  projection : Projection
  claimMutationId : MutationId
  outcome : EvidenceOutcome
  reason : ReasonCode
deriving DecidableEq, Repr

/-- `classify_evaluation` of one claim of a shared projection. -/
def classifyEvaluation (coverage : Coverage) (shared : SharedProjection) (digest : Option Digest)
    (claim : MutationId) : EvidenceOutcome × ReasonCode :=
  match coverage with
  | .missing => (.indeterminate, .requiredEvidenceMissing)
  | .partly => (.indeterminate, .requiredSourceIncomplete)
  | .unsupported => (.indeterminate, .requiredSourceUnsupported)
  | .scopeSatisfied =>
      if digest.isNone then
        (.indeterminate, .projectionDigestUnavailable)
      else
        match shared.evidenceState with
        | .missing => (.indeterminate, .requiredEvidenceMissing)
        | .queryPartial => (.indeterminate, .requiredSourceIncomplete)
        | .unsupportedVersion => (.indeterminate, .governingSchemaUnsupported)
        | .complete =>
            if shared.issueCount ≠ 0 ∨ claim ∈ shared.contestedClaims ∨
                (claim ∈ shared.activeClaims ∧ claim ∈ shared.cancelledClaims) then
              (.indeterminate, .reducerIssueUnresolved)
            else if claim ∉ shared.claims then
              (.indeterminate, .agreementClaimMissing)
            else if claim ∈ shared.activeClaims ∧ shared.agreed = true then
              (.valid, .scopeSatisfied)
            else if claim ∈ shared.cancelledClaims ∧ claim ∉ shared.activeClaims then
              (.invalid, .agreementClaimCancelled)
            else
              (.indeterminate, .agreementClaimUnresolved)

/-- `evaluate_rhi_reconciliation_claim`. -/
def evaluateClaim (projection : Projection) (claim : MutationId) : Evaluation :=
  let (outcome, reason) := classifyEvaluation projection.manifest.shared.coverage
    projection.shared projection.digest claim
  ⟨projection, claim, outcome, reason⟩

/-- `evidence_state`. -/
def Coverage.evidenceState : Coverage → EvidenceState
  | .missing => .missing
  | .partly => .queryPartial
  | .scopeSatisfied => .complete
  | .unsupported => .unsupportedVersion

variable [TradeEvidence]

/-- `freeze_manifest`. -/
def freezeManifest (material : ManifestMaterial) (observedAt : Nat) :
    Except ManifestError Manifest := do
  require (decide ((material.latestFinished + 999) / 1000 ≤ observedAt ∧
    observedAt ≤ maxInteger)) .invalidObservationTime
  let shared ← orError (TradeEvidence.manifest {
    tradeId := material.tradeId
    generation := material.generation
    policyDigest := material.policyDigest
    observedAt
    sources := material.sources
    observations := material.observations }) .invalidCommittedInventory
  pure ⟨shared, material.attemptId, material.jobId, material.reducerMutations⟩

/-- The decoded mutations of a manifest, each from content that names the mutation it is kept
under. -/
def decodeMaterials (manifest : Manifest) : List ReducerMutation →
    Except ReducerError (List (EventId × TradeEvidence.Mutation))
  | [] => .ok []
  | material :: rest => do
      require (manifest.shared.content.observations.any fun observation =>
        observation.mutationId == material.mutationId &&
          observation.eventId == material.eventId) .invalidManifest
      let mutation ← orError (TradeEvidence.decode material.canonicalContent) .invalidManifest
      require (TradeEvidence.mutationId mutation == some material.mutationId &&
        TradeEvidence.tradeId mutation == manifest.shared.content.tradeId) .invalidManifest
      let mutations ← decodeMaterials manifest rest
      pure ((material.eventId, mutation) :: mutations)

variable [Sha256]

/-- `projection_digest`. -/
def projectionDigest (manifest : Manifest) (shared : Digest) : Digest :=
  Sha256.digest (domainBytes "radroots.rhi.reconciliation_projection.v1" ++ toBeBytes 4 1 ++
    framed (textBytes "radroots.trade.reducer.v1") ++ toBeBytes 2 1 ++
    toBeBytes 32 manifest.shared.digest.toNat ++
    toBeBytes 32 manifest.shared.content.policyDigest.toNat ++ toBeBytes 32 shared.toNat)

/-- `reduce_rhi_reconciliation_manifest`; the shared reducer names its own contract and the trade
it was given. -/
def reduceManifest (manifest : Manifest) : Except ReducerError Projection := do
  require (materialWithinBounds manifest.reducerMutations) .invalidManifest
  require (manifest.shared.content.observations.all fun observation =>
    (Search.binarySearch (fun material : ReducerMutation => material.mutationId.toNat)
      observation.mutationId.toNat manifest.reducerMutations).isSome) .invalidManifest
  let mutations ← decodeMaterials manifest manifest.reducerMutations
  let shared := TradeEvidence.reduce manifest.shared.content.tradeId mutations
    manifest.shared.coverage.evidenceState manifest.shared.content.observedAt
  pure { manifest, shared, digest := shared.projectionDigest.map (projectionDigest manifest) }

end Reduction

end Rhi
