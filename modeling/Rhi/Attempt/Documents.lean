import Mathlib.Data.Set.List
import Rhi.Daemon.Planning
import Rhi.Manifest.Preimages

/-!
# Attempt plans of admitted documents

The planner reads the normalized document again and checks every value on its own, while admission
has checked them by the schema and by the relationships between them.  Both agree on everything but
the deadline of an attempt, which the schema lets be ten times as long.
-/

namespace Rhi

open Encoding Transactional

section Documents

/-- One entry of `/evidence/sources`, as the document has it. -/
structure SourceDocument where
  sourceId : String
  kind : String
  required : Bool
  selector : String
  deadlineMs : Nat
  lookbackSeconds : Nat
  overlapSeconds : Nat
deriving DecidableEq

/-- What the planner reads of a normalized document. -/
structure ReconciliationDocument where
  evidencePolicy : EvidencePolicyDigest
  queueCapacity : Nat
  leaseMs : Nat
  leaseRenewalMs : Nat
  maxAttempts : Nat
  initialBackoffMs : Nat
  maximumBackoffMs : Nat
  attemptDeadlineMs : Nat
  sourceResultEvents : Nat
  sourceResultBytes : Nat
  sources : List SourceDocument
deriving DecidableEq

def within (minimum maximum value : Nat) : Bool := decide (minimum ≤ value ∧ value ≤ maximum)

/-- `SOURCE_KIND`. -/
def sourceKind : String := "nostr_relay"

/-- `SOURCE_SELECTOR`. -/
def sourceSelector : String := "trade_mutation_lineage_v1"

/-- `evidence_source` of the schema. -/
def SourceDocument.schemaAdmits (source : SourceDocument) : Bool :=
  validSourceText source.sourceId && source.kind == sourceKind &&
    source.selector == sourceSelector && within 100 30000 source.deadlineMs &&
    within 60 2678400 source.lookbackSeconds && within 1 86400 source.overlapSeconds

/-- The schema of `/evidence/sources`, `/reconciliation` and `/resource_limits/source_results`. -/
def ReconciliationDocument.schemaAdmits (document : ReconciliationDocument) : Bool :=
  within 1 16 document.sources.length && document.sources.all (·.schemaAdmits) &&
    within 1 65536 document.queueCapacity && within 1000 300000 document.leaseMs &&
    within 100 150000 document.leaseRenewalMs && within 1 100 document.maxAttempts &&
    within 1 60000 document.initialBackoffMs && within 1 3600000 document.maximumBackoffMs &&
    within 100 300000 document.attemptDeadlineMs && within 1 4096 document.sourceResultEvents &&
    within 1 8388608 document.sourceResultBytes

/-- The order of the sources, as the loop of `validate_evidence` checks it. -/
def ascending : Option String → List SourceDocument → Bool
  | _, [] => true
  | prior, source :: rest =>
      !prior.any (fun prior => decide (source.sourceId ≤ prior)) &&
        ascending (some source.sourceId) rest

/-- `validate_evidence`, `validate_reconciliation` and `validate_exact_policy_limits`, without the
relays of the sources. -/
def ReconciliationDocument.relationshipsAdmit (document : ReconciliationDocument) : Bool :=
  ascending none document.sources &&
    document.sources.all (fun source =>
      decide (source.overlapSeconds ≤ source.lookbackSeconds)) &&
    document.sources.any (·.required) &&
    decide (document.leaseRenewalMs < document.leaseMs) &&
    decide (document.initialBackoffMs ≤ document.maximumBackoffMs) &&
    document.sources.all (fun source =>
      decide (source.deadlineMs ≤ document.attemptDeadlineMs)) &&
    document.sourceResultEvents == 4096 && document.sourceResultBytes == 8388608

/-- A document that passes admission. -/
def ReconciliationDocument.admitted (document : ReconciliationDocument) : Bool :=
  document.schemaAdmits && document.relationshipsAdmit

end Documents

section Planning

/-- `bounded_source_id`. -/
def boundedSourceId (source : SourceDocument) : Except AttemptError SourceId :=
  if valid : validSourceText source.sourceId = true then
    .ok ⟨source.sourceId, valid⟩
  else
    .error .invalidConfiguration

/-- `bounded_integer`. -/
def boundedInteger (minimum maximum value : Nat) :
    Except AttemptError { value : Nat // minimum ≤ value ∧ value ≤ maximum } :=
  if bounds : minimum ≤ value ∧ value ≤ maximum then
    .ok ⟨value, bounds⟩
  else
    .error .invalidConfiguration

/-- `RhiReconciliationJobPolicy::from_configuration`. -/
def ReconciliationDocument.jobPolicy (document : ReconciliationDocument) : Option JobPolicy :=
  JobPolicy.new document.queueCapacity document.leaseMs document.leaseRenewalMs document.maxAttempts
    document.initialBackoffMs document.maximumBackoffMs

variable [Sha256]

/-- One turn of the loop over the sources of `from_claim`. -/
def planSource (job : Job) (startedAt attemptDeadline deadline : Nat)
    (maximumEvents : { value : Nat // 1 ≤ value ∧ value ≤ sourceResultMaxEvents })
    (maximumBytes : { value : Nat // 1 ≤ value ∧ value ≤ sourceResultMaxBytes })
    (prior : Option String) (source : SourceDocument) : Except AttemptError SourceRequest := do
  let sourceId ← boundedSourceId source
  require (!prior.any (fun prior => decide (sourceId.text ≤ prior)) &&
    source.kind == sourceKind && source.selector == sourceSelector) .invalidConfiguration
  let sourceDeadlineMs ← boundedInteger 100 30000 source.deadlineMs
  require (decide (sourceDeadlineMs.val ≤ attemptDeadline)) .invalidConfiguration
  let sourceDeadline ← absoluteDeadline startedAt sourceDeadlineMs.val deadline
  let lookbackSeconds ← boundedInteger 60 2678400 source.lookbackSeconds
  pure {
    id := requestId (attemptId job.id job.attemptCount) sourceId source.required
      (selectorDigest job.tradeId) startedAt sourceDeadline lookbackSeconds.val maximumEvents.val
      maximumBytes.val
    sourceId
    tradeId := job.tradeId
    required := source.required
    selectorDigest := selectorDigest job.tradeId
    attemptStartedAt := startedAt
    deadline := sourceDeadline
    lookbackSeconds := lookbackSeconds.val
    maximumEvents := maximumEvents.val
    maximumBytes := maximumBytes.val
    events_fit := maximumEvents.property.2.trans_lt (by decide)
    bytes_fit := maximumBytes.property.2.trans_lt (by decide) }

/-- The loop over the sources of `from_claim`, with the source before. -/
def planSources (job : Job) (startedAt attemptDeadline deadline : Nat)
    (maximumEvents : { value : Nat // 1 ≤ value ∧ value ≤ sourceResultMaxEvents })
    (maximumBytes : { value : Nat // 1 ≤ value ∧ value ≤ sourceResultMaxBytes }) :
    Option String → List SourceDocument → Except AttemptError (List SourceRequest)
  | _, [] => .ok []
  | prior, source :: rest => do
      let request ← planSource job startedAt attemptDeadline deadline maximumEvents maximumBytes
        prior source
      let requests ← planSources job startedAt attemptDeadline deadline maximumEvents maximumBytes
        (some source.sourceId) rest
      pure (request :: requests)

/-- `RhiReconciliationAttemptPlan::from_claim`, on the document it reads. -/
def AttemptPlan.fromDocument (lease : Lease) (document : ReconciliationDocument)
    (startedAt : UnixMilliseconds) : Except AttemptError AttemptPlan := do
  require (lease.job.state == .leased && lease.job.attemptCount != 0) .invalidInput
  require (decide (startedAt.get < lease.leaseExpires.get)) .leaseExpired
  require (document.evidencePolicy == lease.job.policyDigest) .policyMismatch
  let policy ← orError document.jobPolicy .invalidConfiguration
  require (lease.job.attemptPolicyMatches policy) .policyMismatch
  let attemptDeadlineMs ← boundedInteger 100 30000 document.attemptDeadlineMs
  let deadline ← absoluteDeadline startedAt.get attemptDeadlineMs.val lease.leaseExpires.get
  let maximumEvents ← boundedInteger 1 sourceResultMaxEvents document.sourceResultEvents
  let maximumBytes ← boundedInteger 1 sourceResultMaxBytes document.sourceResultBytes
  require (within 1 16 document.sources.length) .invalidConfiguration
  let requests ← planSources lease.job startedAt.get attemptDeadlineMs.val deadline maximumEvents
    maximumBytes none document.sources
  pure {
    id := attemptId lease.job.id lease.job.attemptCount
    jobId := lease.job.id
    inputGeneration := lease.job.inputGeneration
    policyDigest := document.evidencePolicy
    attemptStartedAt := startedAt.get
    deadline, requests }

end Planning

section Refinement

/-- The entry of a configured source. -/
def SourceConfiguration.document (source : SourceConfiguration) : SourceDocument where
  sourceId := source.sourceId.text
  kind := sourceKind
  required := source.required
  selector := sourceSelector
  deadlineMs := source.deadline
  lookbackSeconds := source.lookbackSeconds
  overlapSeconds := source.overlapSeconds

/-- The document of a configuration. -/
def Configuration.document (configuration : Configuration) : ReconciliationDocument where
  evidencePolicy := configuration.policy
  queueCapacity := configuration.jobPolicy.queueCapacity
  leaseMs := configuration.jobPolicy.leaseDuration
  leaseRenewalMs := configuration.jobPolicy.leaseRenewal
  maxAttempts := configuration.jobPolicy.maxAttempts
  initialBackoffMs := configuration.jobPolicy.initialBackoff
  maximumBackoffMs := configuration.jobPolicy.maximumBackoff
  attemptDeadlineMs := configuration.attemptDeadline
  sourceResultEvents := sourceResultMaxEvents
  sourceResultBytes := sourceResultMaxBytes
  sources := configuration.sources.map (·.document)

theorem jobPolicy_document (configuration : Configuration) :
    configuration.document.jobPolicy = some configuration.jobPolicy := by
  unfold ReconciliationDocument.jobPolicy JobPolicy.new
  exact dif_pos configuration.jobPolicy.valid

/-- An admitted source is a configured one. -/
theorem exists_sourceConfiguration {source : SourceDocument} (schema : source.schemaAdmits = true)
    (overlap : source.overlapSeconds ≤ source.lookbackSeconds) :
    ∃ configured : SourceConfiguration, configured.document = source := by
  simp only [SourceDocument.schemaAdmits, within, Bool.and_eq_true, beq_iff_eq,
    decide_eq_true_eq] at schema
  rcases schema with ⟨⟨⟨⟨⟨valid, kind⟩, selector⟩, deadline⟩, lookback⟩, overlapBounds⟩
  refine ⟨⟨⟨source.sourceId, valid⟩, source.required, source.deadlineMs, source.lookbackSeconds,
    source.overlapSeconds, deadline, lookback, overlapBounds, overlap⟩, ?_⟩
  cases source
  simp_all [SourceConfiguration.document]

/-- The order the loop of `validate_evidence` checks. -/
theorem ascending_iff {prior : Option String} {sources : List SourceDocument} :
    ascending prior sources = true ↔
      (prior.toList ++ sources.map (·.sourceId)).IsChain (· < ·) := by
  induction sources generalizing prior with
  | nil => cases prior <;> simp [ascending]
  | cons source rest ih =>
      rw [ascending, Bool.and_eq_true, ih]
      cases prior with
      | none => simp
      | some prior => simp [List.isChain_cons_cons]

/-- An admitted document is the one of a configuration. -/
theorem exists_configuration {document : ReconciliationDocument}
    (admitted : document.admitted = true) :
    ∃ configuration : Configuration, configuration.document = document := by
  simp only [ReconciliationDocument.admitted, ReconciliationDocument.schemaAdmits,
    ReconciliationDocument.relationshipsAdmit, within, Bool.and_eq_true, decide_eq_true_eq,
    List.all_eq_true, beq_iff_eq] at admitted
  rcases admitted with ⟨⟨⟨⟨⟨⟨⟨⟨⟨⟨⟨count, schemas⟩, queue⟩, lease⟩, renewal⟩, attempts⟩, initial⟩,
    maximum⟩, attempt⟩, -⟩, -⟩, ⟨⟨⟨⟨⟨⟨⟨order, overlaps⟩, -⟩, renewed⟩, backoff⟩, deadlines⟩,
    events⟩, bytes⟩⟩
  have configured : document.sources ∈ Set.range (List.map SourceConfiguration.document) := by
    rw [Set.range_list_map]
    intro source sourceMem
    exact exists_sourceConfiguration (schemas source sourceMem) (overlaps source sourceMem)
  rcases configured with ⟨sources, same⟩
  have texts : document.sources.map (·.sourceId) = sources.map (·.sourceId.text) := by
    rw [← same, List.map_map]
    rfl
  have sorted : sources.Pairwise fun left right => left.sourceId.text < right.sourceId.text := by
    have chain := ascending_iff.mp order
    rw [Option.toList_none, List.nil_append, texts, List.isChain_iff_pairwise] at chain
    exact List.pairwise_map.mp chain
  refine ⟨{
    binding := ⟨0, document.evidencePolicy, 0, 0, 0, 0, 0, 0⟩
    jobPolicy := ⟨document.queueCapacity, document.leaseMs, document.leaseRenewalMs,
      document.maxAttempts, document.initialBackoffMs, document.maximumBackoffMs, queue, lease,
      renewal, renewed, attempts, initial, maximum, backoff⟩
    attemptDeadline := document.attemptDeadlineMs
    sources
    limits := ⟨0, 0, by decide, by decide⟩
    attempt_bounds := attempt
    sources_count := by rwa [← same, List.length_map] at count
    sources_sorted := sorted
    sources_deadline := ?_ }, ?_⟩
  · intro source sourceMem
    exact deadlines source.document (same ▸ List.mem_map_of_mem sourceMem)
  · cases document
    simp_all [Configuration.document, Configuration.policy, sourceResultMaxEvents,
      sourceResultMaxBytes]

variable [Sha256]

/-- The limits every admitted document sets. -/
def maximumEvents : { value : Nat // 1 ≤ value ∧ value ≤ sourceResultMaxEvents } :=
  ⟨sourceResultMaxEvents, by decide⟩

def maximumBytes : { value : Nat // 1 ≤ value ∧ value ≤ sourceResultMaxBytes } :=
  ⟨sourceResultMaxBytes, by decide⟩

theorem planSource_document (job : Job) (startedAt deadline : Nat) {attemptDeadline : Nat}
    {prior : Option String} {source : SourceConfiguration}
    (order : ∀ earlier ∈ prior, earlier < source.sourceId.text)
    (short : source.deadline ≤ attemptDeadline) :
    planSource job startedAt attemptDeadline deadline maximumEvents maximumBytes prior
      source.document = sourceRequest job startedAt deadline source := by
  have later : prior.any (fun prior => decide (source.sourceId.text ≤ prior)) = false := by
    cases prior with
    | none => rfl
    | some prior => simpa using order prior rfl
  have identified : boundedSourceId source.document = .ok source.sourceId :=
    dif_pos source.sourceId.valid
  have deadlined : boundedInteger 100 30000 source.document.deadlineMs =
      .ok ⟨source.deadline, source.deadline_bounds⟩ := dif_pos source.deadline_bounds
  have lookback : boundedInteger 60 2678400 source.document.lookbackSeconds =
      .ok ⟨source.lookbackSeconds, source.lookback_bounds⟩ := dif_pos source.lookback_bounds
  have checked : (!prior.any (fun earlier => decide (source.sourceId.text ≤ earlier)) &&
      source.document.kind == sourceKind && source.document.selector == sourceSelector) = true := by
    rw [later]
    rfl
  simp only [planSource, sourceRequest, identified, deadlined, lookback, checked, short, require,
    bind, Except.bind, decide_true, if_true]
  rfl

theorem planSources_document (job : Job) (startedAt deadline : Nat) {attemptDeadline : Nat}
    {prior : Option String} {sources : List SourceConfiguration}
    (order : (prior.toList ++ sources.map (·.sourceId.text)).IsChain (· < ·))
    (short : ∀ source ∈ sources, source.deadline ≤ attemptDeadline) :
    planSources job startedAt attemptDeadline deadline maximumEvents maximumBytes prior
      (sources.map (·.document)) = sourceRequests job startedAt deadline sources := by
  induction sources generalizing prior with
  | nil => rfl
  | cons source rest ih =>
      have first : ∀ earlier ∈ prior, earlier < source.sourceId.text := by
        rintro earlier rfl
        exact (List.isChain_cons_cons.mp order).1
      have next : ((some source.sourceId.text).toList ++
          rest.map (·.sourceId.text)).IsChain (· < ·) := by
        cases prior with
        | none => exact order
        | some prior => exact (List.isChain_cons_cons.mp order).2
      have rest' := ih next fun other member => short other (List.mem_cons_of_mem _ member)
      rw [List.map_cons, planSources, sourceRequests,
        planSource_document job startedAt deadline first (short source List.mem_cons_self)]
      simp only [SourceConfiguration.document] at rest' ⊢
      rw [rest']

/-- The planner reads the document of a configuration as the configuration. -/
theorem fromDocument_eq_fromClaim (lease : Lease) (configuration : Configuration)
    (startedAt : UnixMilliseconds) :
    AttemptPlan.fromDocument lease configuration.document startedAt =
      AttemptPlan.fromClaim lease configuration startedAt := by
  have chain : ((none : Option String).toList ++
      configuration.sources.map (·.sourceId.text)).IsChain (· < ·) := by
    rw [Option.toList_none, List.nil_append, List.isChain_iff_pairwise, List.pairwise_map]
    exact configuration.sources_sorted
  have planned (deadline : Nat) := planSources_document lease.job startedAt.get deadline chain
    configuration.sources_deadline
  have count : within 1 16 configuration.document.sources.length = true := by
    simpa [within, Configuration.document] using configuration.sources_count
  have events : boundedInteger 1 sourceResultMaxEvents configuration.document.sourceResultEvents =
      .ok maximumEvents := rfl
  have bytes : boundedInteger 1 sourceResultMaxBytes configuration.document.sourceResultBytes =
      .ok maximumBytes := rfl
  unfold AttemptPlan.fromDocument AttemptPlan.fromClaim
  rw [jobPolicy_document, events, bytes, count]
  by_cases short : configuration.attemptDeadline ≤ 30000
  · have attempt : boundedInteger 100 30000 configuration.document.attemptDeadlineMs =
        .ok ⟨configuration.attemptDeadline, configuration.attempt_bounds.1, short⟩ :=
      dif_pos ⟨configuration.attempt_bounds.1, short⟩
    rw [attempt]
    simp only [short, decide_true, require, if_true, orError, bind, Except.bind]
    simp only [Configuration.document] at planned ⊢
    simp only [planned]
    rfl
  · have attempt : boundedInteger 100 30000 configuration.document.attemptDeadlineMs =
        .error .invalidConfiguration := dif_neg fun bounds => short bounds.2
    rw [attempt]
    simp only [short, decide_false, require, Bool.false_eq_true, if_false, orError, bind,
      Except.bind]
    rfl

end Refinement

section Plans

variable [Sha256]

/-- The preimage of the identity of a request of an attempt. -/
def SourceRequest.preimage (attempt : AttemptId) (request : SourceRequest) : List UInt8 :=
  domainBytes "radroots.rhi.reconciliation_source_request.v1" ++
    toBeBytes 32 attempt.toNat ++ framed (textBytes request.sourceId.text) ++
    flagByte request.required ++ toBeBytes 32 request.selectorDigest.toNat ++
    toBeBytes 8 request.attemptStartedAt ++ toBeBytes 8 request.deadline ++
    toBeBytes 8 request.lookbackSeconds ++ toBeBytes 4 request.maximumEvents ++
    toBeBytes 8 request.maximumBytes

omit [Sha256] in
/-- Requests of one attempt with one preimage are for one source. -/
theorem sourceId_of_preimage {attempt : AttemptId} {left right : SourceRequest}
    (same : left.preimage attempt = right.preimage attempt) : left.sourceId = right.sourceId := by
  unfold SourceRequest.preimage at same
  simp only [List.append_assoc] at same
  replace same := List.append_cancel_left (List.append_cancel_left same)
  exact (delimited_source trivial trivial same).1

/-- A plan is well-formed: its deadlines are nested, its requests are those of the configured
sources in their order, and its identities are digests of what they name. -/
structure AttemptPlan.WellFormed (plan : AttemptPlan) (lease : Lease)
    (document : ReconciliationDocument) (startedAt : UnixMilliseconds) : Prop where
  id : plan.id = attemptId lease.job.id lease.job.attemptCount
  started : plan.attemptStartedAt = startedAt.get ∧
    ∀ request ∈ plan.requests, request.attemptStartedAt = startedAt.get
  deadlines : ∀ request ∈ plan.requests,
    startedAt.get < request.deadline ∧ request.deadline ≤ plan.deadline
  unexpired : plan.deadline ≤ lease.leaseExpires.get
  limited : plan.deadline ≤ startedAt.get + document.attemptDeadlineMs
  sources : plan.requests.map (·.sourceId.text) = document.sources.map (·.sourceId)
  ascending : plan.requests.Pairwise fun left right => left.sourceId.text < right.sourceId.text
  scope : ∀ request ∈ plan.requests, request.tradeId = lease.job.tradeId ∧
    request.selectorDigest = selectorDigest lease.job.tradeId
  identified : ∀ request ∈ plan.requests, request.id = Sha256.digest (request.preimage plan.id)
  distinct : plan.requests.Pairwise fun left right =>
    CollisionFree (left.preimage plan.id) (right.preimage plan.id) → left.id ≠ right.id

/-- The request of one source, with the identity it is hashed to. -/
structure SourceRequest.Made (request : SourceRequest) (job : Job) (startedAt deadline : Nat)
    (source : SourceConfiguration) : Prop where
  fits : request.For job startedAt deadline source
  identified : request.id =
    Sha256.digest (request.preimage (attemptId job.id job.attemptCount))

theorem sourceRequest_made {job : Job} {startedAt deadline : Nat} {source : SourceConfiguration}
    {request : SourceRequest}
    (made : sourceRequest job startedAt deadline source = .ok request) :
    request.Made job startedAt deadline source := by
  refine ⟨sourceRequest_spec made, ?_⟩
  simp only [sourceRequest, bind_eq_ok, pure_eq_ok] at made
  rcases made with ⟨capped, -, rfl⟩
  rfl

theorem sourceRequests_made {job : Job} {startedAt deadline : Nat}
    {sources : List SourceConfiguration} {requests : List SourceRequest}
    (made : sourceRequests job startedAt deadline sources = .ok requests) :
    List.Forall₂ (fun request source => request.Made job startedAt deadline source) requests
      sources := by
  induction sources generalizing requests with
  | nil =>
      cases made
      exact .nil
  | cons source rest ih =>
      simp only [sourceRequests, bind_eq_ok, pure_eq_ok] at made
      rcases made with ⟨request, first, others, later, rfl⟩
      exact .cons (sourceRequest_made first) (ih later)

/-- Every request of a list was made for one of the sources. -/
theorem exists_source_of_made {job : Job} {startedAt deadline : Nat}
    {sources : List SourceConfiguration} {requests : List SourceRequest}
    (made : List.Forall₂ (fun request source => request.Made job startedAt deadline source)
      requests sources) : ∀ request ∈ requests, ∃ source ∈ sources,
        request.Made job startedAt deadline source := by
  induction made with
  | nil => simp
  | cons first _ ih =>
      intro request member
      rcases List.mem_cons.mp member with rfl | later
      · exact ⟨_, List.mem_cons_self, first⟩
      · rcases ih request later with ⟨source, sourceMem, of⟩
        exact ⟨source, List.mem_cons_of_mem _ sourceMem, of⟩

theorem sourceIds_of_made {job : Job} {startedAt deadline : Nat}
    {sources : List SourceConfiguration} {requests : List SourceRequest}
    (made : List.Forall₂ (fun request source => request.Made job startedAt deadline source)
      requests sources) :
    requests.map (·.sourceId.text) = sources.map (·.sourceId.text) := by
  induction made with
  | nil => rfl
  | cons first _ ih => rw [List.map_cons, List.map_cons, ih, first.fits.source_id]

theorem wellFormed_of_fromClaim {lease : Lease} {configuration : Configuration}
    {startedAt : UnixMilliseconds} {plan : AttemptPlan}
    (planned : AttemptPlan.fromClaim lease configuration startedAt = .ok plan) :
    plan.WellFormed lease configuration.document startedAt := by
  simp only [AttemptPlan.fromClaim, bind_eq_ok, require_eq_ok, decide_eq_true_eq,
    pure_eq_ok] at planned
  rcases planned with ⟨-, -, -, -, -, -, -, -, -, -, deadline, bounded, requests, requested, rfl⟩
  have made := sourceRequests_made requested
  have each := exists_source_of_made made
  rcases absoluteDeadline_spec bounded with ⟨least, later⟩
  have texts := sourceIds_of_made made
  have sorted : requests.Pairwise fun left right =>
      left.sourceId.text < right.sourceId.text := by
    refine List.pairwise_map.mp ?_
    rw [texts]
    exact List.pairwise_map.mpr configuration.sources_sorted
  exact {
    id := rfl
    started := ⟨rfl, fun request member => by
      rcases each request member with ⟨source, -, of⟩
      exact of.fits.started⟩
    deadlines := fun request member => by
      rcases each request member with ⟨source, -, of⟩
      exact ⟨of.fits.later, of.fits.before⟩
    unexpired := least ▸ Nat.min_le_right _ _
    limited := least ▸ Nat.min_le_left _ _
    sources := by
      rw [texts]
      simp [Configuration.document, SourceConfiguration.document, Function.comp_def]
    ascending := sorted
    scope := fun request member => by
      rcases each request member with ⟨source, -, of⟩
      exact ⟨of.fits.trade, of.fits.selector⟩
    identified := fun request member => by
      rcases each request member with ⟨source, -, of⟩
      exact of.identified
    distinct := by
      refine sorted.imp_of_mem ?_
      intro left right leftMem rightMem less free same
      rcases each left leftMem with ⟨_, -, leftOf⟩
      rcases each right rightMem with ⟨_, -, rightOf⟩
      rw [leftOf.identified, rightOf.identified] at same
      rw [sourceId_of_preimage (free same)] at less
      exact String.lt_irrefl _ less }

/-- The job and evidence policies of a document are those of a lease, and the deadlines of an
attempt that starts before the lease expires do not overflow. -/
structure ReconciliationDocument.Serves (document : ReconciliationDocument) (lease : Lease)
    (startedAt : UnixMilliseconds) : Prop where
  evidence : document.evidencePolicy = lease.job.policyDigest
  limits : ∀ policy ∈ document.jobPolicy, lease.job.attemptPolicyMatches policy = true
  unexpired : startedAt.get < lease.leaseExpires.get
  inRange : startedAt.get + document.attemptDeadlineMs ≤ maxInteger

/-- What is expected of planning: every plan is well-formed, and a document that serves the lease is
planned. -/
structure PlansWell (lease : Lease) (document : ReconciliationDocument)
    (startedAt : UnixMilliseconds) : Prop where
  wellFormed : ∀ plan, AttemptPlan.fromDocument lease document startedAt = .ok plan →
    plan.WellFormed lease document startedAt
  succeeds : document.Serves lease startedAt →
    ∃ plan, AttemptPlan.fromDocument lease document startedAt = .ok plan

/-- A claimed lease is planned well under an admitted document exactly if the deadline of the
attempt is one the planner accepts, or nothing is to be planned at all. -/
theorem plansWell_iff {owner : LeaseOwner} {now : UnixMilliseconds} {store next : Store}
    {lease : Lease} (claimed : claimNext owner now store = .ok (some lease, next))
    {document : ReconciliationDocument} (admitted : document.admitted = true)
    (startedAt : UnixMilliseconds) :
    PlansWell lease document startedAt ↔
      (document.Serves lease startedAt → document.attemptDeadlineMs ≤ 30000) := by
  rcases exists_configuration admitted with ⟨configuration, rfl⟩
  constructor
  · intro well serves
    rcases well.succeeds serves with ⟨plan, planned⟩
    rw [fromDocument_eq_fromClaim] at planned
    simp only [AttemptPlan.fromClaim, bind_eq_ok, require_eq_ok, decide_eq_true_eq] at planned
    rcases planned with ⟨-, -, -, -, -, -, -, -, -, short, -⟩
    exact short
  · intro short
    refine ⟨?_, ?_⟩
    · intro plan planned
      rw [fromDocument_eq_fromClaim] at planned
      exact wellFormed_of_fromClaim planned
    · intro serves
      rcases (row_of_claimNext claimed).2 with ⟨row, duration, id, revision, -, read⟩
      rw [fromDocument_eq_fromClaim]
      exact fromClaim_total read.leased (attempt_of_claimNext claimed).1 serves.unexpired
        serves.evidence (serves.limits _ (jobPolicy_document configuration)) (short serves)
        serves.inRange

end Plans

section Exceptions

namespace Sample.Documents

local instance : Sha256 := ⟨Hashing.sha256⟩

/-- The document of the configuration of the samples, with another deadline for its attempts. -/
def document (attemptDeadlineMs : Nat) : ReconciliationDocument :=
  { configuration.document with attemptDeadlineMs }

local instance : TradeEvidence := evidence

/-- The store in which the proposal of the samples is scheduled. -/
def scheduled : Store := (Daemon.exec proposed .initial).store

theorem lease_claimed :
    ∃ next, claimNext setting.owner claimedAt scheduled = .ok (some lease, next) := by
  have claimed : (claimNext setting.owner claimedAt scheduled).map (·.1) = .ok (some lease) := by
    decide +kernel
  cases result : claimNext setting.owner claimedAt scheduled with
  | error error =>
      rw [result] at claimed
      cases claimed
  | ok pair =>
      rcases pair with ⟨claim, next⟩
      rw [result] at claimed
      rw [← Except.ok.inj claimed]
      exact ⟨next, rfl⟩

theorem document_serves (attemptDeadlineMs : Nat) (short : attemptDeadlineMs ≤ 300000) :
    (document attemptDeadlineMs).Serves lease claimedAt where
  evidence := rfl
  limits := by
    intro policy member
    have same : some configuration.jobPolicy = some policy :=
      (jobPolicy_document configuration).symm.trans member
    rw [← Option.some.inj same]
    decide +kernel
  unexpired := by decide
  inRange := by
    have clock : claimedAt.get + 300000 ≤ maxInteger := by decide
    simp only [document]
    omega

/-- An attempt may take a millisecond longer than the planner accepts. -/
theorem long_attempt_refused :
    (document 30001).admitted = true ∧
    (∃ next, claimNext setting.owner claimedAt scheduled = .ok (some lease, next)) ∧
    (document 30001).Serves lease claimedAt ∧
    AttemptPlan.fromDocument lease (document 30001) claimedAt = .error .invalidConfiguration ∧
    ¬PlansWell lease (document 30001) claimedAt := by
  have refused : AttemptPlan.fromDocument lease (document 30001) claimedAt =
      .error .invalidConfiguration := by
    decide +kernel
  refine ⟨by decide +kernel, lease_claimed, document_serves 30001 (by decide), refused, ?_⟩
  intro well
  rcases well.succeeds (document_serves 30001 (by decide)) with ⟨plan, planned⟩
  rw [refused] at planned
  cases planned

/-- The longest attempt the planner accepts. -/
theorem longest_attempt_planned : PlansWell lease (document 30000) claimedAt := by
  rcases lease_claimed with ⟨next, claimed⟩
  exact (plansWell_iff claimed (by decide +kernel) claimedAt).mpr fun _ => by decide

end Sample.Documents

end Exceptions

end Rhi
