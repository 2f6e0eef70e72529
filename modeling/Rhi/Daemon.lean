import Rhi.Fetch.Committable

/-!
# The daemon

The reconciliation worker and the source subscription share one store.  Each move below is one
transaction of one of the two tasks together with what the task computes around it, so that a list
of moves is an interleaving of the tasks.  Clock readings, entropy, the answers of relays and the
way each transaction ends are arguments of a move.
-/

namespace Rhi

open Relational Transactional

section Entropy

/-- `RHI_RUNTIME_JITTER_MAX_ENTROPY_DRAWS`. -/
def jitterMaxDraws : Nat := 16

/-- `sample_full_jitter`: draws in the uneven remainder of the range are rejected. -/
def sampleFullJitter (draws : List UInt64) (maximum : Nat) : Option Nat :=
  let range := maximum + 1
  ((draws.take jitterMaxDraws).find? fun draw =>
    decide ((2 ^ 64 - range) % range ≤ draw.toNat * range % 2 ^ 64)).map fun draw =>
      draw.toNat * range / 2 ^ 64

/-- `RhiReconciliationRetryDelayMilliseconds::new`. -/
def RetryDelay.new (milliseconds : Nat) : Option RetryDelay :=
  if valid : milliseconds ≤ 3600000 then some ⟨milliseconds, valid⟩ else none

/-- The delay the worker records for a failed attempt. -/
def Lease.sampleDelay (lease : Lease) (draws : List UInt64) : Option RetryDelay := do
  guard (lease.retryDelayUpperBound ≤ 3600000)
  let sample ← sampleFullJitter draws lease.retryDelayUpperBound
  RetryDelay.new sample

end Entropy

section Evaluation

variable [Sha256] [TradeEvidence]

/-- The part of `execute_reconciliation_attempt` between the commit of the replays and the
finalization: freeze, reduce, and evaluate the claim of the root mutation. -/
def evaluateMaterial (material : ManifestMaterial) (observedAt : Nat) : Option Evaluation := do
  let manifest ← (freezeManifest material observedAt).toOption
  let projection ← (reduceManifest manifest).toOption
  let claim ← projection.shared.rootMutation
  pure (evaluateClaim projection claim)

/-- `RhiReconciliationFinalizationFence`. -/
@[ext]
structure Fence where
  lease : Lease
  evaluation : Evaluation
  leased : lease.job.state = .leased
  attempted : lease.job.attemptCount ≠ 0
deriving Repr

instance : DecidableEq Fence :=
  fun _ _ => decidable_of_iff _ Fence.ext_iff.symm

/-- `RhiReconciliationFinalizationErrorKind`. -/
inductive PrepareErrorKind where
  | invalidMode
  | invalidInput
  | leaseLost
  | generationConflict
  | attemptUnavailable
  | projectionUnavailable
  | storage
  | commitOutcomeUnknown
deriving DecidableEq, Repr

/-- `map_transaction_error` of the finalization fence; the queue and the stored rows are not looked
at before the commit. -/
def mapPrepareError : Failure FinalizationOperationError → PrepareErrorKind
  | .outcomeUnknown => .commitOutcomeUnknown
  | .operation .leaseLost => .leaseLost
  | .operation .generationConflict => .generationConflict
  | .operation .attemptUnavailable => .attemptUnavailable
  | .operation .queueFull | .operation .conflict | .operation .storage | .aborted => .storage

/-- The identity check of `finalization_identity`. -/
def Evaluation.BelongsTo (evaluation : Evaluation) (lease : Lease) : Prop :=
  lease.job.state = .leased ∧ lease.job.attemptCount ≠ 0 ∧
    evaluation.projection.manifest.jobId = lease.job.id ∧
    evaluation.projection.manifest.attemptId = attemptId lease.job.id lease.job.attemptCount ∧
    evaluation.projection.manifest.shared.content.tradeId = lease.job.tradeId ∧
    evaluation.projection.manifest.shared.content.generation = lease.job.inputGeneration ∧
    evaluation.projection.manifest.shared.content.policyDigest = lease.job.policyDigest

instance (evaluation : Evaluation) (lease : Lease) : Decidable (evaluation.BelongsTo lease) := by
  unfold Evaluation.BelongsTo
  infer_instance

/-- `prepare_finalization`; its transaction only reads. -/
def prepareFinalization (mode : HostMode) (disposition : Disposition) (lease : Lease)
    (evaluation : Evaluation) (now : UnixMilliseconds) (store : Store) :
    Except PrepareErrorKind Fence :=
  if mode ≠ .readWriteExisting then
    .error .invalidMode
  else if identity : evaluation.BelongsTo lease then
    if lease.leaseExpires.get ≤ now.get then
      .error .leaseLost
    else if evaluation.projection.digest = none then
      .error .projectionUnavailable
    else
      (transaction mapPrepareError disposition (fun store => do
        validateFinalizationIdentity lease now store
        pure (⟨lease, evaluation, identity.1, identity.2.1⟩, store)) store).1
  else
    .error .invalidInput

/-- The reports of a trade no other report supersedes, with their events. -/
def unsupersededReports (trade : TradeId) (store : Store) : List (Digest × EventId) :=
  (store.reports.rows.filter fun report => report.tradeId == trade &&
    !store.reports.rows.any fun successor =>
      successor.supersedes.any fun superseded => superseded.1 == report.statementDigest).flatMap
    fun report => (store.signedEvents.rows.filter fun event =>
      event.statementDigest == report.statementDigest).map fun event =>
        (report.statementDigest, event.eventId)

/-- `current_verified_supersession`; the stored report and event are parsed where the attestation
is built. -/
def currentVerifiedSupersession (trade : TradeId) (store : Store) :
    Option (Option (Digest × EventId)) :=
  match unsupersededReports trade store with
  | [] => some none
  | [current] => some (some current)
  | _ => none

/-- What the shared report and event libraries and the identity of the service contribute to an
attestation. -/
structure SignedReport where
  issuerPublicKey : PublicKey
  statementDigest : Digest
  canonicalReport : List UInt8
  reportObservedAt : Nat
  eventId : EventId
  signedEventDigest : Digest
  signedEvent : List UInt8
deriving DecidableEq, Repr

/-- `build_rhi_signed_evidence_attestation`, once the report is signed. -/
def buildAttestation (fence : Fence) (createdAt : Nat) (supersession : Option (Digest × EventId))
    (signed : SignedReport) : Option Attestation := do
  let projectionDigest ← fence.evaluation.projection.digest
  let sharedProjectionDigest ← fence.evaluation.projection.shared.projectionDigest
  let manifest := fence.evaluation.projection.manifest.shared
  pure {
    lease := fence.lease
    manifestDigest := manifest.digest
    canonicalManifest := manifest.canonicalBytes
    observedAt := manifest.content.observedAt
    sources := manifest.content.sources.map fun source =>
      ⟨source.sourceId, source.required, source.completion, source.admittedEventCount⟩
    observationCount := manifest.content.observations.length
    projectionDigest, sharedProjectionDigest
    issueCount := fence.evaluation.projection.shared.issueCount
    statementDigest := signed.statementDigest
    claimMutationId := fence.evaluation.claimMutationId
    issuerPublicKey := signed.issuerPublicKey
    outcome := fence.evaluation.outcome
    canonicalReport := signed.canonicalReport
    reportObservedAt := signed.reportObservedAt
    supersession
    eventId := signed.eventId
    signedEventDigest := signed.signedEventDigest
    createdAt
    signedEvent := signed.signedEvent
    leased := fence.leased
    attempted := fence.attempted }

end Evaluation

section Tasks

variable [Sha256] [TradeEvidence]

/-- What a started daemon was given. -/
structure Setting where
  configuration : Configuration
  owner : LeaseOwner
  publication : PublicationAuthority
deriving DecidableEq

def Setting.host (setting : Setting) : Host :=
  ⟨.readWriteExisting, setting.configuration.binding⟩

/-- `run_reconciliation_worker` between two transactions.  The replays of an attempt are kept to
its end for reference. -/
inductive Worker where
  | idle
  | fetching (lease : Lease) (plan : AttemptPlan) (remaining : List SourceRequest)
      (replays : List SealedReplay)
  | committed (lease : Lease) (replays : List SealedReplay) (material : ManifestMaterial)
  | prepared (fence : Fence) (replays : List SealedReplay) (observedAt : Nat)
      (now : UnixMilliseconds)
  | attested (fence : Fence) (replays : List SealedReplay) (attestation : Attestation)
      (now : UnixMilliseconds)
  /-- The attempt failed and its failure is not recorded yet. -/
  | failing (lease : Lease)
  /-- The task returned an error. -/
  | stopped
deriving DecidableEq

/-- `run_source_subscription` between two transactions. -/
inductive Subscription where
  | idle
  | ingesting (source : SourceId) (admitted : AdmittedEvent) (initial : InitialState)
  | scheduling (trade : TradeId) (observedAt : ObservedAt)
  /-- The task returned an error. -/
  | stopped
deriving DecidableEq

/-- One transaction of the worker with what comes before the next one.  A report that cannot be
built or signed is absent. -/
inductive WorkerMove where
  | claim (disposition : Disposition) (now : UnixMilliseconds)
  | fetch (disposition : Disposition) (visit : Visit)
  | commitReplays (disposition : Disposition)
  | prepare (disposition : Disposition) (observedAt : Nat) (now : UnixMilliseconds)
  | attest (disposition : Disposition) (signed : Option SignedReport)
  | finalize (disposition : Disposition)
  | recordFailure (disposition : Disposition) (now : UnixMilliseconds) (draws : List UInt64)

/-- One transaction of the subscription; `now` is in seconds. -/
inductive SubscriptionMove where
  | receive (disposition : Disposition) (source : SourceId) (wire : WireEvent) (now : Nat)
  | ingest (disposition : Disposition)
  | schedule (disposition : Disposition)

/-- A replay with the seal its facts carry; absent when the source could not be planned or
fetched. -/
def fetchSealed (configuration : Configuration) (plan : AttemptPlan) (request : SourceRequest)
    (prior : Option SourceCursor) (visit : Visit) : Option SealedReplay :=
  match planned : ReplayPlan.fromRequest plan request configuration prior with
  | .error _ => none
  | .ok replayPlan =>
      match fetched : fetchReconciliationSource configuration request replayPlan visit with
      | .error _ => none
      | .ok replay => some ⟨replay, trade_of_fetched planned fetched⟩

/-- `read_committed_reconciliation_cursor`. -/
def readCommittedCursor (disposition : Disposition) (policy : EvidencePolicyDigest)
    (request : SourceRequest) (store : Store) : Option (Option SourceCursor) :=
  (transaction mapIngestError disposition (fun store =>
    .ok ((readCheckpoint store request.sourceId policy request.tradeId).map (·.cursor), store))
    store).1.toOption

/-- The worker with the result of a claim. -/
def Worker.claimed (configuration : Configuration) (now : UnixMilliseconds) :
    Except JobErrorKind (Option Lease) → Worker
  | .error _ => .stopped
  | .ok none => .idle
  | .ok (some lease) =>
      match AttemptPlan.fromClaim lease configuration now with
      | .error _ => .failing lease
      | .ok plan => .fetching lease plan plan.requests []

/-- One move of `run_reconciliation_worker` and `execute_reconciliation_attempt`. -/
def Worker.step (setting : Setting) (move : WorkerMove) (worker : Worker) (store : Store) :
    Worker × Store :=
  match move, worker with
  | .claim disposition now, .idle =>
      let (result, store) :=
        claimNextJob setting.host.mode disposition setting.owner now store
      (.claimed setting.configuration now result, store)
  | .fetch disposition visit, .fetching lease plan (request :: remaining) replays =>
      let replay := do
        let prior ← readCommittedCursor disposition plan.policyDigest request store
        fetchSealed setting.configuration plan request prior visit
      match replay with
      | none => (.failing lease, store)
      | some replay => (.fetching lease plan remaining (replays ++ [replay]), store)
  | .commitReplays disposition, .fetching lease plan [] replays =>
      match commitSourceReplays setting.host.mode disposition lease plan replays store with
      | (.error _, store) => (.failing lease, store)
      | (.ok outcome, store) => (.committed lease replays outcome.manifestMaterial, store)
  | .prepare disposition observedAt now, .committed lease replays material =>
      match evaluateMaterial material observedAt with
      | none => (.failing lease, store)
      | some evaluation =>
          match prepareFinalization setting.host.mode disposition lease evaluation now store with
          | .error _ => (.failing lease, store)
          | .ok fence => (.prepared fence replays observedAt now, store)
  | .attest disposition signed, .prepared fence replays observedAt now =>
      let attestation := do
        guard (disposition = .acknowledged)
        let supersession ← currentVerifiedSupersession fence.lease.job.tradeId store
        buildAttestation fence observedAt supersession (← signed)
      match attestation with
      | none => (.failing fence.lease, store)
      | some attestation => (.attested fence replays attestation now, store)
  | .finalize disposition, .attested fence _ attestation now =>
      match commitFinalization setting.host disposition attestation setting.publication now
        store with
      | (.error _, store) => (.failing fence.lease, store)
      | (.ok _, store) => (.idle, store)
  | .recordFailure disposition now draws, .failing lease =>
      match lease.sampleDelay draws with
      | none => (.stopped, store)
      | some delay =>
          match Rhi.recordFailure setting.host.mode disposition lease now delay store with
          | (.error _, store) => (.stopped, store)
          | (.ok _, store) => (.idle, store)
  | _, worker => (worker, store)

/-- The event of a delivery, when it is admitted at the instant it is received. -/
def receiveEvent (configuration : Configuration) (wire : WireEvent) (now : Nat) :
    Option (Option AdmittedEvent) :=
  (ObservedAt.new now).map fun observedAt =>
    admitTradeMutationEvent configuration.limits observedAt 0 wire

/-- `ingest_rhi_subscribed_trade_event` up to its second transaction. -/
def beginIngest (configuration : Configuration) (disposition : Disposition) (source : SourceId)
    (admitted : AdmittedEvent) (store : Store) : Subscription :=
  if sourceResultMaxBytes < admitted.rawLength then
    .stopped
  else
    match (transaction mapIngestError disposition (fun store =>
      .ok (readInitialState source configuration.policy admitted.event.tradeId store, store))
      store).1 with
    | .error _ => .stopped
    | .ok initial => .ingesting source admitted initial

/-- One move of `run_source_subscription`. -/
def Subscription.step (setting : Setting) (move : SubscriptionMove) (subscription : Subscription)
    (store : Store) : Subscription × Store :=
  match move, subscription with
  | .receive disposition source wire now, .idle =>
      if setting.configuration.sources.any fun configured => configured.sourceId == source then
        match receiveEvent setting.configuration wire now with
        | none => (.stopped, store)
        | some none => (.idle, store)
        | some (some admitted) =>
            (beginIngest setting.configuration disposition source admitted store, store)
      else
        (.stopped, store)
  | .ingest disposition, .ingesting source admitted initial =>
      match commitSourceResult disposition source setting.configuration.policy
        admitted.observedAt initial (subscribedResult admitted) store with
      | (.error _, store) => (.stopped, store)
      | (.ok outcome, store) =>
          if outcome.dirtyGenerationAdvanced then
            (.scheduling admitted.event.tradeId admitted.observedAt, store)
          else
            (.idle, store)
  | .schedule disposition, .scheduling trade observedAt =>
      match unixMilliseconds (observedAt.get * 1000) with
      | none => (.stopped, store)
      | some now =>
          match scheduleTrade setting.host.mode disposition trade
            setting.configuration.jobPolicy now store with
          | (.error _, store) => (.stopped, store)
          | (.ok _, store) => (.idle, store)
  | _, subscription => (subscription, store)

end Tasks

section Runs

variable [Sha256] [TradeEvidence]

/-- The tasks of a started daemon. -/
structure Running where
  setting : Setting
  worker : Worker
  subscription : Subscription
deriving DecidableEq

/-- The store and the daemon that runs on it, if one does. -/
structure Daemon where
  store : Store
  running : Option Running
deriving DecidableEq

def Daemon.initial : Daemon := ⟨.initial, none⟩

/-- A move of the daemon or of its operator.  A stop may come at any time. -/
inductive Move where
  | start (disposition : Disposition) (setting : Setting) (appliedAt : Nat)
  | stop
  | applyConfiguration (opening applying : Disposition) (current candidate : ConfigBinding)
      (appliedAt : Nat)
  | worker (move : WorkerMove)
  | subscription (move : SubscriptionMove)
  | progressOutbox (change : Change OutboxRow)
  | progressTargets (change : Change TargetRow)

/-- The daemon after a move.  A configuration is applied while no daemon runs. -/
def Daemon.apply (move : Move) (daemon : Daemon) : Daemon :=
  match move, daemon.running with
  | .start disposition setting appliedAt, none =>
      let (host, store) :=
        openReadWrite disposition setting.configuration.binding appliedAt daemon.store
      ⟨store, host.map fun _ => ⟨setting, .idle, .idle⟩⟩
  | .stop, some _ => ⟨daemon.store, none⟩
  | .applyConfiguration opening applying current candidate appliedAt, none =>
      ⟨(Rhi.applyConfiguration opening applying current candidate appliedAt daemon.store).2, none⟩
  | .worker move, some running =>
      let (worker, store) := running.worker.step running.setting move daemon.store
      ⟨store, some { running with worker }⟩
  | .subscription move, some running =>
      let (subscription, store) :=
        running.subscription.step running.setting move daemon.store
      ⟨store, some { running with subscription }⟩
  | .progressOutbox change, some running =>
      ⟨(Operation.progressOutbox change).run running.setting.host daemon.store, some running⟩
  | .progressTargets change, some running =>
      ⟨(Operation.progressTargets change).run running.setting.host daemon.store, some running⟩
  | _, _ => daemon

/-- The daemon after a run. -/
def Daemon.exec (moves : List Move) (daemon : Daemon) : Daemon :=
  Transition.exec Daemon.apply moves daemon

/-- The store and its host as the state service sees them. -/
def Daemon.service (daemon : Daemon) : Service :=
  ⟨daemon.store, daemon.running.map fun running => running.setting.host⟩

end Runs

end Rhi
