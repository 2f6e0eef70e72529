import Rhi.Daemon.Dirty
import Rhi.Job.Totality

/-!
# The worker over whole runs

The worker returns an error when a claim fails or when the failure of an attempt cannot be
recorded.  A claim does not fail on the rows the daemon itself writes; a failure is recorded as
long as the lease is still current and has not expired.
-/

namespace Rhi

open Relational Transactional

section Revisions

/-- A bound of the revision of a row the daemon wrote: a row changes once for each claim, once for
each recorded failure and once when it ends. -/
def JobRow.revisionBound (row : JobRow) : Nat :=
  2 * row.attemptCount + match row.state with
    | .leased => 0
    | .ready => 1
    | .exhausted | .superseded | .completed => 2

theorem RowChange.revisionBound {old new : JobRow} {kind : StepKind}
    (change : RowChange old kind new)
    (unrenewed : kind ≠ .renewal) (bounded : old.revision ≤ old.revisionBound) :
    new.revision ≤ new.revisionBound := by
  have active := change.active
  unfold JobRow.revisionBound at bounded ⊢
  cases change.step with
  | supersede now id revision selected =>
      simp only [supersedeJob]
      cases state : old.state <;> simp_all [JobState.active]
      omega
  | expire now due =>
      simp only [JobRow.exhaustible, Bool.and_eq_true, beq_iff_eq] at due
      simp only [due.1.1.1] at bounded
      simp only [exhaustExpired]
      omega
  | claim owner expires now id revision selected =>
      simp only [claimJob]
      cases state : old.state <;> simp_all [JobState.active] <;> omega
  | renew => exact absurd rfl unrenewed
  | retry next now lease selected =>
      simp only [retryJob, JobRow.heldBy, Bool.and_eq_true, beq_iff_eq] at selected
      simp only [selected.1.1.1.1.2] at bounded
      simp only [retryJob]
      omega
  | exhaust now lease selected =>
      simp only [exhaustJob, JobRow.heldBy, Bool.and_eq_true, beq_iff_eq] at selected
      simp only [selected.1.1.1.1.2] at bounded
      simp only [exhaustJob]
      omega
  | complete now lease selected =>
      simp only [completeJob, JobRow.heldBy, Bool.and_eq_true, beq_iff_eq] at selected
      simp only [selected.1.1.1.2] at bounded
      simp only [completeJob]
      omega

/-- Every stored row is well formed, and its revision counts what happened to it. -/
def JobsCounted (store : Store) : Prop :=
  ∀ row ∈ store.jobs.rows, row.revision ≤ row.revisionBound

theorem counted_of_rewritten {allowed : List StepKind} {before after : List JobRow}
    (rewritten : JobsRewritten allowed before after) (unrenewed : StepKind.renewal ∉ allowed)
    (counted : ∀ row ∈ before, row.revision ≤ row.revisionBound) :
    ∀ row ∈ after, row.revision ≤ row.revisionBound := by
  intro row rowMem
  rcases rewritten.origin rowMem with ⟨old, oldMem, -, same | ⟨kind, kindMem, change⟩⟩
  · rw [same]
    exact counted old oldMem
  · refine change.revisionBound ?_ (counted old oldMem)
    rintro rfl
    exact unrenewed kindMem

variable [Sha256] [TradeEvidence]

theorem jobsCounted_apply {call : Call} {service : Service}
    (unrenewed : StepKind.renewal ∉ call.stepKinds) (counted : JobsCounted service.store) :
    JobsCounted (service.apply call).store := by
  have step := jobsStep_apply call service
  cases step with
  | rewritten rows => exact counted_of_rewritten rows unrenewed counted
  | inserted scheduled =>
      rcases scheduled.inserted with ⟨middle, superseded, -, rows, -⟩
      intro row rowMem
      rw [rows] at rowMem
      rcases List.mem_append.mp rowMem with old | new
      · exact counted_of_rewritten superseded (by simp) counted row old
      · rw [List.mem_singleton.mp new]
        exact le_rfl

omit [Sha256] [TradeEvidence] in
theorem Worker.unrenewed {setting : Setting} {move : WorkerMove} {worker : Worker}
    {operation : Operation} (performed : worker.operation setting move = some operation) :
    StepKind.renewal ∉ (Call.operation operation).stepKinds := by
  unfold Worker.operation at performed
  split at performed
  · cases performed
    simp [Call.stepKinds]
  · cases performed
    simp [Call.stepKinds]
  · cases performed
    simp [Call.stepKinds]
  · rcases Option.map_eq_some_iff.mp performed with ⟨delay, -, rfl⟩
    simp [Call.stepKinds]
  · cases performed

omit [Sha256] [TradeEvidence] in
theorem Subscription.unrenewed {setting : Setting} {move : SubscriptionMove}
    {subscription : Subscription} {operation : Operation}
    (performed : subscription.operation setting move = some operation) :
    StepKind.renewal ∉ (Call.operation operation).stepKinds := by
  unfold Subscription.operation at performed
  split at performed
  · cases performed
    simp [Call.stepKinds]
  · rcases Option.map_eq_some_iff.mp performed with ⟨now, -, rfl⟩
    simp [Call.stepKinds]
  · cases performed

omit [Sha256] [TradeEvidence] in
/-- The daemon renews no lease. -/
theorem unrenewed_of_call {move : Move} {daemon : Daemon} {call : Call}
    (called : move.call daemon = some call) : StepKind.renewal ∉ call.stepKinds := by
  unfold Move.call at called
  split at called
  · cases called
    simp [Call.stepKinds]
  · cases called
    simp [Call.stepKinds]
  · cases called
    simp [Call.stepKinds]
  · rcases Option.map_eq_some_iff.mp called with ⟨operation, performed, rfl⟩
    exact Worker.unrenewed performed
  · rcases Option.map_eq_some_iff.mp called with ⟨operation, performed, rfl⟩
    exact Subscription.unrenewed performed
  · cases called
    simp [Call.stepKinds]
  · cases called
    simp [Call.stepKinds]
  · cases called

/-- The rows of a store that only the daemon wrote. -/
structure Daemon.JobsKept (daemon : Daemon) : Prop where
  wellFormed : JobsWellFormed daemon.service
  counted : JobsCounted daemon.store

omit [TradeEvidence] in
theorem jobsKept_initial : Daemon.initial.JobsKept where
  wellFormed := by simp [JobsWellFormed, Daemon.service, Daemon.initial, Store.initial]
  counted := by simp [JobsCounted, Daemon.initial, Store.initial]

theorem jobsKept_apply (move : Move) {daemon : Daemon} (kept : daemon.JobsKept) :
    (daemon.apply move).JobsKept := by
  have moved := service_apply move daemon
  have sameStore : (daemon.apply move).store = (daemon.apply move).service.store := rfl
  cases called : move.call daemon with
  | none =>
      rw [called, Option.elim_none] at moved
      refine ⟨by rw [moved]; exact kept.wellFormed, ?_⟩
      rw [sameStore, moved]
      exact kept.counted
  | some call =>
      rw [called, Option.elim_some] at moved
      refine ⟨by rw [moved]; exact jobsWellFormed_apply call _ kept.wellFormed, ?_⟩
      rw [sameStore, moved]
      exact jobsCounted_apply (unrenewed_of_call called) kept.counted

omit [TradeEvidence] in
/-- No claim and no recorded failure overflows a revision. -/
theorem Daemon.JobsKept.ready {daemon : Daemon} (kept : daemon.JobsKept) :
    JobsReady daemon.store where
  wellFormed := kept.wellFormed
  room row rowMem := by
    have counted := kept.counted row rowMem
    have attempts := (JobRow.check_iff.mp (daemon.store.jobs.checked row rowMem)).1.2.2.1
    have bound : row.revisionBound ≤ 202 := by
      unfold JobRow.revisionBound
      cases row.state <;> simp only <;> omega
    have large : 204 ≤ maxInteger := by decide
    omega

end Revisions

section Delays

/-- A sample never exceeds its bound. -/
theorem sampleFullJitter_le {draws : List UInt64} {maximum sample : Nat}
    (sampled : sampleFullJitter draws maximum = some sample) : sample ≤ maximum := by
  rcases Option.map_eq_some_iff.mp sampled with ⟨draw, -, rfl⟩
  have small := draw.toNat_lt
  have product : draw.toNat * (maximum + 1) < (maximum + 1) * 2 ^ 64 := by
    rw [Nat.mul_comm (maximum + 1)]
    exact Nat.mul_lt_mul_of_pos_right small (Nat.succ_pos maximum)
  exact Nat.lt_succ_iff.mp (Nat.div_lt_of_lt_mul (by rwa [Nat.mul_comm (2 ^ 64)]))

theorem retryDelayUpperBound_le (lease : Lease) : lease.retryDelayUpperBound ≤ 3600000 := by
  have bounded := lease.job.policy.valid.2.2.2.2.2.2.1.2
  exact (min_le_right _ _).trans bounded

/-- The delay of a failed attempt is drawn whenever its sample is. -/
theorem sampleDelay_of_sample {lease : Lease} {draws : List UInt64} {sample : Nat}
    (sampled : sampleFullJitter draws lease.retryDelayUpperBound = some sample) :
    ∃ delay, lease.sampleDelay draws = some delay ∧ delay.get ≤ lease.retryDelayUpperBound := by
  have small := sampleFullJitter_le sampled
  have bound := retryDelayUpperBound_le lease
  have valid : sample ≤ 3600000 := small.trans bound
  refine ⟨⟨sample, valid⟩, ?_, small⟩
  simp [Lease.sampleDelay, sampled, bound, RetryDelay.new, valid]

end Delays

section Leases

/-- The lease the worker holds or has lost. -/
def Worker.lease : Worker → Option Lease
  | .idle | .stopped => none
  | .fetching lease _ _ _ | .committed lease _ _ | .failing lease => some lease
  | .prepared fence _ _ _ | .attested fence _ _ _ => some fence.lease

variable [Sha256]

/-- A claimed lease was read from the row its claim wrote. -/
theorem row_of_claimNext {owner : LeaseOwner} {now : UnixMilliseconds} {store next : Store}
    {lease : Lease} (done : claimNext owner now store = .ok (some lease, next)) :
    lease.owner = owner ∧ ∃ row duration id revision, 0 < duration ∧
      lease.ReadFrom ((claimJob owner (now.get + duration) now.get id revision).write row) := by
  simp only [claimNext, bind_eq_ok] at done
  rcases done with ⟨⟨count, middle⟩, exhausted, done⟩
  split at done
  · simp only [pure_eq_ok, Prod.mk.injEq] at done
    cases done.1
  · simp only [bind_eq_ok, require_eq_ok, pure_eq_ok, Prod.mk.injEq, Option.some.injEq] at done
    rcases done with ⟨candidate, decoded, -, bounded, ⟨affected, last⟩, updated, -, single, held,
      leaseRead, rfl, rfl⟩
    rcases readLease_spec leaseRead with ⟨sameId, sameOwner, claimed, claimedMem, read⟩
    rcases exists_selected_of_affected updated single with ⟨row, rowMem, selected⟩
    have writtenMem : (claimJob owner (now.get + candidate.policy.leaseDuration) now.get
        candidate.id candidate.revision).write row ∈ last.jobs.rows := by
      rw [(updateJobs_spec updated).2.1, ← Table.rewrite_of_selects selected]
      exact List.mem_map_of_mem rowMem
    have rowId : row.jobId = candidate.id := by
      simp only [claimJob, Bool.and_eq_true, beq_iff_eq] at selected
      exact selected.1.1
    have same := eq_of_jobId_eq claimedMem writtenMem (by
      rw [read.jobId, sameId]
      exact rowId.symm)
    rw [same] at read
    have positive : 0 < candidate.policy.leaseDuration := by
      have valid := candidate.policy.valid
      omega
    exact ⟨sameOwner, row, _, _, _, positive, read⟩

/-- A claimed lease carries the owner it was claimed for. -/
theorem owned_of_claimNext {owner : LeaseOwner} {now : UnixMilliseconds} {store next : Store}
    {lease : Lease} (done : claimNext owner now store = .ok (some lease, next)) : lease.Owned := by
  rcases row_of_claimNext done with ⟨sameOwner, row, duration, id, revision, -, read⟩
  have owners : lease.job.leaseOwner.map (·.bytes) = some owner.bytes :=
    congrArg JobRow.leaseOwner (toRow_of_decodeJob read.decoded)
  rcases Option.map_eq_some_iff.mp owners with ⟨jobOwner, present, sameBytes⟩
  have sameOwners : jobOwner = owner := by
    cases jobOwner
    cases owner
    cases sameBytes
    rfl
  unfold Lease.Owned
  rw [present, sameOwner, sameOwners]

end Leases

section Survival

variable [Sha256] [TradeEvidence]

/-- When a move of the worker does not end in an error: its claims and its records of failures are
acknowledged, the clock is in range and entropy available, and a failure is recorded under a lease
that is still current, not before it was claimed and not after it expired. -/
def WorkerMove.Survives (worker : Worker) (store : Store) : WorkerMove → Prop
  | .claim disposition now => disposition = .acknowledged ∧ now.get + 300000 ≤ maxInteger
  | .recordFailure disposition now draws =>
      disposition = .acknowledged ∧ now.get + 3600000 ≤ maxInteger ∧
        ∀ lease, worker = .failing lease →
          (∃ sample, sampleFullJitter draws lease.retryDelayUpperBound = some sample) ∧
            lease.Current store ∧ lease.job.updatedAt.get ≤ now.get ∧
            now.get < lease.leaseExpires.get
  | _ => True

def Move.KeepsWorker (daemon : Daemon) : Move → Prop
  | .worker move => ∀ running ∈ daemon.running, move.Survives running.worker daemon.store
  | _ => True

/-- The worker has returned no error, and its lease carries its owner. -/
def Worker.Alive (worker : Worker) : Prop :=
  worker ≠ .stopped ∧ ∀ lease ∈ worker.lease, lease.Owned

omit [TradeEvidence] in
theorem alive_of_claim {setting : Setting} {store : Store} {disposition : Disposition}
    {now : UnixMilliseconds} (ready : JobsReady store)
    (met : WorkerMove.Survives .idle store (.claim disposition now)) :
    (Worker.claimed setting.configuration now
      (claimNextJob setting.host.mode disposition setting.owner now store).1).Alive := by
  rcases met with ⟨rfl, clock⟩
  rcases claimNext_total ready setting.owner clock with ⟨claimed, next, done⟩
  have returned : (claimNextJob setting.host.mode .acknowledged setting.owner now store).1 =
      .ok claimed := by
    simp only [claimNextJob, Setting.host, ne_eq, not_true_eq_false, if_false]
    rw [transaction_acknowledged done]
  rw [returned]
  cases claimed with
  | none => exact ⟨by simp [Worker.claimed], by simp [Worker.claimed, Worker.lease]⟩
  | some lease =>
      have owned := owned_of_claimNext done
      cases planned : AttemptPlan.fromClaim lease setting.configuration now with
      | error error =>
          simp only [Worker.claimed, planned]
          exact ⟨by simp, by simpa [Worker.lease] using owned⟩
      | ok plan =>
          simp only [Worker.claimed, planned]
          exact ⟨by simp, by simpa [Worker.lease] using owned⟩

omit [TradeEvidence] in
theorem recordFailure_of_current (setting : Setting) {store : Store} {lease : Lease}
    {now : UnixMilliseconds} {delay : RetryDelay} (ready : JobsReady store) (owned : lease.Owned)
    (current : lease.Current store) (ordered : lease.job.updatedAt.get ≤ now.get)
    (unexpired : now.get < lease.leaseExpires.get) (clock : now.get + 3600000 ≤ maxInteger)
    (bounded : delay.get ≤ lease.retryDelayUpperBound) :
    ∃ job next, recordFailure setting.host.mode .acknowledged lease now delay store =
      (.ok job, next) := by
  rcases current with ⟨row, rowMem, read⟩
  have sameInstant : row.updatedAt = lease.job.updatedAt.get := by
    rw [← toRow_of_decodeJob read.decoded]
    rfl
  have room := ready.room row rowMem
  have later := delay.bounded
  have total : ∃ job next, recordFailureJob lease now delay store = .ok (job, next) :=
    recordFailureJob_total rowMem owned read (ready.wellFormed row rowMem) (by omega) (by omega)
      unexpired (by omega)
  rcases total with ⟨job, next, done⟩
  refine ⟨job, next, ?_⟩
  simp only [recordFailure, Setting.host, ne_eq, not_true_eq_false, if_false,
    Nat.not_le.mpr unexpired, Nat.not_lt.mpr bounded]
  exact transaction_acknowledged done

omit [TradeEvidence] in
theorem lease_of_prepare {mode : HostMode} {disposition : Disposition} {lease : Lease}
    {evaluation : Evaluation} {now : UnixMilliseconds} {store : Store} {fence : Fence}
    (prepared : prepareFinalization mode disposition lease evaluation now store = .ok fence) :
    fence.lease = lease := by
  unfold prepareFinalization at prepared
  split at prepared
  · cases prepared
  · split at prepared
    · split at prepared
      · cases prepared
      · split at prepared
        · cases prepared
        · have done := transaction_ok prepared
          simp only [bind_eq_ok, pure_eq_ok, Prod.mk.injEq] at done
          rcases done with ⟨-, -, rfl, -⟩
          rfl
    · cases prepared

/-- The step lemma of the worker. -/
theorem Worker.alive_step {setting : Setting} {move : WorkerMove} {worker : Worker} {store : Store}
    (ready : JobsReady store) (alive : worker.Alive) (met : move.Survives worker store) :
    (worker.step setting move store).1.Alive := by
  -- Every phase but the last keeps the lease it was entered with; only a claim and the record of a
  -- failure can end in an error.
  have keeps : ∀ next : Worker, next ≠ .stopped → next.lease = worker.lease → next.Alive := by
    intro next running same
    exact ⟨running, by rw [same]; exact alive.2⟩
  unfold Worker.step
  split
  · exact alive_of_claim ready met
  · dsimp only
    split
    · exact keeps _ (by simp) rfl
    · exact keeps _ (by simp) rfl
  · split
    · exact keeps _ (by simp) rfl
    · exact keeps _ (by simp) rfl
  · split
    · exact keeps _ (by simp) rfl
    · split
      · exact keeps _ (by simp) rfl
      · rename_i prepared
        exact keeps _ (by simp) (by simp [Worker.lease, lease_of_prepare prepared])
  · dsimp only
    split
    · exact keeps _ (by simp) rfl
    · exact keeps _ (by simp) rfl
  · split
    · exact keeps _ (by simp) rfl
    · exact ⟨by simp, by simp [Worker.lease]⟩
  · rename_i disposition now draws lease
    rcases met with ⟨rfl, clock, lasting⟩
    rcases lasting lease rfl with ⟨⟨sample, sampled⟩, current, ordered, unexpired⟩
    rcases sampleDelay_of_sample sampled with ⟨delay, drawn, bounded⟩
    rcases recordFailure_of_current setting ready (alive.2 lease rfl) current ordered
      unexpired clock bounded with ⟨job, next, recorded⟩
    simp only [drawn, recorded]
    exact ⟨by simp, by simp [Worker.lease]⟩
  · exact alive

/-- What the worker and its store keep over every run that lets the worker survive. -/
def Daemon.WorkerAlive (daemon : Daemon) : Prop :=
  daemon.JobsKept ∧ ∀ running ∈ daemon.running, running.worker.Alive

theorem workerAlive_apply (move : Move) (daemon : Daemon) (met : move.KeepsWorker daemon)
    (alive : daemon.WorkerAlive) : (daemon.apply move).WorkerAlive := by
  rcases alive with ⟨kept, alive⟩
  refine ⟨jobsKept_apply move kept, ?_⟩
  intro next started
  rcases daemon with ⟨store, _ | running⟩
  · cases move with
    | start disposition setting appliedAt =>
        simp only [Daemon.apply] at started
        rcases Option.map_eq_some_iff.mp started with ⟨host, -, rfl⟩
        exact ⟨by simp, by simp [Worker.lease]⟩
    | _ => cases started
  · cases move with
    | stop => cases started
    | worker move =>
        cases started
        exact Worker.alive_step kept.ready (alive running rfl) (met running rfl)
    | subscription move =>
        cases started
        exact alive running rfl
    | _ => exact alive next started

/-- The worker survives: in every run whose moves record a failure only under a current and
unexpired lease, with storage, clock and entropy working, the worker never returns an error. -/
theorem worker_survives {moves before : List Move}
    (met : Transition.Along Daemon.apply (fun daemon move => move.KeepsWorker daemon) moves
      .initial)
    (reached : before <+: moves) :
    ∀ running ∈ (Daemon.exec before .initial).running, running.worker ≠ .stopped := by
  have initially : Daemon.initial.WorkerAlive := ⟨jobsKept_initial, by simp [Daemon.initial]⟩
  have alive : (Daemon.exec before .initial).WorkerAlive :=
    met.invariant_of_isPrefix workerAlive_apply initially reached
  intro running started
  exact (alive.2 running started).1

end Survival

section Exceptions

namespace Sample

local instance : Sha256 := ⟨Hashing.sha256⟩

local instance : TradeEvidence := evidence

/-- The attempt fails at its only source. -/
def attemptFailed : List Move := proposed ++ [
  .worker (.claim .acknowledged claimedAt),
  .worker (.fetch .acknowledged cancelledByRelay)]

/-- The decision is delivered during the attempt, which supersedes the job of the attempt. -/
def superseded : List Move := proposed ++ [
  .worker (.claim .acknowledged claimedAt),
  .subscription (.receive .acknowledged source (wire decision decision_fits) 1000002),
  .subscription (.ingest .acknowledged),
  .subscription (.schedule .acknowledged),
  .worker (.fetch .acknowledged decisionFetched),
  .worker (.commitReplays .acknowledged),
  .worker (.recordFailure .acknowledged finalizedAt [0x8000000000000000])]

/-- A failure recorded in time lets the worker go on. -/
theorem attemptFailed_survives :
    ((Daemon.exec (attemptFailed ++ [.worker (.recordFailure .acknowledged finalizedAt
      [0x8000000000000000])]) .initial).running.map fun running => running.worker) ≠
        some .stopped := by
  have claimed : Transition.Along Daemon.apply (fun daemon move => move.KeepsWorker daemon)
      attemptFailed .initial :=
    ⟨trivial, trivial, trivial, trivial, fun _ _ => ⟨rfl, by decide⟩, fun _ _ => trivial, trivial⟩
  have failing : (Daemon.exec attemptFailed .initial).running =
      some ⟨setting, .failing lease, .idle⟩ := by
    decide +kernel
  have current : lease.Current (Daemon.exec attemptFailed .initial).store :=
    ⟨lease.job.toRow, by decide +kernel, by decide +kernel, rfl, rfl⟩
  have sampled : sampleFullJitter [0x8000000000000000] lease.retryDelayUpperBound = some 500 := by
    decide +kernel
  have recorded : Transition.Along Daemon.apply (fun daemon move => move.KeepsWorker daemon)
      [.worker (.recordFailure .acknowledged finalizedAt [0x8000000000000000])]
      (Daemon.exec attemptFailed .initial) := by
    refine ⟨?_, trivial⟩
    intro running started
    rw [failing] at started
    cases started
    refine ⟨rfl, by decide, ?_⟩
    intro held same
    rw [← Worker.failing.inj same]
    exact ⟨⟨500, sampled⟩, current, by decide, by decide⟩
  intro stopped
  rcases Option.map_eq_some_iff.mp stopped with ⟨running, started, isStopped⟩
  exact worker_survives (Transition.Along.append.mpr ⟨claimed, recorded⟩) List.prefix_rfl running
    started isStopped

/-- The worker returns an error when its job was superseded during the attempt, and when the lease
ran out before the failure was recorded. -/
theorem superseded_stops :
    ((Daemon.exec superseded .initial).running.map fun running => running.worker) =
        some .stopped ∧
      ((Daemon.exec (attemptFailed ++ [.worker (.recordFailure .acknowledged expiresAt
        [0x8000000000000000])]) .initial).running.map fun running => running.worker) =
          some .stopped := by
  decide +kernel

end Sample

end Exceptions

end Rhi
