import Mathlib.Logic.Function.Basic
import Rhi.Daemon.Worker
import Rhi.Finalization.Chain
import Rhi.Service.Fence

/-!
# Reconciliation by several workers

Any number of workers run attempts over one store, each move being one transaction of one of them.
A worker reads the report to supersede in one transaction and finalizes in a later one, while other
workers, schedules and claims may come in between.  The lease it finalizes under tells whether they
did: a trade has one active job, and its row is rewritten with every claim.
-/

namespace Rhi

open Relational Transactional Succession

section System

variable [Sha256] [TradeEvidence]

/-- The workers and the service they share. -/
structure Reconcilers where
  service : Service
  workers : Nat → Worker

def Reconcilers.initial : Reconcilers := ⟨.initial, fun _ => .idle⟩

def Call.finalizes : Call → Bool
  | .operation (.commitFinalization ..) => true
  | _ => false

/-- A move of one worker, the restart of one, or a call of somebody else.  Only workers finalize. -/
inductive ReconcilerMove where
  | worker (index : Nat) (setting : Setting) (move : WorkerMove)
  | restart (index : Nat)
  | call (call : Call) (other : call.finalizes = false)

/-- The workers after a move.  A worker runs while the store is open under its configuration. -/
def Reconcilers.apply (move : ReconcilerMove) (state : Reconcilers) : Reconcilers :=
  match move with
  | .worker index setting move =>
      if state.service.host = some setting.host then
        let (worker, store) := (state.workers index).step setting move state.service.store
        ⟨⟨store, state.service.host⟩, Function.update state.workers index worker⟩
      else
        state
  | .restart index => ⟨state.service, Function.update state.workers index .idle⟩
  | .call call _ => ⟨state.service.apply call, state.workers⟩

/-- The workers after a run. -/
def Reconcilers.exec (moves : List ReconcilerMove) (state : Reconcilers) : Reconcilers :=
  Transition.exec Reconcilers.apply moves state

end System

section Leases

variable [Sha256] [TradeEvidence]

/-- The row of a lease has been there: it is not older than the lease. -/
def Lease.Seen (lease : Lease) (store : Store) : Prop :=
  ∃ row ∈ store.jobs.rows, row.jobId = lease.job.id ∧ lease.job.revision ≤ row.revision

omit [TradeEvidence] in
theorem Lease.Current.seen {lease : Lease} {store : Store} (current : lease.Current store) :
    lease.Seen store := by
  rcases current with ⟨row, rowMem, read⟩
  exact ⟨row, rowMem, read.jobId, by rw [read.revision]⟩

theorem seen_apply (call : Call) {service : Service} {lease : Lease}
    (seen : lease.Seen service.store) : lease.Seen (service.apply call).store := by
  rcases seen with ⟨row, rowMem, sameId, reached⟩
  rcases follows_apply call service rowMem with ⟨next, nextMem, follows, nextId⟩
  refine ⟨next, nextMem, nextId.trans sameId, ?_⟩
  rcases follows with same | ⟨-, -, raised, -⟩
  · rw [same]
    exact reached
  · omega

/-- A lease that is current after a call was current before it, by the same row. -/
theorem current_of_apply {call : Call} {service : Service} {lease : Lease}
    (seen : lease.Seen service.store) (current : lease.Current (service.apply call).store) :
    ∃ row ∈ service.store.jobs.rows, row ∈ (service.apply call).store.jobs.rows ∧
      lease.ReadFrom row := by
  rcases seen with ⟨old, oldMem, oldId, reached⟩
  rcases current with ⟨row, rowMem, read⟩
  rcases follows_apply call service oldMem with ⟨next, nextMem, follows, nextId⟩
  have same : next = row := eq_of_jobId_eq nextMem rowMem (by rw [nextId, oldId, read.jobId])
  rcases follows with kept | ⟨-, -, raised, -⟩
  · rw [← kept, same] at oldMem
    exact ⟨row, oldMem, rowMem, read⟩
  · have revision := read.revision
    rw [same] at raised
    omega

end Leases

section Reports

variable [Sha256] [TradeEvidence]

omit [TradeEvidence] in
/-- An operation leaves the reports alone, or is a finalization that was created. -/
theorem reports_of_effect {host : Host} {before after : Store} {operation : Operation}
    (effect : Effect host before operation after) :
    (after.reports = before.reports ∧ after.signedEvents = before.signedEvents) ∨
      ∃ disposition attestation publication now record,
        operation = .commitFinalization disposition attestation publication now ∧
        record.attestation = attestation ∧ FinalizationCreated record before after := by
  cases effect with
  | unchanged => exact .inl ⟨rfl, rfl⟩
  | scheduled read scheduled =>
      rw [scheduled.only]
      exact .inl ⟨rfl, rfl⟩
  | claimed only rewritten =>
      rw [only]
      exact .inl ⟨rfl, rfl⟩
  | renewed only rewritten =>
      rw [only]
      exact .inl ⟨rfl, rfl⟩
  | failed only rewritten =>
      rw [only]
      exact .inl ⟨rfl, rfl⟩
  | ingested parts =>
      rw [parts.evidenceOnly]
      exact .inl ⟨rfl, rfl⟩
  | committed created =>
      rw [created.only]
      exact .inl ⟨rfl, rfl⟩
  | finalized made absent created =>
      exact .inr ⟨_, _, _, _, _, rfl, (FinalizationRecord.fromInputs_spec made).1, created⟩
  | outboxProgressed updated => exact .inl ⟨rfl, rfl⟩
  | targetsProgressed updated => exact .inl ⟨rfl, rfl⟩

omit [TradeEvidence] in
/-- A created finalization appends one report of its trade. -/
theorem reportsOf_created {record : FinalizationRecord} {before after : Store}
    (created : FinalizationCreated record before after) (trade : TradeId) :
    reportsOf trade after = reportsOf trade before ++
      if record.attestation.lease.job.tradeId = trade then [record.attestation.reportRow]
      else [] := by
  have rows : after.reports.rows = before.reports.rows ++ [record.attestation.reportRow] :=
    created.inserted.reports
  unfold reportsOf
  rw [rows, List.filter_append, List.filter_singleton]
  simp [Attestation.reportRow]

omit [TradeEvidence] in
/-- A finalization that supersedes the last report of its trade extends the succession. -/
theorem linked_of_created {record : FinalizationRecord} {before after : Store}
    (created : FinalizationCreated record before after) (reports : ReportsLinked before)
    (supersedes : record.attestation.supersession.map (·.1) =
      (reportsOf record.attestation.lease.job.tradeId before).getLast?.map (·.statementDigest)) :
    ReportsLinked after where
  linked := by
    intro trade
    rw [reportsOf_created created]
    split
    · rename_i sameTrade
      rw [sameTrade] at supersedes
      exact (reports.linked trade).snoc supersedes
    · rw [List.append_nil]
      exact reports.linked trade
  signed := by
    have rows : after.reports.rows = before.reports.rows ++ [record.attestation.reportRow] :=
      created.inserted.reports
    have events : after.signedEvents.rows =
        before.signedEvents.rows ++ [record.attestation.signedEventRow] :=
      created.inserted.signedEvents
    intro report reportMem
    rw [rows, List.mem_append, List.mem_singleton] at reportMem
    rw [events]
    rcases reportMem with old | rfl
    · rcases reports.signed report old with ⟨event, eventMem, stated⟩
      exact ⟨event, List.mem_append_left _ eventMem, stated⟩
    · exact ⟨record.attestation.signedEventRow, by simp, rfl⟩

omit [TradeEvidence] in
/-- No lease of the trade survives the finalization of one of its jobs. -/
theorem tradeId_ne_of_created {record : FinalizationRecord} {before after : Store}
    (created : FinalizationCreated record before after) {lease : Lease} {row : JobRow}
    (rowBefore : row ∈ before.jobs.rows) (rowAfter : row ∈ after.jobs.rows)
    (read : lease.ReadFrom row) :
    record.attestation.lease.job.tradeId ≠ lease.job.tradeId := by
  intro sameTrade
  rcases created.held with ⟨held, heldMem, holds, written⟩
  rcases created.fenced.current with ⟨current, currentMem, finalizing⟩
  simp only [JobRow.heldBy, Bool.and_eq_true, beq_iff_eq] at holds
  rcases holds with ⟨⟨⟨⟨heldId, -⟩, heldState⟩, -⟩, -⟩
  have sameCurrent : current = held :=
    eq_of_jobId_eq currentMem heldMem (by rw [heldId, finalizing.jobId])
  have heldTrade : held.tradeId = record.attestation.lease.job.tradeId := by
    rw [← sameCurrent, ← toRow_of_decodeJob finalizing.decoded]
    rfl
  have rowTrade : row.tradeId = lease.job.tradeId := by
    rw [← toRow_of_decodeJob read.decoded]
    rfl
  have rowState : row.state = .leased := by
    rw [← toRow_of_decodeJob read.decoded]
    exact read.leased
  -- both rows are active rows of the trade, and the finalization has rewritten one of them
  have same : held = row := eq_of_active heldMem rowBefore (by simp [heldState, JobState.active])
    (by simp [rowState, JobState.active]) (by rw [heldTrade, rowTrade, sameTrade])
  rw [same] at written
  have rewritten := eq_of_jobId_eq written rowAfter rfl
  have raised := congrArg JobRow.revision rewritten
  simp [completeJob] at raised

end Reports

section Workers

variable [Sha256] [TradeEvidence]

omit [TradeEvidence] in
theorem lease_of_claimed {configuration : Configuration} {now : UnixMilliseconds}
    {result : Except JobErrorKind (Option Lease)} {lease : Lease}
    (held : lease ∈ (Worker.claimed configuration now result).lease) :
    result = .ok (some lease) := by
  unfold Worker.claimed at held
  split at held
  · cases held
  · cases held
  · split at held
    · cases held
      rfl
    · cases held
      rfl

/-- A worker keeps the lease it works under, or has just claimed it. -/
theorem Worker.lease_step {setting : Setting} {move : WorkerMove} {worker : Worker} {store : Store}
    {lease : Lease} (held : lease ∈ (worker.step setting move store).1.lease) :
    lease ∈ worker.lease ∨ lease.Current (worker.step setting move store).2 := by
  have kept : ∀ next : Worker, next.lease = worker.lease → lease ∈ next.lease →
      lease ∈ worker.lease := by
    intro next same nextHeld
    rwa [same] at nextHeld
  unfold Worker.step at held ⊢
  split at held
  · right
    have returned := lease_of_claimed held
    simp only [claimNextJob, Setting.host, ne_eq, not_true_eq_false, if_false] at returned ⊢
    exact (claimNext_spec (transaction_ok returned)).2.2 lease rfl
  · left
    dsimp only at held
    split at held
    · exact kept _ rfl held
    · exact kept _ rfl held
  · left
    split at held
    · exact kept _ rfl held
    · exact kept _ rfl held
  · left
    split at held
    · exact kept _ rfl held
    · split at held
      · exact kept _ rfl held
      · rename_i prepared
        exact kept _ (by simp [Worker.lease, lease_of_prepare prepared]) held
  · left
    dsimp only at held
    split at held
    · exact kept _ rfl held
    · exact kept _ rfl held
  · left
    split at held
    · exact kept _ rfl held
    · cases held
  · split at held
    · cases held
    · split at held
      · cases held
      · cases held
  · exact .inl held

/-- How a worker comes to hold an attestation: it has not moved, or attests with a signed report.
The attestation names the report found in the same transaction. -/
theorem Worker.attested_step {setting : Setting} {move : WorkerMove} {worker : Worker}
    {store : Store} {fence : Fence} {replays : List SealedReplay} {attestation : Attestation}
    {now : UnixMilliseconds}
    (attested : (worker.step setting move store).1 = .attested fence replays attestation now) :
    worker = .attested fence replays attestation now ∨
      ∃ disposition signed, move = .attest disposition (some signed) ∧
        attestation.signedEvent = signed.signedEvent ∧
        attestation.signedEventDigest = signed.signedEventDigest ∧
        attestation.lease = fence.lease ∧ (worker.step setting move store).2 = store ∧
        currentVerifiedSupersession attestation.lease.job.tradeId store =
          some attestation.supersession := by
  unfold Worker.step at attested ⊢
  split at attested
  · simp only [Worker.claimed] at attested
    split at attested
    · cases attested
    · cases attested
    · split at attested
      · cases attested
      · cases attested
  · dsimp only at attested
    split at attested
    · cases attested
    · cases attested
  · split at attested
    · cases attested
    · cases attested
  · split at attested
    · cases attested
    · split at attested
      · cases attested
      · cases attested
  · right
    dsimp only at attested ⊢
    split at attested
    · cases attested
    · rename_i built
      rcases Worker.attested.inj attested with ⟨rfl, rfl, rfl, rfl⟩
      simp only [Option.bind_eq_bind, Option.bind_eq_some_iff, Option.guard_eq_some'] at built
      rcases built with ⟨-, -, supersession, found, signed, rfl, built⟩
      refine ⟨_, signed, rfl, ?_⟩
      simp only [buildAttestation, Option.bind_eq_bind, Option.bind_eq_some_iff, Option.pure_def,
        Option.some.injEq] at built
      rcases built with ⟨projectionDigest, -, sharedDigest, -, rfl⟩
      simp only [*, and_self]
  · split at attested
    · cases attested
    · cases attested
  · split at attested
    · cases attested
    · split at attested
      · cases attested
      · cases attested
  · exact .inl attested

end Workers

section Invariant

variable [Sha256] [TradeEvidence]

/-- A worker has seen the row of its lease, and while this row stands, its attestation supersedes
the last report of the trade. -/
structure Worker.Informed (worker : Worker) (store : Store) : Prop where
  seen : ∀ lease ∈ worker.lease, lease.Seen store
  attested : ∀ fence replays attestation now,
    worker = .attested fence replays attestation now → attestation.lease = fence.lease ∧
      (attestation.lease.Current store → attestation.supersession.map (·.1) =
        (reportsOf attestation.lease.job.tradeId store).getLast?.map (·.statementDigest))

structure Reconcilers.Sound (state : Reconcilers) : Prop where
  reports : ReportsLinked state.service.store
  informed : ∀ index, (state.workers index).Informed state.service.store

omit [TradeEvidence] in
theorem informed_idle (store : Store) : Worker.Informed .idle store where
  seen := by simp [Worker.lease]
  attested := by simp

omit [TradeEvidence] in
theorem sound_initial : Reconcilers.initial.Sound where
  reports := by
    refine ⟨fun trade => ?_, by simp [Reconcilers.initial, Service.initial, Store.initial]⟩
    exact Linked.nil
  informed index := informed_idle _

/-- A call leaves a worker informed that does not move. -/
theorem informed_apply (call : Call) {service : Service} {worker : Worker}
    (informed : worker.Informed service.store) :
    worker.Informed (service.apply call).store where
  seen lease held := seen_apply call (informed.seen lease held)
  attested fence replays attestation now isAttested := by
    rcases informed.attested fence replays attestation now isAttested with ⟨sameLease, current⟩
    refine ⟨sameLease, ?_⟩
    intro stillCurrent
    have seen : attestation.lease.Seen service.store := by
      apply informed.seen
      rw [isAttested, sameLease]
      rfl
    rcases current_of_apply seen stillCurrent with ⟨row, rowBefore, rowAfter, read⟩
    rw [current ⟨row, rowBefore, read⟩]
    rcases apply_cases call service with ⟨operation, host, rfl, -, applied⟩ | only
    · rw [applied] at rowAfter ⊢
      rcases reports_of_effect (run_effect operation host service.store) with
        ⟨reports, -⟩ | ⟨_, _, _, _, record, rfl, -, created⟩
      · simp only [reportsOf, reports]
      · have otherTrade := tradeId_ne_of_created created rowBefore rowAfter read
        rw [reportsOf_created created, if_neg otherTrade, List.append_nil]
    · rw [only]
      rfl

/-- The operation of a worker keeps the reports linked. -/
theorem linked_step {setting : Setting} {move : WorkerMove} {worker : Worker} {store : Store}
    (reports : ReportsLinked store) (informed : worker.Informed store) :
    ReportsLinked (worker.step setting move store).2 := by
  rw [Worker.step_store]
  cases performed : worker.operation setting move with
  | none => exact reports
  | some operation =>
      rw [Option.elim_some]
      rcases reports_of_effect (run_effect operation setting.host store) with
        ⟨sameReports, sameEvents⟩ | ⟨disposition, _, publication, now, record, rfl, rfl, created⟩
      · exact reports.of_same sameReports sameEvents
      · refine linked_of_created created reports ?_
        have attested : ∃ fence replays, worker = .attested fence replays record.attestation
            now := by
          unfold Worker.operation at performed
          split at performed
          · cases performed
          · cases performed
          · rename_i fence replays attestation _
            cases performed
            exact ⟨fence, replays, rfl⟩
          · rcases Option.map_eq_some_iff.mp performed with ⟨delay, -, impossible⟩
            cases impossible
          · cases performed
        rcases attested with ⟨fence, replays, rfl⟩
        exact (informed.attested fence replays _ now rfl).2 created.fenced.current

/-- A worker that moved changed the store by at most one call. -/
theorem store_of_step {setting : Setting} (move : WorkerMove) (worker : Worker)
    {service : Service} (opened : service.host = some setting.host) :
    (worker.step setting move service.store).2 = service.store ∨ ∃ call,
      (worker.step setting move service.store).2 = (service.apply call).store := by
  rw [Worker.step_store]
  cases worker.operation setting move with
  | none => exact .inl rfl
  | some operation => exact .inr ⟨.operation operation, by simp [Service.apply, opened]⟩

/-- The move of a worker leaves a worker informed that does not move. -/
theorem informed_of_step {setting : Setting} (move : WorkerMove) (worker : Worker)
    {service : Service} (opened : service.host = some setting.host) {other : Worker}
    (informed : other.Informed service.store) :
    other.Informed (worker.step setting move service.store).2 := by
  rcases store_of_step move worker opened with same | ⟨call, same⟩
  · rw [same]
    exact informed
  · rw [same]
    exact informed_apply call informed

/-- The step lemma of the worker that moves. -/
theorem informed_step {setting : Setting} {move : WorkerMove} {worker : Worker}
    {service : Service} (opened : service.host = some setting.host)
    (reports : ReportsLinked service.store) (informed : worker.Informed service.store) :
    (worker.step setting move service.store).1.Informed
      (worker.step setting move service.store).2 where
  seen lease held := by
    rcases Worker.lease_step held with before | current
    · exact (informed_of_step move worker opened informed).seen lease before
    · exact current.seen
  attested fence replays attestation now isAttested := by
    rcases Worker.attested_step isAttested with
      before | ⟨_, _, -, -, -, sameLease, sameStore, found⟩
    · exact (informed_of_step move worker opened informed).attested fence replays attestation now
        before
    · refine ⟨sameLease, fun _ => ?_⟩
      rcases currentVerifiedSupersession_of_linked reports attestation.lease.job.tradeId with
        ⟨supersession, isCurrent, names⟩
      rw [found, Option.some.injEq] at isCurrent
      rw [sameStore, isCurrent]
      exact names

theorem sound_apply (move : ReconcilerMove) (state : Reconcilers) (sound : state.Sound) :
    (state.apply move).Sound := by
  cases move with
  | call call other =>
      refine ⟨?_, fun index => informed_apply call (sound.informed index)⟩
      simp only [Reconcilers.apply]
      rcases apply_cases call state.service with ⟨operation, host, rfl, -, applied⟩ | only
      · rw [applied]
        rcases reports_of_effect (run_effect operation host state.service.store) with
          same | ⟨_, _, _, _, record, rfl, -⟩
        · exact sound.reports.of_same same.1 same.2
        · cases other
      · rw [only]
        exact sound.reports.of_same rfl rfl
  | restart index =>
      refine ⟨sound.reports, fun other => ?_⟩
      simp only [Reconcilers.apply]
      by_cases same : other = index
      · rw [same, Function.update_self]
        exact informed_idle _
      · rw [Function.update_of_ne same]
        exact sound.informed other
  | worker index setting move =>
      simp only [Reconcilers.apply]
      split
      · rename_i opened
        refine ⟨linked_step sound.reports (sound.informed index), fun other => ?_⟩
        by_cases same : other = index
        · simp only [same, Function.update_self]
          exact informed_step opened sound.reports (sound.informed index)
        · simp only [Function.update_of_ne same]
          exact informed_of_step move _ opened (sound.informed other)
      · exact sound

theorem sound_exec (moves : List ReconcilerMove) : (Reconcilers.exec moves .initial).Sound :=
  Transition.exec_invariant Reconcilers.Sound sound_apply moves sound_initial

/-- In every interleaving of any number of workers, the reports of a trade form one chain: at most
one of them supersedes nothing, every other one supersedes exactly one report, which is of the same
trade and was inserted earlier, no report is superseded twice, and the query for the report to
supersede never finds two. -/
theorem reports_form_one_chain (moves : List ReconcilerMove) (trade : TradeId) :
    let store := (Reconcilers.exec moves .initial).service.store
    (∀ left ∈ reportsOf trade store, ∀ right ∈ reportsOf trade store,
      left.supersedes = none → right.supersedes = none → left = right) ∧
    (∀ report ∈ reportsOf trade store, ∀ superseded ∈ report.supersedes,
      (∃ before earlier after, reportsOf trade store = before ++ earlier :: report :: after ∧
        earlier.statementDigest = superseded.1) ∧
      ∃! earlier, earlier ∈ store.reports.rows ∧ earlier.statementDigest = superseded.1) ∧
    (∀ left ∈ store.reports.rows, ∀ right ∈ store.reports.rows, ∀ report ∈ reportsOf trade store,
      left.superseded = some report.statementDigest →
      right.superseded = some report.statementDigest → left = right) ∧
    ∃ supersession, currentVerifiedSupersession trade store = some supersession ∧
      supersession.map (·.1) = (reportsOf trade store).getLast?.map (·.statementDigest) := by
  intro store
  have reports : ReportsLinked store := (sound_exec moves).reports
  refine ⟨?_, ?_, ?_, currentVerifiedSupersession_of_linked reports trade⟩
  · intro left leftMem right rightMem leftFirst rightFirst
    exact (reports.linked trade).first_unique leftMem rightMem
      (by simp [ReportRow.superseded, leftFirst]) (by simp [ReportRow.superseded, rightFirst])
  · intro report reportMem superseded names
    have named : report.superseded = some superseded.1 := by
      rw [ReportRow.superseded, Option.mem_def.mp names]
      rfl
    rcases (reports.linked trade).predecessor reportMem named with
      ⟨before, earlier, after, split, sameDigest⟩
    have earlierMem : earlier ∈ reportsOf trade store := by simp [split]
    refine ⟨⟨before, earlier, after, split, sameDigest⟩, earlier,
      ⟨(mem_reportsOf.mp earlierMem).1, sameDigest⟩, ?_⟩
    rintro other ⟨otherMem, otherDigest⟩
    exact eq_of_statementDigest_eq otherMem (mem_reportsOf.mp earlierMem).1
      (by rw [otherDigest, sameDigest])
  · intro left leftMem right rightMem report reportMem leftNames rightNames
    exact eq_of_superseded_eq leftMem rightMem leftNames rightNames

end Invariant

end Rhi
