import Rhi.Finalization.Chain
import Rhi.Lib.Board
import Rhi.Service.Scheduling

/-!
# The board the service keeps

The job table is a board of work: a trade opens a ticket for each generation of its evidence, the
holder of a lease works on it, and a finalization publishes the report of its generation.  Every
call of the service, whatever its commit reports, is a run of the board.
-/

namespace Rhi

open Relational Transactional

section Abstraction

/-- What a state of a job means on the board. -/
def JobState.progress : JobState → Board.Progress
  | .ready => .waiting
  | .leased => .running
  | .exhausted => .failed
  | .superseded => .superseded
  | .completed => .finished

/-- A job as a ticket of its trade. -/
def JobRow.ticket (row : JobRow) : Board.Ticket TradeId :=
  ⟨row.tradeId, row.inputGeneration, row.state.progress, row.attemptCount, row.maxAttempts⟩

/-- The generation of the manifest a report attests. -/
def reportGeneration (store : Store) (report : ReportRow) : Option Nat :=
  (store.manifests.rows.find? fun manifest =>
    manifest.manifestDigest == report.manifestDigest).map (·.tradeGeneration)

/-- The reports of a trade with their generations. -/
def reportedBy (trade : TradeId) (store : Store) : List (Nat × ReportRow) :=
  (reportsOf trade store).filterMap fun report =>
    (reportGeneration store report).map fun generation => (generation, report)

/-- The board of a store. -/
def Store.board (store : Store) : Board.State JobId TradeId ReportRow where
  tickets id := (jobRow store id).map JobRow.ticket
  reports trade := reportedBy trade store

theorem JobState.live_progress (state : JobState) : state.progress.live = state.active := by
  cases state <;> rfl

theorem jobRow_spec {store : Store} {id : JobId} {row : JobRow}
    (found : jobRow store id = some row) : row ∈ store.jobs.rows ∧ row.jobId = id :=
  ⟨List.mem_of_find?_eq_some found, by simpa using List.find?_some found⟩

theorem jobRow_eq_none {store : Store} {id : JobId} :
    jobRow store id = none ↔ ∀ row ∈ store.jobs.rows, row.jobId ≠ id := by
  simp [jobRow]

/-- A store without changes to jobs, manifests and reports shows the same board. -/
theorem board_of_same {before after : Store} (jobs : after.jobs = before.jobs)
    (manifests : after.manifests = before.manifests) (reports : after.reports = before.reports) :
    after.board = before.board := by
  refine Board.State.ext ?_ ?_
  · simp [Store.board, jobRow, jobs]
  · simp [Store.board, reportedBy, reportGeneration, reportsOf, manifests, reports]

end Abstraction

section Moves

/-- A rewriting of a job that neither supersedes nor completes it is a move of its ticket. -/
theorem RowChange.moves {old new : JobRow} {kind : StepKind} (change : RowChange old kind new)
    (stays : kind ≠ .supersession ∧ kind ≠ .completion) :
    new.ticket = old.ticket ∨ old.ticket.Moves new.ticket := by
  cases change.step with
  | supersede now id revision selected => exact absurd rfl stays.1
  | complete now lease selected => exact absurd rfl stays.2
  | expire now due =>
      simp only [JobRow.exhaustible, Bool.and_eq_true, beq_iff_eq, decide_eq_true_eq] at due
      have running : old.ticket.progress = .running := by
        simp [JobRow.ticket, due.1.1.1, JobState.progress]
      exact .inr (.givenUp running due.1.2)
  | claim owner expires now id revision selected =>
      have active := change.active
      simp only [claimJob, JobRow.claimable, Bool.and_eq_true, decide_eq_true_eq] at selected
      have live : old.ticket.progress.live = true := by
        rw [JobRow.ticket, JobState.live_progress, active]
      exact .inr (.taken live selected.2.1.1)
  | renew expires now lease selected => exact .inl rfl
  | retry next now lease selected =>
      simp only [retryJob, JobRow.heldBy, Bool.and_eq_true, beq_iff_eq,
        decide_eq_true_eq] at selected
      have running : old.ticket.progress = .running := by
        simp [JobRow.ticket, selected.1.1.1.1.2, JobState.progress]
      exact .inr (.givenBack running selected.2)
  | exhaust now lease selected =>
      simp only [exhaustJob, JobRow.heldBy, Bool.and_eq_true, beq_iff_eq,
        decide_eq_true_eq] at selected
      have running : old.ticket.progress = .running := by
        simp [JobRow.ticket, selected.1.1.1.1.2, JobState.progress]
      exact .inr (.givenUp running selected.2)

/-- Rewriting jobs in this way is a run of the board. -/
theorem run_of_rewritten {kinds : List StepKind} {before after : Store}
    (only : JobsOnly before after)
    (rewritten : JobsRewritten kinds before.jobs.rows after.jobs.rows)
    (stays : ∀ kind ∈ kinds, kind ≠ .supersession ∧ kind ≠ .completion) :
    Relation.ReflTransGen Board.Step before.board after.board := by
  have sameReports : after.board = { before.board with tickets := after.board.tickets } := by
    refine Board.State.ext rfl ?_
    rw [only]
    rfl
  rw [sameReports]
  refine Board.run_of_moves (before.jobs.rows.map (·.jobId)) ?_ ?_
  · intro id unlisted
    have absent : ∀ row ∈ before.jobs.rows, row.jobId ≠ id := by
      intro row rowMem same
      exact unlisted (List.mem_map.mpr ⟨row, rowMem, same⟩)
    have absentAfter : ∀ row ∈ after.jobs.rows, row.jobId ≠ id := by
      intro row rowMem same
      rcases rewritten.origin rowMem with ⟨old, oldMem, sameId, -⟩
      exact absent old oldMem (sameId.trans same)
    simp only [Store.board, jobRow_eq_none.mpr absent, jobRow_eq_none.mpr absentAfter]
  · intro id listed
    rcases List.mem_map.mp listed with ⟨row, rowMem, rfl⟩
    rcases rewritten.successor rowMem with ⟨next, nextMem, sameId, changed⟩
    have found : before.board.tickets row.jobId = some row.ticket := by
      simp [Store.board, jobRow_of_mem rowMem]
    have foundAfter : after.board.tickets row.jobId = some next.ticket := by
      have read := jobRow_of_mem nextMem
      rw [sameId] at read
      simp [Store.board, read]
    rcases changed with same | ⟨kind, kindMem, change⟩
    · exact .inl (by rw [found, foundAfter, same])
    · rcases change.moves (stays kind kindMem) with same | moves
      · exact .inl (by rw [found, foundAfter, same])
      · exact .inr ⟨row.ticket, next.ticket, found, foundAfter, moves⟩

end Moves

section Opening

theorem ticket_supersededFor (trade : TradeId) (now : Nat) (row : JobRow) :
    (row.supersededFor trade now).ticket = row.ticket.supersededFor trade := by
  unfold JobRow.supersededFor Board.Ticket.supersededFor
  have live : row.ticket.progress.live = row.state.active := JobState.live_progress row.state
  have owner : row.ticket.owner = row.tradeId := rfl
  rw [live, owner]
  split
  · rfl
  · rfl

variable [Sha256]

/-- A job that a schedule call made is a ticket opened for the generation of its trade. -/
theorem step_of_created {trade : TradeId} {policy : JobPolicy} {now : Nat} {dirty : DirtyRow}
    {store next : Store} {job : Job} (read : readDirty store trade = some dirty)
    (behind : JobsBehind store) (wellFormed : ∀ row ∈ store.jobs.rows, row.WellFormed)
    (created : ScheduleCreated trade policy now dirty store next job) :
    Board.Step store.board next.board := by
  have key : (readyRow trade dirty policy now).jobId =
      jobId trade dirty.generation dirty.evidencePolicy := rfl
  have opened : next.board = { store.board with
      tickets := Function.update (store.board.supersededFor trade)
        (readyRow trade dirty policy now).jobId
        (some (.opened trade dirty.generation policy.maxAttempts)) } := by
    refine Board.State.ext ?_ ?_
    · funext id
      by_cases same : id = (readyRow trade dirty policy now).jobId
      · have readyMem : readyRow trade dirty policy now ∈ next.jobs.rows := by
          simp [created.rows]
        subst same
        simp only [Store.board, jobRow_of_mem readyMem, Function.update_self]
        rfl
      · simp only [Function.update_of_ne same]
        cases found : jobRow store id with
        | none =>
            have absent := jobRow_eq_none.mp found
            have absentAfter : jobRow next id = none := by
              refine jobRow_eq_none.mpr ?_
              intro row rowMem sameId
              rw [created.rows, List.mem_append, List.mem_singleton] at rowMem
              rcases rowMem with old | rfl
              · rcases List.mem_map.mp old with ⟨stored, storedMem, rfl⟩
                rw [JobRow.supersededFor_jobId] at sameId
                exact absent stored storedMem sameId
              · exact same sameId.symm
            simp [Store.board, Board.State.supersededFor, found, absentAfter]
        | some row =>
            rcases jobRow_spec found with ⟨rowMem, rfl⟩
            have laterMem : row.supersededFor trade now ∈ next.jobs.rows := by
              rw [created.rows]
              exact List.mem_append_left _ (List.mem_map_of_mem rowMem)
            have later := jobRow_of_mem laterMem
            rw [JobRow.supersededFor_jobId] at later
            simp [Store.board, Board.State.supersededFor, found, later, ticket_supersededFor]
    · rw [created.only]
      rfl
  rw [opened]
  refine .opened ?_ ?_
  · simp [Store.board, jobRow_eq_none.mpr created.fresh]
  · intro id ticket found sameTrade
    rcases Option.map_eq_some_iff.mp found with ⟨row, rowFound, rfl⟩
    rcases jobRow_spec rowFound with ⟨rowMem, -⟩
    rcases behind row rowMem with ⟨own, ownRead, ordered⟩
    have sameOwner : row.tradeId = trade := sameTrade
    rw [sameOwner, Option.mem_def, read] at ownRead
    cases ownRead
    refine lt_of_le_of_ne ordered.generation ?_
    intro sameGeneration
    refine created.fresh row rowMem ?_
    have current : row.inputGeneration = dirty.generation := sameGeneration
    rw [(wellFormed row rowMem).identity, key, sameOwner, current, ordered.policy current]

end Opening

section Finishing

variable [Sha256]

/-- A created finalization rewrites exactly the row of its lease. -/
theorem createFinalization_rows {record : FinalizationRecord} {store next : Store}
    {outcome : FinalizationOutcome} (done : createFinalization record store = .ok (outcome, next)) :
    next.jobs.rows = store.jobs.rows.map
      (Table.rewrite (completeJob record.now.get record.attestation.lease)) := by
  simp only [createFinalization, bind_eq_ok] at done
  rcases done with ⟨_, -, _, -, _, -, _, -, _, -, inserted, inserting, completed, completing,
    finished⟩
  simp only [pure_eq_ok, Prod.mk.injEq] at finished
  rcases finished with ⟨-, rfl⟩
  have sameJobs : inserted.jobs = store.jobs := by rw [(insertFinalization_spec inserting).only]
  simp only [completeLease, bind_eq_ok, mapError_eq_ok, require_eq_ok, pure_eq_ok] at completing
  rcases completing with ⟨⟨affected, last⟩, updated, -, -, rfl⟩
  rw [(updateJobs_spec updated).2.1, sameJobs]

/-- A finalization found itself durable, or created its rows and completed one job. -/
theorem finalize_rows {record : FinalizationRecord} {store next : Store}
    {outcome : FinalizationOutcome} (done : finalize record store = .ok (outcome, next)) :
    next = store ∨ (FinalizationCreated record store next ∧
      next.jobs.rows = store.jobs.rows.map
        (Table.rewrite (completeJob record.now.get record.attestation.lease))) := by
  simp only [finalize, bind_eq_ok] at done
  rcases done with ⟨durable, -, done⟩
  cases durable with
  | true =>
      simp only [if_true, pure_eq_ok, Prod.mk.injEq] at done
      exact .inl done.2.symm
  | false =>
      simp only [Bool.false_eq_true, if_false] at done
      exact .inr ⟨(createFinalization_spec done).2, createFinalization_rows done⟩

/-- Every report names a stored manifest. -/
def ReportsDocumented (store : Store) : Prop :=
  ∀ report ∈ store.reports.rows, ∃ manifest ∈ store.manifests.rows,
    manifest.manifestDigest = report.manifestDigest

omit [Sha256] in
theorem ReportsDocumented.present {store : Store} (documented : ReportsDocumented store)
    {report : ReportRow} (reportMem : report ∈ store.reports.rows) :
    (store.manifests.rows.find? fun manifest =>
      manifest.manifestDigest == report.manifestDigest).isSome := by
  rcases documented report reportMem with ⟨manifest, manifestMem, same⟩
  rw [List.find?_isSome]
  exact ⟨manifest, manifestMem, by simp [same]⟩

/-- The reports of a trade after a finalization: those before it and, for its trade, its own. -/
theorem reportedBy_of_inserted {record : FinalizationRecord} {store next : Store}
    (documented : ReportsDocumented store)
    (manifests : next.manifests.rows = store.manifests.rows ++ [record.attestation.manifestRow])
    (reports : next.reports.rows = store.reports.rows ++ [record.attestation.reportRow])
    (trade : TradeId) :
    reportedBy trade next = reportedBy trade store ++
      if record.attestation.lease.job.tradeId = trade then
        [(record.attestation.lease.job.inputGeneration, record.attestation.reportRow)]
      else
        [] := by
  have kept : ∀ report ∈ store.reports.rows,
      reportGeneration next report = reportGeneration store report := by
    intro report reportMem
    unfold reportGeneration
    rw [manifests, List.find?_append, Option.or_of_isSome (documented.present reportMem)]
  have new : reportGeneration next record.attestation.reportRow =
      some record.attestation.lease.job.inputGeneration := by
    have distinct := next.manifests.distinct
    rw [manifests] at distinct
    have absent : (store.manifests.rows.find? fun stored =>
        stored.manifestDigest == record.attestation.reportRow.manifestDigest) = none := by
      rw [List.find?_eq_none]
      intro stored storedMem same
      have apart := (List.pairwise_append.mp distinct).2.2 stored storedMem
        record.attestation.manifestRow (List.mem_singleton_self _)
      have sameDigest : stored.manifestDigest = record.attestation.reportRow.manifestDigest := by
        simpa using same
      have clash : stored.manifestDigest =
          record.attestation.manifestRow.manifestDigest := sameDigest
      simp [evidenceManifests, clash] at apart
    unfold reportGeneration
    rw [manifests, List.find?_append, absent]
    simp [Attestation.reportRow, Attestation.manifestRow]
  have before : (reportsOf trade store).filterMap (fun report =>
      (reportGeneration next report).map fun generation => (generation, report)) =
        reportedBy trade store := by
    refine List.filterMap_congr ?_
    intro report reportMem
    rw [kept report (mem_reportsOf.mp reportMem).1]
  have all : reportsOf trade next = reportsOf trade store ++
      if record.attestation.lease.job.tradeId = trade then
        [record.attestation.reportRow]
      else
        [] := by
    unfold reportsOf
    rw [reports, List.filter_append]
    by_cases same : record.attestation.lease.job.tradeId = trade
    · simp [Attestation.reportRow, same]
    · simp [Attestation.reportRow, same]
  unfold reportedBy at before ⊢
  rw [all, List.filterMap_append, before]
  split
  · simp [new]
  · rfl

omit [Sha256] in
/-- A statement that keeps the identifiers rewrites what is found under them. -/
theorem jobRow_of_rows {change : Change JobRow} {store next : Store}
    (rows : next.jobs.rows = store.jobs.rows.map (Table.rewrite change))
    (kept : ∀ row, (change.write row).jobId = row.jobId) (id : JobId) :
    jobRow next id = (jobRow store id).map (Table.rewrite change) := by
  unfold jobRow
  rw [rows]
  refine Table.find?_map_rewrite _ ?_
  intro row
  rw [kept]

omit [Sha256] in
/-- Completing the job of a lease finishes its ticket and leaves the others alone. -/
theorem tickets_of_completed {now : Nat} {lease : Lease} {row : JobRow} {store next : Store}
    (written : (completeJob now lease).write row ∈ next.jobs.rows)
    (heldId : row.jobId = lease.job.id)
    (rows : next.jobs.rows = store.jobs.rows.map (Table.rewrite (completeJob now lease))) :
    next.board.tickets =
      Function.update store.board.tickets row.jobId (some row.ticket.finish) := by
  funext id
  by_cases same : id = row.jobId
  · subst same
    have completed : jobRow next row.jobId = some ((completeJob now lease).write row) :=
      jobRow_of_mem written
    rw [Function.update_self]
    simp only [Store.board, completed]
    rfl
  · rw [Function.update_of_ne same]
    have looked := jobRow_of_rows rows (fun _ => rfl) id
    cases found : jobRow store id with
    | none => simp [Store.board, looked, found]
    | some other =>
        have apart : other.jobId ≠ lease.job.id := by
          rw [(jobRow_spec found).2, ← heldId]
          exact same
        have spared : Table.rewrite (completeJob now lease) other = other :=
          Table.rewrite_of_not_selects (by simp [completeJob, JobRow.heldBy, apart])
        simp [Store.board, looked, found, spared]

/-- The reports on the board after a finalization. -/
theorem reports_of_inserted {record : FinalizationRecord} {store next : Store}
    (documented : ReportsDocumented store)
    (manifests : next.manifests.rows = store.manifests.rows ++ [record.attestation.manifestRow])
    (reports : next.reports.rows = store.reports.rows ++ [record.attestation.reportRow]) :
    next.board.reports = Function.update store.board.reports record.attestation.lease.job.tradeId
      (store.board.reports record.attestation.lease.job.tradeId ++
        [(record.attestation.lease.job.inputGeneration, record.attestation.reportRow)]) := by
  funext trade
  have shown : next.board.reports trade = reportedBy trade store ++
      if record.attestation.lease.job.tradeId = trade then
        [(record.attestation.lease.job.inputGeneration, record.attestation.reportRow)]
      else
        [] := reportedBy_of_inserted documented manifests reports trade
  by_cases same : trade = record.attestation.lease.job.tradeId
  · subst same
    rw [Function.update_self, shown, if_pos rfl]
    rfl
  · rw [Function.update_of_ne same, shown, if_neg (Ne.symm same), List.append_nil]
    rfl

/-- The row a finalization completes: a leased one, of the trade and generation of its job. -/
theorem FinalizationCreated.leased {record : FinalizationRecord} {store next : Store}
    (created : FinalizationCreated record store next) :
    ∃ row ∈ store.jobs.rows, row.state = .leased ∧
      (completeJob record.now.get record.attestation.lease).write row ∈ next.jobs.rows ∧
      row.jobId = record.attestation.lease.job.id ∧
      row.tradeId = record.attestation.lease.job.tradeId ∧
      row.inputGeneration = record.attestation.lease.job.inputGeneration := by
  rcases created.held with ⟨row, rowMem, held, written⟩
  rcases created.fenced.current with ⟨read, readMem, readFrom⟩
  simp only [JobRow.heldBy, Bool.and_eq_true, beq_iff_eq] at held
  have heldId : row.jobId = record.attestation.lease.job.id := held.1.1.1.1
  have sameRow : record.attestation.lease.job.toRow = row := by
    rw [toRow_of_decodeJob readFrom.decoded]
    exact eq_of_jobId_eq readMem rowMem (readFrom.jobId.trans heldId.symm)
  refine ⟨row, rowMem, held.1.1.2, written, heldId, ?_, ?_⟩
  · rw [← sameRow]
    rfl
  · rw [← sameRow]
    rfl

/-- A created finalization finishes the ticket of its lease. -/
theorem step_of_finalized {record : FinalizationRecord} {store next : Store}
    (documented : ReportsDocumented store) (created : FinalizationCreated record store next)
    (rows : next.jobs.rows = store.jobs.rows.map
      (Table.rewrite (completeJob record.now.get record.attestation.lease))) :
    Board.Step store.board next.board := by
  rcases created.leased with ⟨row, rowMem, leased, written, heldId, sameTrade, sameGeneration⟩
  have owner : row.ticket.owner = record.attestation.lease.job.tradeId := sameTrade
  have generation : row.ticket.generation = record.attestation.lease.job.inputGeneration :=
    sameGeneration
  have finished : next.board = {
      tickets := Function.update store.board.tickets row.jobId (some row.ticket.finish)
      reports := Function.update store.board.reports row.ticket.owner
        (store.board.reports row.ticket.owner ++
          [(row.ticket.generation, record.attestation.reportRow)]) } := by
    refine Board.State.ext ?_ ?_
    · exact tickets_of_completed written heldId rows
    · rw [owner, generation]
      exact reports_of_inserted documented created.inserted.manifests created.inserted.reports
  rw [finished]
  refine .finished ?_ ?_
  · simp [Store.board, jobRow_of_mem rowMem]
  · simp [JobRow.ticket, leased, JobState.progress]

end Finishing

section Calls

theorem run_of_same {before after : Store} (jobs : after.jobs = before.jobs)
    (manifests : after.manifests = before.manifests) (reports : after.reports = before.reports) :
    Relation.ReflTransGen Board.Step before.board after.board := by
  rw [board_of_same jobs manifests reports]

theorem ReportsDocumented.of_same {before after : Store}
    (manifests : after.manifests = before.manifests) (reports : after.reports = before.reports)
    (documented : ReportsDocumented before) : ReportsDocumented after := by
  unfold ReportsDocumented
  rw [manifests, reports]
  exact documented

variable [Sha256]

theorem ReportsDocumented.of_effect {host : Host} {before after : Store} {operation : Operation}
    (effect : Effect host before operation after) (documented : ReportsDocumented before) :
    ReportsDocumented after := by
  cases effect with
  | unchanged => exact documented
  | scheduled read scheduled =>
      exact documented.of_same (by rw [scheduled.only]) (by rw [scheduled.only])
  | claimed only rewritten => exact documented.of_same (by rw [only]) (by rw [only])
  | renewed only rewritten => exact documented.of_same (by rw [only]) (by rw [only])
  | failed only rewritten => exact documented.of_same (by rw [only]) (by rw [only])
  | ingested parts =>
      exact documented.of_same (by rw [parts.evidenceOnly]) (by rw [parts.evidenceOnly])
  | committed created =>
      exact documented.of_same (by rw [created.only]) (by rw [created.only])
  | @finalized _ attestation _ _ record _ made absent created =>
      have manifests : after.manifests.rows =
          before.manifests.rows ++ [record.attestation.manifestRow] := created.inserted.manifests
      have reports : after.reports.rows =
          before.reports.rows ++ [record.attestation.reportRow] := created.inserted.reports
      intro report reportMem
      rw [reports, List.mem_append, List.mem_singleton] at reportMem
      rw [manifests]
      rcases reportMem with old | rfl
      · rcases documented report old with ⟨manifest, manifestMem, same⟩
        exact ⟨manifest, List.mem_append_left _ manifestMem, same⟩
      · exact ⟨_, List.mem_append_right _ (List.mem_singleton_self _), rfl⟩
  | outboxProgressed updated => exact documented
  | targetsProgressed updated => exact documented

/-- A schedule call opens a ticket, or leaves the board alone. -/
theorem run_of_scheduleTrade (mode : HostMode) (disposition : Disposition) (trade : TradeId)
    (policy : JobPolicy) (now : UnixMilliseconds) {store : Store} (behind : JobsBehind store)
    (wellFormed : ∀ row ∈ store.jobs.rows, row.WellFormed) :
    Relation.ReflTransGen Board.Step store.board
      (scheduleTrade mode disposition trade policy now store).2.board := by
  unfold scheduleTrade
  split
  · exact .refl
  · rcases transaction_store mapJobError disposition (schedule trade policy now) store
      with same | ⟨outcome, next, done, same⟩
    · rw [same]
    · rw [same]
      rcases schedule_cases done with ⟨dirty, read, ⟨-, rfl⟩ | ⟨-, created⟩, -⟩
      · exact .refl
      · exact .single (step_of_created read behind wellFormed created)

/-- A commit finishes the ticket of its lease, or leaves the board alone. -/
theorem run_of_commitFinalization (host : Host) (disposition : Disposition)
    (attestation : Attestation) (publication : PublicationAuthority) (now : UnixMilliseconds)
    {store : Store} (documented : ReportsDocumented store) :
    Relation.ReflTransGen Board.Step store.board
      (commitFinalization host disposition attestation publication now store).2.board := by
  unfold commitFinalization
  split
  · exact .refl
  · split
    · exact .refl
    · split
      · exact .refl
      · rename_i record made
        rcases transaction_store mapFinalizationError disposition (finalize record) store
          with same | ⟨outcome, next, done, same⟩
        · rw [same]
        · rw [same]
          rcases finalize_rows done with rfl | ⟨created, rows⟩
          · exact .refl
          · exact .single (step_of_finalized documented created rows)

/-- The other operations move tickets, or leave the board alone. -/
theorem run_of_effect {host : Host} {before after : Store} {operation : Operation}
    (effect : Effect host before operation after)
    (unscheduled : ∀ disposition trade policy now,
      operation ≠ .scheduleTrade disposition trade policy now)
    (uncommitted : ∀ disposition attestation publication now,
      operation ≠ .commitFinalization disposition attestation publication now) :
    Relation.ReflTransGen Board.Step before.board after.board := by
  cases effect with
  | unchanged => exact .refl
  | scheduled read scheduled => exact absurd rfl (unscheduled _ _ _ _)
  | claimed only rewritten => exact run_of_rewritten only rewritten (by simp)
  | renewed only rewritten => exact run_of_rewritten only rewritten (by simp)
  | failed only rewritten => exact run_of_rewritten only rewritten (by simp)
  | ingested parts =>
      exact run_of_same (by rw [parts.evidenceOnly]) (by rw [parts.evidenceOnly])
        (by rw [parts.evidenceOnly])
  | committed created =>
      exact run_of_same (by rw [created.only]) (by rw [created.only]) (by rw [created.only])
  | finalized made absent created => exact absurd rfl (uncommitted _ _ _ _)
  | outboxProgressed updated => exact run_of_same rfl rfl rfl
  | targetsProgressed updated => exact run_of_same rfl rfl rfl

variable [TradeEvidence]

/-- What the board of a service rests on. -/
structure Service.Boarded (service : Service) : Prop where
  bound : service.Bound
  wellFormed : JobsWellFormed service
  behind : JobsBehind service.store
  documented : ReportsDocumented service.store

theorem boarded_initial : Service.initial.Boarded where
  bound := bound_initial
  wellFormed := jobsWellFormed_exec []
  behind row rowMem := by simp [Service.initial, Store.initial] at rowMem
  documented report reportMem := by simp [Service.initial, Store.initial] at reportMem

theorem boarded_apply (call : Call) (service : Service) (boarded : service.Boarded) :
    (service.apply call).Boarded where
  bound := (dirty_apply call boarded.bound).1
  wellFormed := jobsWellFormed_apply call service boarded.wellFormed
  behind := behind_apply call boarded.bound boarded.behind
  documented := by
    rcases apply_cases call service with ⟨operation, host, rfl, -, applied⟩ | only
    · rw [applied]
      exact boarded.documented.of_effect (run_effect operation host service.store)
    · exact boarded.documented.of_same (by rw [only]) (by rw [only])

/-- Every operation is a run of the board. -/
theorem run_of_operation (operation : Operation) (host : Host) {service : Service}
    (boarded : service.Boarded) :
    Relation.ReflTransGen Board.Step service.store.board
      (operation.run host service.store).board := by
  have effect := run_effect operation host service.store
  cases operation with
  | scheduleTrade disposition trade policy now =>
      exact run_of_scheduleTrade host.mode disposition trade policy now boarded.behind
        boarded.wellFormed
  | commitFinalization disposition attestation publication now =>
      exact run_of_commitFinalization host disposition attestation publication now
        boarded.documented
  | claimNext | renew | recordFailure | commitSourceResult | commitSourceReplays
  | progressOutbox | progressTargets => exact run_of_effect effect (by simp) (by simp)

/-- The service simulates the board of its store. -/
theorem simulates_board : Simulation.Simulates Service.apply Service.Boarded Board.Step
    fun service => service.store.board where
  kept := boarded_apply
  simulated call service boarded := by
    rcases apply_cases call service with ⟨operation, host, rfl, -, applied⟩ | only
    · rw [applied]
      exact run_of_operation operation host boarded
    · exact run_of_same (by rw [only]) (by rw [only]) (by rw [only])

omit [Sha256] [TradeEvidence] in
theorem board_initial : Service.initial.store.board = .empty := by
  refine Board.State.ext ?_ ?_
  · funext id
    simp [Store.board, jobRow, Service.initial, Store.initial, Board.State.empty]
  · funext trade
    simp [Store.board, reportedBy, reportsOf, Service.initial, Store.initial, Board.State.empty]

end Calls

section Guarantees

theorem JobState.progress_eq_finished {state : JobState} :
    state.progress = .finished ↔ state = .completed := by
  cases state <;> simp [JobState.progress]

theorem ticket_of_mem {store : Store} {row : JobRow} (rowMem : row ∈ store.jobs.rows) :
    store.board.tickets row.jobId = some row.ticket := by
  simp [Store.board, jobRow_of_mem rowMem]

theorem row_of_ticket {store : Store} {id : JobId} {ticket : Board.Ticket TradeId}
    (found : store.board.tickets id = some ticket) :
    ∃ row ∈ store.jobs.rows, row.jobId = id ∧ row.ticket = ticket := by
  rcases Option.map_eq_some_iff.mp found with ⟨row, rowFound, same⟩
  rcases jobRow_spec rowFound with ⟨rowMem, sameId⟩
  exact ⟨row, rowMem, sameId, same⟩

/-- Every report has the generation of its manifest. -/
theorem reportedBy_reports {store : Store} (documented : ReportsDocumented store)
    (trade : TradeId) : (reportedBy trade store).map (·.2) = reportsOf trade store := by
  have each : ∀ report ∈ reportsOf trade store,
      ((reportGeneration store report).map fun generation => (generation, report)).map (·.2) =
        some report := by
    intro report reportMem
    rcases Option.isSome_iff_exists.mp (documented.present (mem_reportsOf.mp reportMem).1) with
      ⟨manifest, found⟩
    simp [reportGeneration, found]
  unfold reportedBy
  rw [List.map_filterMap, List.filterMap_congr each, List.filterMap_some]

/-- The reports of a trade are published for good. -/
theorem reportedBy_grows {before after : Store}
    (run : Relation.ReflTransGen Board.Step before.board after.board) (trade : TradeId) :
    reportedBy trade before <+: reportedBy trade after :=
  (Board.goesOn_run run).reports trade

theorem sound_of_run {store : Store}
    (run : Relation.ReflTransGen Board.Step Service.initial.store.board store.board) :
    Board.Sound store.board := by
  refine Board.sound_run run ?_
  rw [board_initial]
  exact Board.sound_empty

/-- How the reports of a trade follow its jobs. -/
structure ReportsFollow (trade : TradeId) (store : Store) : Prop where
  every : (reportedBy trade store).map (·.2) = reportsOf trade store
  increasing : (reportedBy trade store).Pairwise fun left right => left.1 < right.1
  /-- A generation is reported exactly when its job is complete. -/
  completed : ∀ generation, generation ∈ (reportedBy trade store).map (·.1) ↔
    ∃ row ∈ store.jobs.rows, row.tradeId = trade ∧ row.inputGeneration = generation ∧
      row.state = .completed
  distinct : ∀ row ∈ store.jobs.rows, ∀ other ∈ store.jobs.rows, row.tradeId = trade →
    other.tradeId = trade → row.inputGeneration = other.inputGeneration → row = other
  /-- The trade has one active job at most, later than every report. -/
  active : ∀ row ∈ store.jobs.rows, row.tradeId = trade → row.state.active = true →
    (∀ other ∈ store.jobs.rows, other.tradeId = trade → other.state.active = true → other = row) ∧
      ∀ entry ∈ reportedBy trade store, entry.1 < row.inputGeneration
  superseded : ∀ row ∈ store.jobs.rows, row.tradeId = trade → row.state = .superseded →
    ∃ later ∈ store.jobs.rows, later.tradeId = trade ∧ row.inputGeneration < later.inputGeneration
  attempts : ∀ row ∈ store.jobs.rows, row.tradeId = trade → row.attemptCount ≤ row.maxAttempts
  /-- No report is ahead of the evidence of the trade. -/
  current : ∀ entry ∈ reportedBy trade store, entry.1 ≤ dirtyGeneration store trade

variable [Sha256] [TradeEvidence]

omit [TradeEvidence] in
/-- A sound board has reports that follow the jobs. -/
theorem ReportsFollow.of_sound {service : Service} (boarded : service.Boarded)
    (sound : Board.Sound service.store.board) (trade : TradeId) :
    ReportsFollow trade service.store := by
  have completed : ∀ generation, generation ∈ (reportedBy trade service.store).map (·.1) ↔
      ∃ row ∈ service.store.jobs.rows, row.tradeId = trade ∧ row.inputGeneration = generation ∧
        row.state = .completed := by
    intro generation
    refine (sound.reported trade generation).trans ?_
    constructor
    · rintro ⟨id, ticket, found, owner, sameGeneration, finished⟩
      rcases row_of_ticket found with ⟨row, rowMem, -, rfl⟩
      exact ⟨row, rowMem, owner, sameGeneration, JobState.progress_eq_finished.mp finished⟩
    · rintro ⟨row, rowMem, sameTrade, sameGeneration, complete⟩
      exact ⟨row.jobId, row.ticket, ticket_of_mem rowMem, sameTrade, sameGeneration,
        JobState.progress_eq_finished.mpr complete⟩
  refine ⟨reportedBy_reports boarded.documented trade, sound.increasing trade, completed,
    ?_, ?_, ?_, ?_, ?_⟩
  · intro row rowMem other otherMem sameTrade otherTrade sameGeneration
    have sameId := sound.distinct _ _ _ _ (ticket_of_mem rowMem) (ticket_of_mem otherMem)
      (sameTrade.trans otherTrade.symm) sameGeneration
    exact eq_of_jobId_eq rowMem otherMem sameId
  · intro row rowMem sameTrade active
    have live : row.ticket.progress.live = true := (JobState.live_progress row.state).trans active
    constructor
    · intro other otherMem otherTrade otherActive
      have otherLive : other.ticket.progress.live = true :=
        (JobState.live_progress other.state).trans otherActive
      have sameId := sound.live_unique (ticket_of_mem otherMem) (ticket_of_mem rowMem) otherLive
        live (otherTrade.trans sameTrade.symm)
      exact eq_of_jobId_eq otherMem rowMem sameId
    · intro entry entryMem
      have earlier := sound.reports_lt (ticket_of_mem rowMem) live entry
      rw [← sameTrade] at entryMem
      exact earlier entryMem
  · intro row rowMem sameTrade superseded
    have replaced : row.ticket.progress = .superseded := by
      simp [JobRow.ticket, superseded, JobState.progress]
    rcases sound.replaced _ _ (ticket_of_mem rowMem) replaced with ⟨id, ticket, found, owner, newer⟩
    rcases row_of_ticket found with ⟨later, laterMem, -, rfl⟩
    exact ⟨later, laterMem, owner.trans sameTrade, newer⟩
  · intro row rowMem _
    exact sound.attempts _ _ (ticket_of_mem rowMem)
  · intro entry entryMem
    rcases (completed entry.1).mp (List.mem_map_of_mem entryMem) with
      ⟨row, rowMem, sameTrade, sameGeneration, -⟩
    rcases boarded.behind row rowMem with ⟨dirty, read, ordered⟩
    rw [sameTrade, Option.mem_def] at read
    have generation : dirtyGeneration service.store trade = dirty.generation := by
      simp [dirtyGeneration, read]
    rw [generation, ← sameGeneration]
    exact ordered.generation

/-- The service refines a board of work that starts empty. -/
theorem service_refines_board :
    (Simulation.Simulates Service.apply Service.Boarded Board.Step
      fun service => service.store.board) ∧
    Service.initial.Boarded ∧ Service.initial.store.board = .empty ∧
    ∀ calls later, Relation.ReflTransGen Board.Step (Service.exec calls .initial).store.board
      ((Service.exec calls .initial).exec later).store.board := by
  refine ⟨simulates_board, boarded_initial, board_initial, ?_⟩
  intro calls later
  have boarded := Transition.exec_invariant Service.Boarded simulates_board.kept calls
    boarded_initial
  exact simulates_board.exec later boarded

/-- After every run of the service the reports of every trade follow its jobs, and a later run only
adds reports. -/
theorem reports_follow_jobs (calls : List Call) (trade : TradeId) :
    ReportsFollow trade (Service.exec calls .initial).store ∧
    ∀ later, reportedBy trade (Service.exec calls .initial).store <+:
      reportedBy trade ((Service.exec calls .initial).exec later).store := by
  have boarded := Transition.exec_invariant Service.Boarded simulates_board.kept calls
    boarded_initial
  have run := simulates_board.exec calls boarded_initial
  refine ⟨.of_sound boarded (sound_of_run run) trade, ?_⟩
  intro later
  exact reportedBy_grows (simulates_board.exec later boarded) trade

end Guarantees

end Rhi
