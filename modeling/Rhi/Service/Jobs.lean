import Rhi.Service.Effects

/-!
# The job table over whole runs

One call rewrites some active rows, each once, or appends one ready row after retiring the active
row of the same trade.  From this step lemma follow the shape of the stored rows, their history and
the bound of the queue, for every run of the service.
-/

namespace Rhi

open Relational Transactional

section Steps

/-- The reasons a call may rewrite a job row for. -/
def Call.stepKinds : Call → List StepKind
  | .operation (.scheduleTrade ..) => [.supersession]
  | .operation (.claimNext ..) => [.expiry, .claim]
  | .operation (.renew ..) => [.renewal]
  | .operation (.recordFailure ..) => [.failure]
  | .operation (.commitFinalization ..) => [.completion]
  | _ => []

/-- What a call may leave of a stored row: the row itself, or one guarded rewriting of an active
row. -/
def JobRow.Follows (old new : JobRow) : Prop :=
  new = old ∨ (old.state.active = true ∧ old.SameIdentity new ∧
    new.revision = old.revision + 1 ∧ old.updatedAt ≤ new.updatedAt)

theorem RowChange.follows {old new : JobRow} {kind : StepKind} (change : RowChange old kind new) :
    old.Follows new :=
  .inr ⟨change.active, change.sameIdentity, change.revision_succ, change.updatedAt_le⟩

variable [Sha256]

/-- A call rewrote rows, or was a schedule call that appended one. -/
inductive JobsStep (before after : Store) : Call → Prop where
  | rewritten {call : Call}
      (rows : JobsRewritten call.stepKinds before.jobs.rows after.jobs.rows) :
      JobsStep before after call
  | inserted {disposition : Disposition} {trade : TradeId} {policy : JobPolicy}
      {now : UnixMilliseconds} {dirty : DirtyRow}
      (scheduled : Scheduled trade policy now.get dirty before after) :
      JobsStep before after (.operation (.scheduleTrade disposition trade policy now))

theorem jobsStep_of_effect {host : Host} {before after : Store} {operation : Operation}
    (effect : Effect host before operation after) :
    JobsStep before after (.operation operation) := by
  cases effect with
  | unchanged => exact .rewritten (.refl _ _)
  | scheduled read scheduled => exact .inserted scheduled
  | claimed only rewritten => exact .rewritten rewritten
  | renewed only rewritten => exact .rewritten rewritten
  | failed only rewritten => exact .rewritten rewritten
  | ingested parts =>
      rw [parts.evidenceOnly]
      exact .rewritten (.refl _ _)
  | committed created =>
      rw [created.only]
      exact .rewritten (.refl _ _)
  | finalized made absent created => exact .rewritten created.rewritten
  | outboxProgressed updated => exact .rewritten (.refl _ _)
  | targetsProgressed updated => exact .rewritten (.refl _ _)

variable [TradeEvidence]

/-- No call of the service does anything else to the job table. -/
theorem jobsStep_apply (call : Call) (service : Service) :
    JobsStep service.store (service.apply call).store call := by
  rcases apply_cases call service with ⟨operation, host, rfl, -, applied⟩ | only
  · rw [applied]
    exact jobsStep_of_effect (run_effect operation host service.store)
  · rw [only]
    exact .rewritten (.refl _ _)

end Steps

section Rows

variable [Sha256] [TradeEvidence]

/-- Every stored job row is well formed. -/
def JobsWellFormed (service : Service) : Prop :=
  ∀ row ∈ service.store.jobs.rows, row.WellFormed

theorem jobsWellFormed_apply (call : Call) (service : Service)
    (wellFormed : JobsWellFormed service) : JobsWellFormed (service.apply call) := by
  have step := jobsStep_apply call service
  cases step with
  | rewritten rows => exact wellFormed_of_rewritten rows wellFormed
  | inserted scheduled =>
      rcases scheduled.inserted with ⟨middle, superseded, -, rows, -⟩
      intro row rowMem
      rw [rows] at rowMem
      rcases List.mem_append.mp rowMem with old | new
      · exact wellFormed_of_rewritten superseded wellFormed row old
      · rw [List.mem_singleton.mp new]
        exact readyRow_wellFormed _ _ _ _

theorem jobsWellFormed_exec (calls : List Call) : JobsWellFormed (.exec calls .initial) :=
  Transition.exec_invariant JobsWellFormed jobsWellFormed_apply calls
    (by simp [JobsWellFormed, Service.initial, Store.initial])

/-- A call keeps every row, or rewrites it once for one of its reasons. -/
theorem successor_apply (call : Call) (service : Service) {row : JobRow}
    (rowMem : row ∈ service.store.jobs.rows) :
    ∃ next ∈ (service.apply call).store.jobs.rows, next.jobId = row.jobId ∧
      (next = row ∨ ∃ kind ∈ call.stepKinds, RowChange row kind next) := by
  have step := jobsStep_apply call service
  cases step with
  | rewritten rows => exact rows.successor rowMem
  | inserted scheduled =>
      rcases scheduled.inserted with ⟨middle, superseded, -, rows, -⟩
      rcases superseded.successor rowMem with ⟨next, nextMem, sameId, changed⟩
      refine ⟨next, ?_, sameId, changed⟩
      rw [rows]
      exact List.mem_append_left _ nextMem

theorem follows_apply (call : Call) (service : Service) {row : JobRow}
    (rowMem : row ∈ service.store.jobs.rows) :
    ∃ next ∈ (service.apply call).store.jobs.rows, row.Follows next ∧ next.jobId = row.jobId := by
  rcases successor_apply call service rowMem with ⟨next, nextMem, sameId, changed⟩
  refine ⟨next, nextMem, ?_, sameId⟩
  rcases changed with same | ⟨kind, -, change⟩
  · exact .inl same
  · exact change.follows

/-- A terminal row stays as it is. -/
theorem terminal_exec (calls : List Call) (service : Service) {row : JobRow}
    (rowMem : row ∈ service.store.jobs.rows) (terminal : row.state.active = false) :
    row ∈ (service.exec calls).store.jobs.rows := by
  refine Transition.exec_invariant (fun state : Service => row ∈ state.store.jobs.rows) ?_ calls
    rowMem
  intro call state present
  rcases follows_apply call state present with ⟨next, nextMem, same | changed, -⟩
  · rw [← same]
    exact nextMem
  · rw [terminal] at changed
    cases changed.1

end Rows

section Queue

variable [Sha256] [TradeEvidence]

/-- A job that a call made appear was inserted by a schedule call that found room for it. -/
theorem room_of_appears {call : Call} {service : Service} {id : JobId}
    (absent : ∀ row ∈ service.store.jobs.rows, row.jobId ≠ id)
    (present : ∃ row ∈ (service.apply call).store.jobs.rows, row.jobId = id) :
    ∃ disposition trade policy now, call =
      .operation (.scheduleTrade disposition trade policy now) ∧
      ((service.apply call).store.jobs.rows.countP fun row =>
        row.state.active && row.jobId != id) < policy.queueCapacity := by
  rcases present with ⟨row, rowMem, rfl⟩
  have step := jobsStep_apply call service
  cases step with
  | rewritten rows =>
      rcases rows.origin rowMem with ⟨old, oldMem, sameId, -⟩
      exact absurd sameId (absent old oldMem)
  | inserted scheduled =>
      rename_i disposition trade policy now dirty
      refine ⟨disposition, trade, policy, now, rfl, ?_⟩
      rcases scheduled.inserted with ⟨middle, superseded, room, rows, -⟩
      have inserted : row = readyRow trade dirty policy now.get := by
        rw [rows] at rowMem
        rcases List.mem_append.mp rowMem with old | new
        · rcases superseded.origin old with ⟨origin, originMem, sameId, -⟩
          exact absurd sameId (absent origin originMem)
        · exact List.mem_singleton.mp new
      rw [rows, List.countP_append, inserted]
      have others : (middle.countP fun other => other.state.active &&
          other.jobId != (readyRow trade dirty policy now.get).jobId) ≤ activeCount middle := by
        apply List.countP_mono_left
        intro other _ counted
        simp only [Bool.and_eq_true] at counted
        exact counted.1
      have itself : ([readyRow trade dirty policy now.get].countP fun other =>
          other.state.active && other.jobId != (readyRow trade dirty policy now.get).jobId) =
          0 := by
        simp
      omega

/-- Whether every schedule call of a run uses one capacity. -/
def UsesCapacity (capacity : Nat) (calls : List Call) : Prop :=
  ∀ disposition trade policy now,
    .operation (.scheduleTrade disposition trade policy now) ∈ calls →
      policy.queueCapacity = capacity

theorem activeCount_apply {capacity : Nat} {call : Call} {service : Service}
    (uses : UsesCapacity capacity [call])
    (bounded : activeCount service.store.jobs.rows ≤ capacity) :
    activeCount (service.apply call).store.jobs.rows ≤ capacity := by
  have step := jobsStep_apply call service
  cases step with
  | rewritten rows => exact rows.activeCount_le.trans bounded
  | inserted scheduled =>
      rename_i disposition trade policy now dirty
      rcases scheduled.inserted with ⟨middle, -, room, rows, -⟩
      have sameCapacity := uses disposition trade policy now (by simp)
      have appended : activeCount (middle ++ [readyRow trade dirty policy now.get]) =
          activeCount middle + 1 := by
        simp [activeCount, readyRow, JobState.active]
      rw [rows, appended]
      omega

theorem activeCount_exec {capacity : Nat} (calls : List Call) {service : Service}
    (uses : UsesCapacity capacity calls)
    (bounded : activeCount service.store.jobs.rows ≤ capacity) :
    activeCount (service.exec calls).store.jobs.rows ≤ capacity := by
  induction calls generalizing service with
  | nil => exact bounded
  | cons call calls ih =>
      have first : UsesCapacity capacity [call] := by
        intro disposition trade policy now called
        simp only [List.mem_singleton] at called
        exact uses disposition trade policy now (by simp [called])
      have rest : UsesCapacity capacity calls := by
        intro disposition trade policy now called
        exact uses disposition trade policy now (by simp [called])
      exact ih rest (activeCount_apply first bounded)

end Queue

section Invariant

variable [Sha256] [TradeEvidence]

/-- The store invariant of the job table, over every run of the service: its rows decode and keep
their counters in order, terminal rows are final, each call rewrites a row at most once and as the
trigger prescribes, one job per trade is active, and every active job was inserted below the
capacity its caller gave. -/
theorem jobs_sound (calls : List Call) :
    (∀ row ∈ (Service.exec calls .initial).store.jobs.rows, ∃ job, decodeJob row = .ok job) ∧
    (∀ row ∈ (Service.exec calls .initial).store.jobs.rows,
      row.failureCount ≤ row.attemptCount ∧ row.attemptCount ≤ row.maxAttempts ∧
        (row.state = .leased → row.failureCount < row.attemptCount)) ∧
    (∀ later, ∀ row ∈ (Service.exec calls .initial).store.jobs.rows, row.state.active = false →
      row ∈ (Service.exec (calls ++ later) .initial).store.jobs.rows) ∧
    (∀ call, ∀ row ∈ (Service.exec calls .initial).store.jobs.rows,
      ∃ next ∈ (Service.exec (calls ++ [call]) .initial).store.jobs.rows, row.Follows next) ∧
    (∀ left ∈ (Service.exec calls .initial).store.jobs.rows,
      ∀ right ∈ (Service.exec calls .initial).store.jobs.rows,
        left.state.active = true → right.state.active = true → left.tradeId = right.tradeId →
          left = right) ∧
    (∀ row ∈ (Service.exec calls .initial).store.jobs.rows, row.state.active = true →
      ∃ before disposition trade policy now after,
        calls = before ++ .operation (.scheduleTrade disposition trade policy now) :: after ∧
        (∀ old ∈ (Service.exec before .initial).store.jobs.rows, old.jobId ≠ row.jobId) ∧
        ((Service.exec (before ++ [.operation (.scheduleTrade disposition trade policy now)])
          .initial).store.jobs.rows.countP fun other =>
            other.state.active && other.jobId != row.jobId) < policy.queueCapacity) ∧
    (∀ capacity, UsesCapacity capacity calls →
      activeCount (Service.exec calls .initial).store.jobs.rows ≤ capacity) := by
  have wellFormed := jobsWellFormed_exec calls
  refine ⟨?_, ?_, ?_, ?_, ?_, ?_, ?_⟩
  · intro row rowMem
    exact decodeJob_of_wellFormed (Table.checked _ row rowMem) (wellFormed row rowMem)
  · intro row rowMem
    have bounded := (JobRow.check_iff.mp (Table.checked _ row rowMem)).1
    exact ⟨bounded.2.2.2.1, (wellFormed row rowMem).attempts, (wellFormed row rowMem).pending⟩
  · intro later row rowMem terminal
    have kept := terminal_exec later (.exec calls .initial) rowMem terminal
    simpa [Service.exec] using kept
  · intro call row rowMem
    rcases follows_apply call (.exec calls .initial) rowMem with ⟨next, nextMem, follows, -⟩
    refine ⟨next, ?_, follows⟩
    simpa [Service.exec] using nextMem
  · intro left leftMem right rightMem leftActive rightActive same
    exact eq_of_active leftMem rightMem leftActive rightActive same
  · intro row rowMem _
    have absent : ¬∃ old ∈ Service.initial.store.jobs.rows, old.jobId = row.jobId := by
      simp [Service.initial, Store.initial]
    rcases Transition.exec_appears (fun state : Service =>
      ∃ old ∈ state.store.jobs.rows, old.jobId = row.jobId) calls absent ⟨row, rowMem, rfl⟩ with
      ⟨before, call, after, rfl, missing, appeared⟩
    have missing' : ∀ old ∈ (Service.exec before .initial).store.jobs.rows,
        old.jobId ≠ row.jobId := by
      intro old oldMem same
      exact missing ⟨old, oldMem, same⟩
    rcases room_of_appears missing' appeared with ⟨disposition, trade, policy, now, rfl, room⟩
    refine ⟨before, disposition, trade, policy, now, after, rfl, missing', ?_⟩
    simpa [Service.exec] using room
  · intro capacity uses
    exact activeCount_exec calls uses (by simp [Service.initial, Store.initial, activeCount])

end Invariant

end Rhi
