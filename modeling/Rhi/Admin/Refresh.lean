import Mathlib.Data.List.Induction
import Rhi.Admin.Replays
import Rhi.Service.Scheduling

/-!
# What a refresh leaves of the queue

A refresh schedules the current dirty generation of its trade.  The identity of a job is a digest of
the trade, the generation and the evidence policy, so that the job of a generation is made once: a
refresh after its end finds it, and so does a replay of an earlier refresh.
-/

namespace Rhi

open Relational Transactional

section Journaling

variable [Sha256] [ResponseModels] {Domain : Type}

/-- An admission completes nothing. -/
theorem prepareAdminOperation_completed {mode : HostMode} {disposition : Disposition}
    {request : RequestDocument} {now : UnixMilliseconds} {store : Journaled Domain}
    {row : OperationRow}
    (rowMem : row ∈ (prepareAdminOperation mode disposition request now store).2.journal.rows)
    (completed : row.state = .completed) : row ∈ store.journal.rows := by
  rcases prepareAdminOperation_store mode disposition request now store with
    same | ⟨binding, admission, journal, made, admitting, same⟩
  · rwa [same] at rowMem
  · rw [same] at rowMem
    rcases prepareOperation_spec admitting with ⟨rfl, -⟩ | ⟨-, rows, -⟩
    · exact mem_of_mem_pruneExpired rowMem
    · rw [rows, List.mem_append, List.mem_singleton] at rowMem
      rcases rowMem with old | rfl
      · exact mem_of_mem_pruneExpired old
      · cases completed

theorem prepareAdminOperation_domain (mode : HostMode) (disposition : Disposition)
    (request : RequestDocument) (now : UnixMilliseconds) (store : Journaled Domain) :
    (prepareAdminOperation mode disposition request now store).2.domain = store.domain := by
  rcases prepareAdminOperation_store mode disposition request now store with
    same | ⟨binding, admission, journal, made, admitting, same⟩
  · rw [same]
  · rw [same]

omit [ResponseModels] in
theorem RequestBinding.of_fromDocument {request : RequestDocument} {binding : RequestBinding}
    (made : RequestBinding.fromDocument request = .ok binding) :
    binding.route = request.route ∧ binding.requestSha256 = requestDigest request := by
  unfold RequestBinding.fromDocument at made
  split at made
  · split at made
    · cases made
    · cases made
      exact ⟨rfl, rfl⟩
  · cases made

omit [ResponseModels] in
/-- A completed row after a completion was completed before, or is the one completed. -/
theorem mem_of_completeOperation {prepared : PreparedOperation} {response : List UInt8}
    {completed : UnixMilliseconds} {expires : Nat} {journal next : Table adminOperations}
    {completion : Completion} {row : OperationRow}
    (done : completeOperation prepared response completed expires journal = .ok (completion, next))
    (rowMem : row ∈ next.rows) :
    row ∈ journal.rows ∨
      (row.route = prepared.route ∧ row.requestSha256 = prepared.requestSha256) := by
  rcases completeOperation_spec done with ⟨-, rfl, -⟩ | ⟨-, stored, rows⟩
  · exact .inl rowMem
  · rw [rows] at rowMem
    rcases List.mem_map.mp rowMem with ⟨old, oldMem, rfl⟩
    rcases @rewrite_completeRow _ prepared.operationId response completed.get expires old with
      same | ⟨sameId, -, written⟩
    · rw [same]
      exact .inl oldMem
    · rw [written, eq_of_operationId oldMem stored sameId]
      exact .inr ⟨rfl, rfl⟩

theorem completeAdminOperation_completed {mode : HostMode} {disposition : Disposition}
    {prepared : PreparedOperation} {response : ResponseDocument} {completed : UnixMilliseconds}
    {store : Journaled Domain} :
    (completeAdminOperation mode disposition prepared response completed store).2.domain =
        store.domain ∧
      ∀ row ∈ (completeAdminOperation mode disposition prepared response completed
          store).2.journal.rows, row ∈ store.journal.rows ∨
        (row.route = prepared.route ∧ row.requestSha256 = prepared.requestSha256) := by
  rcases completeAdminOperation_store mode disposition prepared response completed store with
    same | ⟨expires, completion, journal, instant, completing, same⟩
  · rw [same]
    exact ⟨rfl, fun row rowMem => .inl rowMem⟩
  · rw [same]
    exact ⟨rfl, fun row rowMem => mem_of_completeOperation completing rowMem⟩

/-- A mutation of the database leaves a receipt of its own route, or none. -/
theorem executeDatabaseAdminOperation_completed {mode : HostMode} {disposition : Disposition}
    {request : RequestDocument} {completed : UnixMilliseconds}
    {operation : Domain → Except JournalError (ResponseDocument × Domain)}
    {store : Journaled Domain} :
    ((executeDatabaseAdminOperation mode disposition request completed operation store).2.domain =
        store.domain ∨ ∃ response, operation store.domain = .ok (response,
          (executeDatabaseAdminOperation mode disposition request completed operation
            store).2.domain)) ∧
      ∀ row ∈ (executeDatabaseAdminOperation mode disposition request completed operation
          store).2.journal.rows, row.state = .completed →
        row ∈ store.journal.rows ∨ row.route = request.route := by
  unfold executeDatabaseAdminOperation
  split
  · exact ⟨.inl rfl, fun row rowMem _ => .inl rowMem⟩
  · split
    · exact ⟨.inl rfl, fun row rowMem _ => .inl rowMem⟩
    · exact ⟨.inl rfl, fun row rowMem _ => .inl rowMem⟩
    · rename_i binding expires made instant
      have route := (RequestBinding.of_fromDocument made).1
      rcases transaction_store mapJournalError disposition
        (executeOperation binding completed expires operation) store with same |
        ⟨response, next, done, same⟩
      · rw [same]
        exact ⟨.inl rfl, fun row rowMem _ => .inl rowMem⟩
      · rw [same]
        simp only [executeOperation, bind_eq_ok] at done
        rcases done with ⟨⟨admission, journal⟩, admitting, done⟩
        rcases prepareOperation_spec admitting with ⟨rfl, replay, rfl, -⟩ | ⟨rfl, rows, -⟩
        · simp only [pure_eq_ok, Prod.mk.injEq] at done
          rcases done with ⟨-, rfl⟩
          exact ⟨.inl rfl, fun row rowMem _ => .inl (mem_of_mem_pruneExpired rowMem)⟩
        · simp only [bind_eq_ok, require_eq_ok, pure_eq_ok, Prod.mk.injEq] at done
          rcases done with ⟨⟨answer, domain⟩, operated, -, -, ⟨completion, finished⟩, completing,
            rfl, rfl⟩
          refine ⟨.inr ⟨answer, operated⟩, fun row rowMem state => ?_⟩
          rcases mem_of_completeOperation completing rowMem with old | ⟨same, -⟩
          · rw [rows, List.mem_append, List.mem_singleton] at old
            rcases old with older | rfl
            · exact .inl (mem_of_mem_pruneExpired older)
            · cases state
          · exact .inr (same.trans route)

end Journaling

section Routes

variable [Sha256] [ResponseModels] [AdminJson]

variable {handler : AdminHandler} {answers : Answers} {request : RequestDocument}

/-- What a mutation completed, if its effect succeeded. -/
theorem mutate_completed (effect : UnixMilliseconds → Database → EffectResult request)
    (state : Journaled Database) :
    ((mutate handler answers request effect state).2.domain = state.domain ∧
      ∀ row ∈ (mutate handler answers request effect state).2.journal.rows,
        row.state = .completed → row ∈ state.journal.rows) ∨
    ∃ now, (mutate handler answers request effect state).2.domain = (effect now state.domain).2 ∧
      ∀ row ∈ (mutate handler answers request effect state).2.journal.rows,
        row.state = .completed → row ∈ state.journal.rows ∨
          (row.route = request.route ∧ row.requestSha256 = requestDigest request ∧
            ∃ receipt, (effect now state.domain).1 = .ok receipt) := by
  unfold mutate
  split
  · exact .inl ⟨rfl, fun row rowMem _ => rowMem⟩
  · rename_i now clock
    have sameDomain := prepareAdminOperation_domain handler.mode answers.admission request now state
    have kept := fun row => @prepareAdminOperation_completed _ _ _ handler.mode answers.admission
      request now state row
    split
    · rename_i failed
      rw [failed] at sameDomain kept
      exact .inl ⟨sameDomain, kept⟩
    · rename_i replayed
      rw [replayed] at sameDomain kept
      exact .inl ⟨sameDomain, kept⟩
    · rename_i prepared next admitted
      rw [admitted] at sameDomain kept
      rcases prepareAdminOperation_spec admitted with ⟨binding, made, -, ⟨_, other, -⟩ | ⟨token, -⟩⟩
      · cases other
      · cases token
        rcases RequestBinding.of_fromDocument made with ⟨route, digest⟩
        simp only at sameDomain kept
        rw [← sameDomain]
        refine .inr ⟨now, ?_⟩
        split
        · rename_i kind domain failed
          rw [failed]
          exact ⟨rfl, fun row rowMem completed => .inl (kept row rowMem completed)⟩
        · rename_i receipt domain done
          rw [done]
          unfold finishPrepared
          have idle : ∀ row ∈ next.journal.rows, row.state = .completed →
              row ∈ state.journal.rows ∨ (row.route = request.route ∧
                row.requestSha256 = requestDigest request ∧ ∃ receipt', Except.ok receipt =
                  (Except.ok receipt' : Except AdminHandlerErrorKind _)) :=
            fun row rowMem completed => .inl (kept row rowMem completed)
          split
          · exact ⟨rfl, idle⟩
          · rename_i completed finished
            split
            · exact ⟨rfl, idle⟩
            · rename_i document answered
              rcases @completeAdminOperation_completed _ _ _ handler.mode answers.completion
                (binding.token now) document completed { next with domain } with ⟨same, written⟩
              have rows : ∀ row ∈ (completeAdminOperation handler.mode answers.completion
                  (binding.token now) document completed { next with domain }).2.journal.rows,
                  row.state = .completed → row ∈ state.journal.rows ∨
                    (row.route = request.route ∧ row.requestSha256 = requestDigest request ∧
                      ∃ receipt', Except.ok receipt =
                        (Except.ok receipt' : Except AdminHandlerErrorKind _)) := by
                intro row rowMem state
                rcases written row rowMem with old | ⟨sameRoute, sameDigest⟩
                · exact idle row old state
                · exact .inr ⟨sameRoute.trans route, sameDigest.trans digest, receipt, rfl⟩
              split
              · rename_i failed
                rw [failed] at same rows
                exact ⟨same, rows⟩
              · rename_i finished
                rw [finished] at same rows
                exact ⟨same, rows⟩

omit [AdminJson] in
theorem mutateDatabase_completed
    (operation : UnixMilliseconds → Database → Except JournalError (ResponseDocument × Database))
    (state : Journaled Database) :
    ((mutateDatabase handler answers request operation state).2.domain = state.domain ∨
        ∃ now response, operation now state.domain = .ok (response,
          (mutateDatabase handler answers request operation state).2.domain)) ∧
      ∀ row ∈ (mutateDatabase handler answers request operation state).2.journal.rows,
        row.state = .completed → row ∈ state.journal.rows ∨ row.route = request.route := by
  unfold mutateDatabase
  split
  · exact ⟨.inl rfl, fun row rowMem _ => .inl rowMem⟩
  · rename_i now clock
    rcases @executeDatabaseAdminOperation_completed _ _ _ handler.mode answers.admission request now
      (operation now) state with ⟨domain, rows⟩
    split
    · rename_i failed
      rw [failed] at domain rows
      exact ⟨domain.imp id fun operated => ⟨now, operated⟩, rows⟩
    · rename_i done
      rw [done] at domain rows
      exact ⟨domain.imp id fun operated => ⟨now, operated⟩, rows⟩

/-- What a refresh does: nothing to the queue, or one schedule call for the generation it names. -/
theorem reconciliationRefresh_spec (state : Journaled Database) :
    ((reconciliationRefresh handler answers request state).2.domain.store = state.domain.store ∧
      ∀ row ∈ (reconciliationRefresh handler answers request state).2.journal.rows,
        row.state = .completed → row ∈ state.journal.rows) ∨
    ∃ trade dirty now,
      AdminJson.reconciliationRefresh request.modelBytes = some (trade, dirty.generation) ∧
      readDirty state.domain.store trade = some dirty ∧
      (reconciliationRefresh handler answers request state).2.domain.store =
        (scheduleTrade handler.mode answers.effect trade handler.jobPolicy now
          state.domain.store).2 ∧
      ∀ row ∈ (reconciliationRefresh handler answers request state).2.journal.rows,
        row.state = .completed → row ∈ state.journal.rows ∨
          (row.requestSha256 = requestDigest request ∧
            ∃ outcome, (scheduleTrade handler.mode answers.effect trade handler.jobPolicy now
              state.domain.store).1 = .ok outcome) := by
  unfold reconciliationRefresh
  split
  · exact .inl ⟨rfl, fun row rowMem _ => rowMem⟩
  · rename_i trade expected parsed
    split
    · exact .inl ⟨rfl, fun row rowMem _ => rowMem⟩
    · rename_i dirty read
      split
      · exact .inl ⟨rfl, fun row rowMem _ => rowMem⟩
      · split
        · exact .inl ⟨rfl, fun row rowMem _ => rowMem⟩
        · rename_i same
          rw [not_not] at same
          subst same
          rcases @mutate_completed _ _ _ handler answers request _ state with
            ⟨domain, rows⟩ | ⟨now, domain, rows⟩
          · exact .inl ⟨congrArg Database.store domain, rows⟩
          · refine .inr ⟨trade, dirty, now, parsed, read, ?_, ?_⟩
            · rw [domain]
              split <;> rename_i scheduled <;> rw [scheduled]
            · intro row rowMem completed
              rcases rows row rowMem completed with old | ⟨-, digest, receipt, succeeded⟩
              · exact .inl old
              · refine .inr ⟨digest, ?_⟩
                split at succeeded
                · cases succeeded
                · cases succeeded
                · cases succeeded
                · rename_i outcome store scheduled
                  exact ⟨outcome, by rw [scheduled]⟩

variable [PresenceEvents]

/-- The store with other rows of the publication tables alone. -/
def PublicationOnly (before after : Store) : Prop :=
  after = { before with
    outbox := after.outbox, targets := after.targets, deliveries := after.deliveries }

/-- A mutation of a route other than the refresh. -/
structure Unrefreshed (before after : Journaled Database) : Prop where
  only : PublicationOnly before.domain.store after.domain.store
  receipts : ∀ row ∈ after.journal.rows, row.state = .completed →
    row.route = .reconciliationRefresh → row ∈ before.journal.rows

omit [Sha256] [ResponseModels] [AdminJson] [PresenceEvents] in
theorem Unrefreshed.of_domain (before : Journaled Database) {domain : Database}
    (same : domain.store = before.domain.store) : Unrefreshed before { before with domain } :=
  ⟨by simp only [PublicationOnly, same], fun _ rowMem _ _ => rowMem⟩

omit [PresenceEvents] in
theorem unrefreshed_of_mutate {effect : UnixMilliseconds → Database → EffectResult request}
    {before state : Journaled Database} (other : request.route ≠ .reconciliationRefresh)
    (started : state.journal = before.journal ∧ state.domain.store = before.domain.store)
    (kept : ∀ now database, (effect now database).2.store = database.store) :
    Unrefreshed before (mutate handler answers request effect state).2 := by
  rcases @mutate_completed _ _ _ handler answers request effect state with
    ⟨domain, rows⟩ | ⟨now, domain, rows⟩
  · refine ⟨?_, fun row rowMem completed _ => started.1 ▸ rows row rowMem completed⟩
    simp only [PublicationOnly, domain, started.2]
  · refine ⟨?_, ?_⟩
    · simp only [PublicationOnly, domain, kept, started.2]
    · intro row rowMem completed route
      rcases rows row rowMem completed with old | ⟨same, -⟩
      · exact started.1 ▸ old
      · exact absurd (same.symm.trans route) other

omit [AdminJson] [PresenceEvents] in
theorem unrefreshed_of_mutateDatabase
    {operation : UnixMilliseconds → Database → Except JournalError (ResponseDocument × Database)}
    {before : Journaled Database} (other : request.route ≠ .reconciliationRefresh)
    (kept : ∀ now response database, operation now before.domain = .ok (response, database) →
      PublicationOnly before.domain.store database.store) :
    Unrefreshed before (mutateDatabase handler answers request operation before).2 := by
  rcases @mutateDatabase_completed _ _ handler answers request operation before with
    ⟨domain, rows⟩
  refine ⟨?_, ?_⟩
  · rcases domain with same | ⟨now, response, operated⟩
    · simp only [PublicationOnly, same]
    · exact kept now response _ operated
  · intro row rowMem completed route
    rcases rows row rowMem completed with old | same
    · exact old
    · exact absurd (same.symm.trans route) other

/-- Another route leaves jobs, dirty rows and bindings alone, and no receipt of a refresh. -/
theorem handleMutation_other (state : Journaled Database)
    (other : request.route ≠ .reconciliationRefresh) :
    Unrefreshed state (handleMutation handler answers request state).2 := by
  unfold handleMutation
  split
  · split
    · unfold backup
      split
      · exact .of_domain state rfl
      · split
        · exact .of_domain state rfl
        · split
          · exact .of_domain state rfl
          · split
            · exact .of_domain state rfl
            · refine unrefreshed_of_mutate other ⟨rfl, rfl⟩ fun now database => ?_
              split <;> rfl
    · rename_i route
      exact absurd route other
    · unfold publicationRetry
      split
      · exact .of_domain state rfl
      · refine unrefreshed_of_mutateDatabase other fun now response database operated => ?_
        unfold retryOperation at operated
        split at operated
        · cases operated
        · cases operated
        · cases operated
        · rename_i store row retried found
          split at operated
          · cases operated
          · cases operated
            rcases Publication.retry_spec retried with ⟨current, stepped⟩
            exact stepped.touched.only
    · unfold presenceRender
      split
      · exact .of_domain state rfl
      · split
        · exact .of_domain state rfl
        · simp only
          split
          · exact .of_domain state rfl
          · refine unrefreshed_of_mutate other ⟨rfl, rfl⟩ fun now database => ?_
            unfold renderEffect
            split
            · rfl
            · split
              · rfl
              · split <;> rfl
    · unfold presenceRefresh
      split
      · exact .of_domain state rfl
      · refine unrefreshed_of_mutateDatabase other fun now response database operated => ?_
        unfold refreshOperation at operated
        split at operated
        · cases operated
        · cases operated
        · cases operated
        · cases operated
        · simp only at operated
          split at operated
          · cases operated
          · cases operated
            rfl
    · exact .of_domain state rfl
  · exact .of_domain state rfl

end Routes

section Serving

variable [Sha256] [TradeEvidence] [ResponseModels] [AdminJson] [PresenceEvents]

/-- The database with its journal, and the host that has it open. -/
structure Served where
  database : Journaled Database
  host : Option Host

/-- What happens to the database: a call of the service, the handling of a mutation, or anything
that presence does. -/
inductive AdminMove where
  | call (call : Call)
  | handle (handler : AdminHandler) (answers : Answers) (request : RequestDocument)
  | present (presence : PresenceStore)

omit [Sha256] [TradeEvidence] [ResponseModels] [AdminJson] [PresenceEvents] in
/-- A freshly migrated database that nobody has open. -/
def Served.initial : Served :=
  ⟨.initial ⟨.initial, .empty, .empty, .empty, .empty, []⟩, none⟩

/-- The database after a move. -/
def Served.apply (move : AdminMove) (served : Served) : Served :=
  match move with
  | .call call =>
      let service := (Service.mk served.database.domain.store served.host).apply call
      ⟨{ served.database with domain := { served.database.domain with store := service.store } },
        service.host⟩
  | .handle handler answers request =>
      ⟨(handleMutation handler answers request served.database).2, served.host⟩
  | .present presence =>
      ⟨{ served.database with domain := served.database.domain.withPresence presence }, served.host⟩

/-- The database after a run. -/
def Served.exec (moves : List AdminMove) (served : Served) : Served :=
  Transition.exec Served.apply moves served

omit [Sha256] [TradeEvidence] [ResponseModels] [AdminJson] [PresenceEvents] in
/-- The requests that were handled. -/
def requestsOf (moves : List AdminMove) : List RequestDocument :=
  moves.filterMap fun
    | .handle _ _ request => some request
    | _ => none

omit [TradeEvidence] [ResponseModels] [PresenceEvents] in
/-- The receipt of a refresh: its trade had a job of the named generation, or of a later one. -/
def RefreshReceipt (requests : List RequestDocument) (store : Store) (row : OperationRow) : Prop :=
  ∃ request ∈ requests, requestDigest request = row.requestSha256 ∧
    request.route = .reconciliationRefresh ∧
    ∃ trade expected, AdminJson.reconciliationRefresh request.modelBytes = some (trade, expected) ∧
      ∃ job ∈ store.jobs.rows, job.tradeId = trade ∧ expected ≤ job.inputGeneration

/-- What the runs of the served database maintain. -/
structure Served.Kept (requests : List RequestDocument) (served : Served) : Prop where
  bound : (Service.mk served.database.domain.store served.host).Bound
  wellFormed : ∀ row ∈ served.database.domain.store.jobs.rows, row.WellFormed
  behind : JobsBehind served.database.domain.store
  receipts : ∀ row ∈ served.database.journal.rows, row.state = .completed →
    row.route = .reconciliationRefresh →
      RefreshReceipt requests served.database.domain.store row

omit [TradeEvidence] [ResponseModels] [PresenceEvents] [AdminJson] in
/-- Other requests and other jobs keep the receipts. -/
theorem RefreshReceipt.kept [AdminJson] {requests later : List RequestDocument}
    {before after : Store} {row : OperationRow} (receipt : RefreshReceipt requests before row)
    (included : requests ⊆ later)
    (jobs : ∀ job ∈ before.jobs.rows, ∃ next ∈ after.jobs.rows,
      next.tradeId = job.tradeId ∧ next.inputGeneration = job.inputGeneration) :
    RefreshReceipt later after row := by
  rcases receipt with ⟨request, requestMem, digest, route, trade, expected, parsed, job, jobMem,
    sameTrade, reached⟩
  rcases jobs job jobMem with ⟨next, nextMem, nextTrade, nextGeneration⟩
  exact ⟨request, included requestMem, digest, route, trade, expected, parsed, next, nextMem,
    nextTrade.trans sameTrade, by rw [nextGeneration]; exact reached⟩

omit [TradeEvidence] [ResponseModels] [PresenceEvents] [AdminJson] [Sha256] in
/-- The agreement with the configuration concerns bindings and dirty rows alone. -/
theorem bound_of_same {before after : Store} {host : Option Host}
    (bound : (Service.mk before host).Bound)
    (bindings : after.configBindings = before.configBindings) (dirty : after.dirty = before.dirty) :
    (Service.mk after host).Bound where
  host opened openedMem := by
    have latest := bound.host opened openedMem
    simpa only [latestBinding, bindings] using latest
  dirty trade row rowMem := by
    have read := readDirty_of_dirty dirty trade
    simp only [read] at rowMem
    have policy := bound.dirty trade row rowMem
    simpa only [currentPolicy, latestBinding, bindings] using policy

omit [TradeEvidence] [ResponseModels] [PresenceEvents] [AdminJson] in
theorem scheduleTrade_only (mode : HostMode) (disposition : Disposition) (trade : TradeId)
    (policy : JobPolicy) (now : UnixMilliseconds) (store : Store) :
    JobsOnly store (scheduleTrade mode disposition trade policy now store).2 := by
  unfold scheduleTrade
  split
  · exact .refl _
  · rcases transaction_store mapJobError disposition (schedule trade policy now) store
      with same | ⟨outcome, next, done, same⟩
    · rw [same]
      exact .refl _
    · rw [same]
      rcases schedule_spec done with ⟨dirty, -, ⟨-, rfl, -⟩ | ⟨-, scheduled⟩⟩
      · exact .refl _
      · exact scheduled.only

omit [TradeEvidence] [ResponseModels] [PresenceEvents] [AdminJson] in
/-- A schedule call keeps every job, and reaches the generation it read if it succeeds. -/
theorem scheduleTrade_jobs {mode : HostMode} {disposition : Disposition} {trade : TradeId}
    {policy : JobPolicy} {now : UnixMilliseconds} {store : Store}
    (wellFormed : ∀ row ∈ store.jobs.rows, row.WellFormed) :
    JobsOnly store (scheduleTrade mode disposition trade policy now store).2 ∧
      (∀ row ∈ (scheduleTrade mode disposition trade policy now store).2.jobs.rows,
        row.WellFormed) ∧
      (∀ job ∈ store.jobs.rows,
        ∃ next ∈ (scheduleTrade mode disposition trade policy now store).2.jobs.rows,
          next.tradeId = job.tradeId ∧ next.inputGeneration = job.inputGeneration) ∧
      ∀ outcome, (scheduleTrade mode disposition trade policy now store).1 = .ok outcome →
        ∀ dirty, readDirty store trade = some dirty →
          ∃ job ∈ (scheduleTrade mode disposition trade policy now store).2.jobs.rows,
            job.tradeId = trade ∧ job.inputGeneration = dirty.generation := by
  refine ⟨scheduleTrade_only mode disposition trade policy now store, ?_⟩
  unfold scheduleTrade
  split
  · exact ⟨wellFormed, fun job jobMem => ⟨job, jobMem, rfl, rfl⟩,
      fun _ impossible => by cases impossible⟩
  · refine ⟨?_, ?_, ?_⟩
    · rcases transaction_store mapJobError disposition (schedule trade policy now) store
        with same | ⟨outcome, next, done, same⟩
      · rw [same]
        exact wellFormed
      · rw [same]
        rcases schedule_spec done with ⟨dirty, -, ⟨-, rfl, -⟩ | ⟨-, scheduled⟩⟩
        · exact wellFormed
        · rcases scheduled.inserted with ⟨middle, superseded, -, rows, -⟩
          intro row rowMem
          rw [rows, List.mem_append, List.mem_singleton] at rowMem
          rcases rowMem with old | rfl
          · exact wellFormed_of_rewritten superseded wellFormed row old
          · exact readyRow_wellFormed _ _ _ _
    · intro job jobMem
      rcases transaction_store mapJobError disposition (schedule trade policy now) store
        with same | ⟨outcome, next, done, same⟩
      · rw [same]
        exact ⟨job, jobMem, rfl, rfl⟩
      · rw [same]
        rcases schedule_spec done with ⟨dirty, -, ⟨-, rfl, -⟩ | ⟨-, scheduled⟩⟩
        · exact ⟨job, jobMem, rfl, rfl⟩
        · rcases scheduled.inserted with ⟨middle, superseded, -, rows, -⟩
          rcases superseded.successor jobMem with ⟨later, laterMem, -, unchanged | ⟨_, -, change⟩⟩
          · exact ⟨later, by rw [rows]; exact List.mem_append_left _ laterMem,
              by rw [unchanged], by rw [unchanged]⟩
          · rcases change.sameIdentity with ⟨-, sameTrade, sameGeneration, -⟩
            exact ⟨later, by rw [rows]; exact List.mem_append_left _ laterMem, sameTrade,
              sameGeneration⟩
    · intro outcome returned dirty read
      rcases schedule_cases (transaction_ok returned) with
        ⟨found, foundRead, -, jobRead, sameTrade, sameGeneration, -⟩
      rw [read, Option.some.injEq] at foundRead
      subst foundRead
      rcases readJob_eq_some jobRead with ⟨row, rowMem, -, decoded⟩
      have encoded := toRow_of_decodeJob decoded
      refine ⟨row, rowMem, ?_, ?_⟩
      · rw [← encoded]
        exact sameTrade
      · rw [← encoded]
        exact sameGeneration

theorem Served.Kept.call {requests : List RequestDocument} {served : Served}
    (kept : served.Kept requests) (call : Call) : (served.apply (.call call)).Kept requests where
  bound := (dirty_apply call kept.bound).1
  wellFormed := jobsWellFormed_apply call _ kept.wellFormed
  behind := behind_apply call kept.bound kept.behind
  receipts row rowMem completed route := by
    refine (kept.receipts row rowMem completed route).kept (List.Subset.refl _) fun job jobMem => ?_
    rcases successor_apply call (Service.mk served.database.domain.store served.host) jobMem with
      ⟨next, nextMem, -, same | ⟨kind, -, change⟩⟩
    · exact ⟨next, nextMem, by rw [same], by rw [same]⟩
    · rcases change.sameIdentity with ⟨-, sameTrade, sameGeneration, -⟩
      exact ⟨next, nextMem, sameTrade, sameGeneration⟩

theorem Served.Kept.handle {requests : List RequestDocument} {served : Served}
    (kept : served.Kept requests) (handler : AdminHandler) (answers : Answers)
    (request : RequestDocument) :
    (served.apply (.handle handler answers request)).Kept (requests ++ [request]) := by
  have included : requests ⊆ requests ++ [request] := List.subset_append_left _ _
  by_cases route : request.route = .reconciliationRefresh
  · have handled : (handleMutation handler answers request served.database).2 = served.database ∨
        (handleMutation handler answers request served.database).2 =
          (reconciliationRefresh handler answers request served.database).2 := by
      unfold handleMutation
      split
      · rw [route]
        exact .inr rfl
      · exact .inl rfl
    have unchanged : ∀ {state : Journaled Database},
        state.domain.store = served.database.domain.store →
        (∀ row ∈ state.journal.rows, row.state = .completed → row ∈ served.database.journal.rows) →
        (⟨state, served.host⟩ : Served).Kept (requests ++ [request]) := by
      intro state same rows
      refine ⟨?_, ?_, ?_, ?_⟩
      · simpa only [same] using kept.bound
      · simpa only [same] using kept.wellFormed
      · simpa only [same] using kept.behind
      · intro row rowMem completed isRefresh
        simp only [same]
        exact (kept.receipts row (rows row rowMem completed) completed isRefresh).kept included
          fun job jobMem => ⟨job, jobMem, rfl, rfl⟩
    simp only [Served.apply]
    rcases handled with same | same
    · rw [same]
      exact unchanged rfl fun row rowMem _ => rowMem
    · rw [same]
      rcases @reconciliationRefresh_spec _ _ _ handler answers request served.database with
        ⟨store, rows⟩ | ⟨trade, dirty, now, parsed, read, store, rows⟩
      · exact unchanged store rows
      · rcases @scheduleTrade_jobs _ handler.mode answers.effect trade handler.jobPolicy now
          served.database.domain.store kept.wellFormed with ⟨only, wellFormed, persist, reached⟩
        rw [← store] at only wellFormed persist reached
        refine ⟨?_, wellFormed, ?_, ?_⟩
        · exact bound_of_same kept.bound (by rw [only]) (by rw [only])
        · simp only [store]
          exact kept.behind.scheduleTrade handler.mode answers.effect handler.jobPolicy now
        · intro row rowMem completed isRefresh
          rcases rows row rowMem completed with old | ⟨digest, outcome, scheduled⟩
          · exact (kept.receipts row old completed isRefresh).kept included persist
          · rcases reached outcome scheduled dirty read with ⟨job, jobMem, sameTrade, generation⟩
            exact ⟨request, List.mem_append_right _ (List.mem_singleton_self _), digest.symm, route,
              trade, dirty.generation, parsed, job, jobMem, sameTrade, generation.ge⟩
  · have other := @handleMutation_other _ _ _ handler answers request _ served.database route
    have only := other.only
    refine ⟨?_, ?_, ?_, ?_⟩
    · exact bound_of_same kept.bound (by simp only [Served.apply]; rw [only])
        (by simp only [Served.apply]; rw [only])
    · simp only [Served.apply]
      rw [only]
      exact kept.wellFormed
    · simp only [Served.apply]
      rw [only]
      exact kept.behind
    · intro row rowMem completed isRefresh
      refine (kept.receipts row (other.receipts row rowMem completed isRefresh) completed
        isRefresh).kept included fun job jobMem => ⟨job, ?_, rfl, rfl⟩
      simp only [Served.apply]
      rw [only]
      exact jobMem

/-- The database stays kept after every run. -/
theorem kept_serving (moves : List AdminMove) :
    (Served.exec moves .initial).Kept (requestsOf moves) := by
  induction moves using List.reverseRecOn with
  | nil =>
      refine ⟨bound_initial, ?_, ?_, ?_⟩
      · simp [Served.exec, Served.initial, Journaled.initial, Store.initial]
      · simp [JobsBehind, Served.exec, Served.initial, Journaled.initial, Store.initial]
      · intro row rowMem
        cases rowMem
  | append_singleton moves move ih =>
      have stepped : Served.exec (moves ++ [move]) .initial =
          (Served.exec moves .initial).apply move := by
        simp [Served.exec]
      rw [stepped]
      cases move with
      | call call =>
          have same : requestsOf (moves ++ [.call call]) = requestsOf moves := by
            simp [requestsOf]
          rw [same]
          exact ih.call call
      | handle handler answers request =>
          have same : requestsOf (moves ++ [.handle handler answers request]) =
              requestsOf moves ++ [request] := by
            simp [requestsOf]
          rw [same]
          exact ih.handle handler answers request
      | present presence =>
          have same : requestsOf (moves ++ [.present presence]) = requestsOf moves := by
            simp [requestsOf]
          rw [same]
          exact ⟨ih.bound, ih.wellFormed, ih.behind, ih.receipts⟩

omit [TradeEvidence] [ResponseModels] [PresenceEvents] [AdminJson] in
/-- The job of the current generation, once made, is only found. -/
theorem scheduleTrade_of_known {mode : HostMode} {disposition : Disposition} {trade : TradeId}
    {policy : JobPolicy} {now : UnixMilliseconds} {store : Store} {dirty : DirtyRow} {row : JobRow}
    (behind : JobsBehind store) (read : readDirty store trade = some dirty)
    (rowMem : row ∈ store.jobs.rows) (wellFormed : row.WellFormed) (sameTrade : row.tradeId = trade)
    (current : row.inputGeneration = dirty.generation) :
    (scheduleTrade mode disposition trade policy now store).2 = store := by
  unfold scheduleTrade
  split
  · rfl
  · rcases transaction_store mapJobError disposition (schedule trade policy now) store
      with same | ⟨outcome, next, done, same⟩
    · exact same
    · rw [same]
      rcases schedule_cases done with ⟨found, foundRead, ⟨-, unchanged⟩ | ⟨-, created⟩, -⟩
      · exact unchanged
      · exfalso
        rw [read, Option.some.injEq] at foundRead
        subst foundRead
        rcases behind row rowMem with ⟨own, ownRead, ordered⟩
        rw [sameTrade, read, Option.mem_some_iff] at ownRead
        subst ownRead
        refine created.fresh row rowMem ?_
        rw [wellFormed.identity, sameTrade, current, ordered.policy current]
        rfl

/-- What a successful refresh of the current generation found or made. -/
structure Refreshed (trade : TradeId) (generation : Nat) (before after : Store) : Prop where
  current : ∃ dirty, readDirty before trade = some dirty ∧ dirty.generation = generation
  job : ∃ row ∈ after.jobs.rows, row.tradeId = trade ∧ row.inputGeneration = generation ∧
    (row.state = .ready ∨ row.state = .leased ∨ row.state = .completed ∨ row.state = .exhausted)
  found : (∃ row ∈ before.jobs.rows, row.tradeId = trade ∧ row.inputGeneration = generation) →
    after.jobs = before.jobs
  made : (∀ row ∈ before.jobs.rows, row.tradeId = trade → row.inputGeneration ≠ generation) →
    ∃ row ∈ after.jobs.rows, row.tradeId = trade ∧ row.inputGeneration = generation ∧
      row.state = .ready

omit [TradeEvidence] [PresenceEvents] in
theorem current_of_refresh {handler : AdminHandler} {answers : Answers} {request : RequestDocument}
    {state next : Journaled Database} {response : ResponseDocument} {trade : TradeId}
    {expected : Nat}
    (answered : reconciliationRefresh handler answers request state = (.ok response, next))
    (parsed : AdminJson.reconciliationRefresh request.modelBytes = some (trade, expected)) :
    ∃ dirty, readDirty state.domain.store trade = some dirty ∧ dirty.generation = expected := by
  unfold reconciliationRefresh at answered
  rw [parsed] at answered
  simp only at answered
  split at answered
  · cases answered
  · rename_i dirty read
    split at answered
    · cases answered
    · split at answered
      · cases answered
      · rename_i same
        exact ⟨dirty, read, not_not.mp same⟩

/-- A refresh that succeeds over a kept database finds the job of the current generation, or makes
it. -/
theorem Served.Kept.refreshed {requests : List RequestDocument} {served : Served}
    (before : served.Kept requests) {handler : AdminHandler} {answers : Answers}
    {request : RequestDocument} {trade : TradeId} {expected : Nat} {response : ResponseDocument}
    {next : Journaled Database} (route : request.route = .reconciliationRefresh)
    (parsed : AdminJson.reconciliationRefresh request.modelBytes = some (trade, expected))
    (distinct : ∀ other ∈ requests, requestDigest other = requestDigest request →
      requestBytes other = requestBytes request)
    (answered : handleMutation handler answers request served.database = (.ok response, next)) :
    Refreshed trade expected served.database.domain.store next.domain.store := by
  have after : (⟨next, served.host⟩ : Served).Kept (requests ++ [request]) := by
    have handled := before.handle handler answers request
    simpa only [Served.apply, answered] using handled
  have refreshed : reconciliationRefresh handler answers request served.database =
      (.ok response, next) := by
    unfold handleMutation at answered
    split at answered
    · rw [route] at answered
      exact answered
    · cases answered
  rcases current_of_refresh refreshed parsed with ⟨dirty, read, generation⟩
  subst generation
  have spec := @reconciliationRefresh_spec _ _ _ handler answers request served.database
  rw [refreshed] at spec
  have outcome : next.domain.store = served.database.domain.store ∨
      ∃ now, next.domain.store = (scheduleTrade handler.mode answers.effect trade handler.jobPolicy
        now served.database.domain.store).2 := by
    rcases spec with ⟨same, -⟩ | ⟨named, other, now, parsed', -, scheduled, -⟩
    · exact .inl same
    · rw [parsed, Option.some.injEq, Prod.mk.injEq] at parsed'
      rcases parsed' with ⟨rfl, -⟩
      exact .inr ⟨now, scheduled⟩
  have still : readDirty next.domain.store trade = some dirty := by
    rcases outcome with same | ⟨now, scheduled⟩
    · rw [same]
      exact read
    · rw [scheduled, (scheduleTrade_jobs before.wellFormed).1]
      exact read
  have job : ∃ row ∈ next.domain.store.jobs.rows, row.tradeId = trade ∧
      row.inputGeneration = dirty.generation ∧ row.Behind dirty := by
    rcases handleMutation_receipted answered with ⟨_, binding, row, made, -, rowMem, receipt, -⟩
    rcases RequestBinding.of_fromDocument made with ⟨bindingRoute, digest⟩
    rcases after.receipts row rowMem receipt.completed
      (receipt.route.trans (bindingRoute.trans route)) with
      ⟨other, otherMem, sameDigest, otherRoute, named, reached, otherParsed, job, jobMem, sameTrade,
        generation⟩
    have sameModel : other.modelBytes = request.modelBytes := by
      rcases List.mem_append.mp otherMem with earlier | itself
      · refine (requestBytes_inj (by rw [otherRoute]; rfl) (by rw [route]; rfl)
          (distinct other earlier ?_)).2
        rw [sameDigest, receipt.request, digest]
      · rw [List.mem_singleton.mp itself]
    rw [sameModel, parsed, Option.some.injEq, Prod.mk.injEq] at otherParsed
    rcases otherParsed with ⟨rfl, rfl⟩
    rcases after.behind job jobMem with ⟨own, ownRead, ordered⟩
    simp only [sameTrade, still, Option.mem_some_iff] at ownRead
    subst ownRead
    exact ⟨job, jobMem, sameTrade, Nat.le_antisymm ordered.generation generation, ordered⟩
  refine ⟨⟨dirty, read, rfl⟩, ?_, ?_, ?_⟩
  · rcases job with ⟨row, rowMem, sameTrade, generation, ordered⟩
    refine ⟨row, rowMem, sameTrade, generation, ?_⟩
    cases state : row.state with
    | superseded =>
        have earlier := ordered.superseded state
        omega
    | ready | leased | completed | exhausted => simp
  · rintro ⟨row, rowMem, sameTrade, generation⟩
    rcases outcome with same | ⟨now, scheduled⟩
    · rw [same]
    · rw [scheduled, scheduleTrade_of_known before.behind read rowMem
        (before.wellFormed row rowMem) sameTrade generation]
  · intro absent
    rcases job with ⟨row, rowMem, sameTrade, generation, -⟩
    have none : ∀ {store : Store}, store = served.database.domain.store →
        next.domain.store ≠ store := by
      rintro store rfl same
      rw [same] at rowMem
      exact absent row rowMem sameTrade generation
    rcases outcome with same | ⟨now, scheduled⟩
    · exact absurd same (none rfl)
    · unfold scheduleTrade at scheduled
      split at scheduled
      · exact absurd scheduled (none rfl)
      · rcases transaction_store mapJobError answers.effect (schedule trade handler.jobPolicy now)
          served.database.domain.store with
            same | ⟨result, stored, done, same⟩
        · exact absurd (scheduled.trans same) (none rfl)
        · rw [same] at scheduled
          rcases schedule_cases done with ⟨found, foundRead, ⟨-, unchanged⟩ | ⟨-, created⟩, -⟩
          · exact absurd scheduled (none unchanged)
          · rw [read, Option.some.injEq] at foundRead
            subst foundRead
            refine ⟨readyRow trade dirty handler.jobPolicy now.get, ?_, rfl, rfl, rfl⟩
            rw [scheduled]
            simp only [created.rows]
            exact List.mem_append_right _ (List.mem_singleton_self _)

/-- A refresh that succeeds for the current generation of its trade leaves a job of this generation,
a new one only if there was none. -/
theorem refresh_finds_or_makes_job (moves : List AdminMove) (handler : AdminHandler)
    (answers : Answers) (request : RequestDocument) {trade : TradeId} {expected : Nat}
    {response : ResponseDocument} {next : Journaled Database}
    (route : request.route = .reconciliationRefresh)
    (parsed : AdminJson.reconciliationRefresh request.modelBytes = some (trade, expected))
    (distinct : ∀ other ∈ requestsOf moves, requestDigest other = requestDigest request →
      requestBytes other = requestBytes request)
    (answered : handleMutation handler answers request (Served.exec moves .initial).database =
      (.ok response, next)) :
    Refreshed trade expected (Served.exec moves .initial).database.domain.store
      next.domain.store :=
  (kept_serving moves).refreshed route parsed distinct answered

end Serving

section Exceptions

namespace Sample.Refresh

local instance : Sha256 := ⟨Hashing.sha256⟩

local instance : ResponseModels := ⟨fun route _ => route == .reconciliationRefresh⟩

local instance : TradeEvidence where
  Mutation := Unit
  mutationId _ := none
  tradeId _ := trade
  acceptsSourceId _ := true
  acceptsSourceResult _ _ _ := true
  manifest _ := none
  decode _ := none
  reduce _ _ _ _ := ⟨none, none, .missing, 0, [], [], [], [], false⟩

local instance : PresenceEvents where
  validPublicKey _ := true
  plan _ _ _ := none
  sign _ _ _ := none
  verify _ := none

local instance : AdminJson where
  stateBackup _ := none
  reconciliationRefresh bytes := if bytes = Replays.model then some (trade, 1) else none
  publicationRetry _ := none
  presenceRender _ := none
  presenceRefresh _ := none
  response
    | .reconciliationRefresh generation job operation trade =>
        textBytes ("\x7b\"dirty_generation\":" ++ toString generation ++ ",\"job_id\":\"" ++
          Replays.hex 64 job.toNat ++ "\",\"operation_id\":\"" ++ operation ++
          "\",\"trade_id\":\"" ++ Replays.hex 32 trade.toNat ++ "\"\x7d")
    | _ => []

def request (operation : String) : RequestDocument :=
  ⟨.reconciliationRefresh, some operation, Replays.model⟩

/-- A service that tries every job once. -/
def impatient : AdminHandler :=
  { Replays.handler with jobPolicy := { jobPolicy with maxAttempts := 1, valid := by decide } }

def expiredAt : UnixMilliseconds := expiresAt

def refreshedAt : UnixMilliseconds := ⟨1000062000, by decide⟩

def answers : Answers :=
  { Replays.answers with now := some expiredAt, completed := some refreshedAt }

/-- The lease of the only attempt at the job of a trade expired. -/
def exhausted : List AdminMove := [
  .call (.openReadWrite .acknowledged configuration.binding 1),
  .call (.operation (.commitSourceResult .acknowledged source trade proposal.observedAt ⟨none, none⟩
    (subscribedResult proposal))),
  .handle impatient Replays.answers (request "refresh-1"),
  .call (.operation (.claimNext .acknowledged owner claimedAt)),
  .call (.operation (.claimNext .acknowledged owner expiredAt))]

def response : ResponseDocument where
  route := .reconciliationRefresh
  canonicalBytes := AdminJson.response (.reconciliationRefresh 1 (jobId trade 1 policy) "refresh-2"
    trade)
  admitted := by decide +kernel

/-- What the refresh answers and what it leaves. -/
theorem exhausted_evaluated :
    (handleMutation impatient answers (request "refresh-2")
      (Served.exec exhausted .initial).database).1 = .ok response ∧
    (readDirty (Served.exec exhausted .initial).database.domain.store trade).map (·.generation) =
      some 1 ∧
    (handleMutation impatient answers (request "refresh-2")
      (Served.exec exhausted .initial).database).2.domain.store.jobs.rows.map
        (fun row => (row.tradeId, row.inputGeneration, row.state)) = [(trade, 1, .exhausted)] := by
  decide +kernel

/-- A refresh after the job of the current generation was exhausted succeeds and revives nothing. -/
theorem refresh_finds_exhausted_job :
    (handleMutation impatient answers (request "refresh-2")
      (Served.exec exhausted .initial).database).1.map (·.route) = .ok .reconciliationRefresh ∧
    (readDirty (Served.exec exhausted .initial).database.domain.store trade).map (·.generation) =
      some 1 ∧
    (handleMutation impatient answers (request "refresh-2")
      (Served.exec exhausted .initial).database).2.domain.store.jobs.rows.map
        (fun row => (row.tradeId, row.inputGeneration, row.state)) = [(trade, 1, .exhausted)] := by
  rcases exhausted_evaluated with ⟨answered, generation, jobs⟩
  rw [answered]
  exact ⟨rfl, generation, jobs⟩

theorem refresh_of_exhausted : ∃ next,
    handleMutation impatient answers (request "refresh-2")
      (Served.exec exhausted .initial).database = (.ok response, next) ∧
    Refreshed trade 1 (Served.exec exhausted .initial).database.domain.store next.domain.store := by
  have answered := exhausted_evaluated.1
  have parsed : AdminJson.reconciliationRefresh (request "refresh-2").modelBytes =
      some (trade, 1) := if_pos rfl
  have distinct : ∀ other ∈ requestsOf exhausted,
      requestDigest other = requestDigest (request "refresh-2") →
        requestBytes other = requestBytes (request "refresh-2") := by
    intro other otherMem _
    have single : requestsOf exhausted = [request "refresh-1"] := rfl
    rw [single, List.mem_singleton] at otherMem
    rw [otherMem]
    rfl
  rcases handled : handleMutation impatient answers (request "refresh-2")
    (Served.exec exhausted .initial).database with ⟨answer, next⟩
  rw [handled] at answered
  simp only at answered
  subst answered
  exact ⟨next, rfl, refresh_finds_or_makes_job exhausted impatient answers (request "refresh-2") rfl
    parsed distinct handled⟩

end Sample.Refresh

end Exceptions

end Rhi
