import Rhi.Admin.Guarantees
import Rhi.Admin.Routes
import Rhi.Presence.Commits
import Rhi.Service.Finalizations

/-!
# Replays of the mutations

A completed mutation leaves its receipt in the journal for the retention.  Sent again, its request
is answered from the receipt by the routes that look there first; the others compare what the
request names with the database beforehand.
-/

namespace Rhi

open Relational Transactional

section Receipts

variable [Sha256] [ResponseModels] {Domain : Type}

/-- The digest of every stored response is stored with it. -/
def Digested (journal : Table adminOperations) : Prop :=
  ∀ row ∈ journal.rows, ∀ response, row.responseModel = some response →
    row.responseSha256 = some (Sha256.digest response)

omit [ResponseModels] in
theorem JournalStep.digested {now : Nat} {before after : Table adminOperations}
    (step : JournalStep now before after) (digested : Digested before) : Digested after := by
  cases step with
  | prune => exact fun row rowMem => digested row (mem_of_mem_pruneExpired rowMem)
  | prepare mutation room rows =>
      intro row rowMem response stored
      rw [rows] at rowMem
      rcases List.mem_append.mp rowMem with old | new
      · exact digested row old response stored
      · rw [List.mem_singleton.mp new] at stored
        cases stored
  | complete stored rows =>
      intro row rowMem response model
      rw [rows] at rowMem
      rcases List.mem_map.mp rowMem with ⟨old, oldMem, rfl⟩
      rcases rewrite_completeRow old with same | ⟨-, -, written⟩
      · rw [same] at model ⊢
        exact digested old oldMem response model
      · rw [written] at model ⊢
        cases model
        rfl

theorem digested_exec (domain : Domain) (calls : List (JournalCall Domain)) :
    Digested (journalExec calls (.initial domain)).journal :=
  journal_invariant JournalStep.digested (fun row rowMem => by cases rowMem) domain calls

/-- The admission of a request whose receipt is retained replays the response. -/
theorem prepareOperation_of_receipt {binding : RequestBinding} {response : ResponseDocument}
    {now : UnixMilliseconds} {journal : Table adminOperations} {row : OperationRow}
    (bounded : Bounded journal) (digested : Digested journal) (rowMem : row ∈ journal.rows)
    (receipt : Receipt binding response.canonicalBytes row) (route : response.route = binding.route)
    (retained : row.expired now.get = false) :
    prepareOperation binding now journal =
      .ok (.exactReplay response, pruneExpired now.get journal) := by
  rcases decodeOperation_total bounded rowMem with ⟨stored, decoded⟩
  rw [prepareOperation_of_retained rowMem receipt.identity retained decoded]
  rcases decodeOperation_eq_ok decoded with ⟨prepared, -, state, -⟩ |
    ⟨bytes, digest, completed, expires, rfl, -, model, stored, -⟩
  · rw [receipt.completed] at state
    cases state
  · rw [receipt.response, Option.some.injEq] at model
    subst model
    have digests := digested row rowMem _ receipt.response
    rw [stored, Option.some.injEq] at digests
    have document := fromCanonicalBytes_canonicalBytes response
    rw [route] at document
    simp [admitStored, receipt.route, receipt.request, digests, document, Except.map]

/-- The journal holds the receipt of a request. -/
def Receipted (request : RequestDocument) (response : ResponseDocument) (completed : Nat)
    (journal : Table adminOperations) : Prop :=
  ∃ binding row, RequestBinding.fromDocument request = .ok binding ∧
    response.route = binding.route ∧ row ∈ journal.rows ∧
    Receipt binding response.canonicalBytes row ∧ row.completedAt = some completed

/-- A receipt is kept by the calls that are made before it expires. -/
theorem Receipted.exec {request : RequestDocument} {response : ResponseDocument} {completed : Nat}
    {domain : Domain} {earlier later : List (JournalCall Domain)}
    (receipted :
      Receipted request response completed (journalExec earlier (.initial domain)).journal)
    (early : ∀ call ∈ later, ∀ instant, call.instant = some instant →
      instant < completed + completedRetention) :
    Receipted request response completed
      (journalExec (earlier ++ later) (.initial domain)).journal := by
  rcases receipted with ⟨binding, row, made, route, rowMem, receipt, completedAt⟩
  have split : journalExec (earlier ++ later) (.initial domain) =
      journalExec later (journalExec earlier (.initial domain)) := by
    simp [journalExec]
  rw [split]
  rcases completed_exec receipt.completed later rowMem with kept | ⟨call, callMem, now, made, lost⟩
  · exact ⟨binding, row, made, route, kept, receipt, completedAt⟩
  · rcases row.expired_spec lost with ⟨-, expires, stored, passed⟩
    rcases dated_exec domain earlier row rowMem receipt.completed with ⟨instant, at_, expiresAt⟩
    rw [completedAt, Option.some.injEq] at at_
    rw [stored, Option.some.injEq, ← at_] at expiresAt
    have before := early call callMem now made
    omega

omit [Sha256] [ResponseModels] in
theorem completedAt_of_completed {journal : Table adminOperations} {row : OperationRow}
    (rowMem : row ∈ journal.rows) (completed : row.state = .completed) :
    ∃ instant, row.completedAt = some instant := by
  have checked := journal.checked row rowMem
  simp only [adminOperations, Bool.and_eq_true] at checked
  have shaped := checked.2
  unfold OperationRow.shaped at shaped
  split at shaped
  · simp_all
  · exact ⟨_, by assumption⟩
  · cases shaped

theorem Receipted.of_row {request : RequestDocument} {binding : RequestBinding}
    {response : ResponseDocument} {journal : Table adminOperations} {row : OperationRow}
    (made : RequestBinding.fromDocument request = .ok binding)
    (route : response.route = binding.route) (rowMem : row ∈ journal.rows)
    (receipt : Receipt binding response.canonicalBytes row) :
    ∃ completed, Receipted request response completed journal := by
  rcases completedAt_of_completed rowMem receipt.completed with ⟨completed, at_⟩
  exact ⟨completed, binding, row, made, route, rowMem, receipt, at_⟩

/-- An admission of the journal replays a receipt, or journals the request. -/
theorem prepareAdminOperation_spec {mode : HostMode} {disposition : Disposition}
    {request : RequestDocument} {now : UnixMilliseconds} {store next : Journaled Domain}
    {admission : Admission}
    (done : prepareAdminOperation mode disposition request now store = (.ok admission, next)) :
    ∃ binding, RequestBinding.fromDocument request = .ok binding ∧ next.domain = store.domain ∧
      ((∃ response, admission = .exactReplay response ∧
          ∃ completed, Receipted request response completed next.journal) ∨
        (admission = .prepared (binding.token now) ∧
          (binding.token now).row ∈ next.journal.rows)) := by
  unfold prepareAdminOperation at done
  split at done
  · cases done
  · split at done
    · cases done
    · rename_i binding made
      have body := body_of_transaction_ok done
      simp only [bind_eq_ok, pure_eq_ok, Prod.mk.injEq] at body
      rcases body with ⟨⟨admitted, journal⟩, prepared, rfl, rfl⟩
      refine ⟨binding, made, rfl, ?_⟩
      rcases prepareOperation_spec prepared with
        ⟨-, response, rfl, route, row, rowMem, receipt⟩ | ⟨rfl, rows, -⟩
      · exact .inl ⟨response, rfl, Receipted.of_row made route rowMem receipt⟩
      · refine .inr ⟨rfl, ?_⟩
        rw [rows]
        exact List.mem_append_right _ (List.mem_singleton.mpr rfl)

/-- The completion of what is prepared leaves its receipt. -/
theorem completeAdminOperation_receipted {mode : HostMode} {disposition : Disposition}
    {request : RequestDocument} {binding : RequestBinding} {response : ResponseDocument}
    {now completed : UnixMilliseconds} {store next : Journaled Domain} {completion : Completion}
    (made : RequestBinding.fromDocument request = .ok binding)
    (prepared : (binding.token now).row ∈ store.journal.rows)
    (done : completeAdminOperation mode disposition (binding.token now) response completed store =
      (.ok completion, next)) :
    ∃ instant, Receipted request response instant next.journal := by
  unfold completeAdminOperation at done
  split at done
  · cases done
  · split at done
    · cases done
    · rename_i admissible
      split at done
      · cases done
      · rename_i expires instant
        have body := body_of_transaction_ok done
        simp only [bind_eq_ok, pure_eq_ok, Prod.mk.injEq] at body
        rcases body with ⟨⟨finished, journal⟩, completing, rfl, rfl⟩
        simp only [not_or, not_not] at admissible
        rcases completeOperation_spec completing with ⟨-, rfl, row, rowMem, same, state⟩ |
          ⟨-, -, written⟩
        · have isRow := eq_of_operationId rowMem prepared same
          rw [isRow] at state
          cases state
        · have selected : (completeRow binding.operationId response.canonicalBytes completed.get
              expires).selects (binding.token now).row = true := by
            simp [completeRow, PreparedOperation.row, RequestBinding.token]
          have writtenMem : (completeRow binding.operationId response.canonicalBytes completed.get
              expires).write (binding.token now).row ∈ journal.rows := by
            rw [written, ← Table.rewrite_of_selects selected]
            exact List.mem_map_of_mem prepared
          exact Receipted.of_row made admissible.1 writtenMem ⟨rfl, rfl, rfl, rfl, rfl⟩

/-- A mutation of the database leaves its receipt. -/
theorem executeDatabaseAdminOperation_receipted {mode : HostMode} {disposition : Disposition}
    {request : RequestDocument} {response : ResponseDocument} {completed : UnixMilliseconds}
    {operation : Domain → Except JournalError (ResponseDocument × Domain)}
    {store next : Journaled Domain}
    (done : executeDatabaseAdminOperation mode disposition request completed operation store =
      (.ok response, next)) :
    ∃ instant, Receipted request response instant next.journal := by
  unfold executeDatabaseAdminOperation at done
  split at done
  · cases done
  · split at done
    · cases done
    · cases done
    · rename_i binding expires made instant
      have body := body_of_transaction_ok done
      rcases executeOperation_spec (isMutation_of_fromDocument made) instant body with
        ⟨-, route, ⟨row, rowMem, receipt⟩, -⟩
      exact Receipted.of_row made route rowMem receipt

end Receipts

section Answers

variable [Sha256] [ResponseModels] {Domain : Type}

/-- The store after a replay: what has expired is gone. -/
def Journaled.pruned (store : Journaled Domain) (now : UnixMilliseconds) : Journaled Domain :=
  { store with journal := pruneExpired now.get store.journal }

/-- A journal in which the receipt of a request has not expired. -/
structure Retained (request : RequestDocument) (response : ResponseDocument)
    (now : UnixMilliseconds) (journal : Table adminOperations) : Prop where
  bounded : Bounded journal
  digested : Digested journal
  dated : Dated journal
  receipted : ∃ completed, Receipted request response completed journal ∧
    now.get < completed + completedRetention

theorem Retained.mutation {request : RequestDocument} {response : ResponseDocument}
    {now : UnixMilliseconds} {journal : Table adminOperations}
    (retained : Retained request response now journal) : request.route.isMutation = true := by
  rcases retained.receipted with ⟨_, ⟨binding, _, made, -⟩, -⟩
  have mutation := isMutation_of_fromDocument made
  unfold RequestBinding.fromDocument at made
  split at made
  · assumption
  · cases made

theorem Retained.prepares {request : RequestDocument} {response : ResponseDocument}
    {now : UnixMilliseconds} {journal : Table adminOperations}
    (retained : Retained request response now journal) :
    ∃ binding, RequestBinding.fromDocument request = .ok binding ∧
      prepareOperation binding now journal =
        .ok (.exactReplay response, pruneExpired now.get journal) := by
  rcases retained.receipted with
    ⟨completed, ⟨binding, row, made, route, rowMem, receipt, at_⟩, early⟩
  refine ⟨binding, made, prepareOperation_of_receipt retained.bounded retained.digested rowMem
    receipt route ?_⟩
  rcases retained.dated row rowMem receipt.completed with ⟨instant, completedAt, expiresAt⟩
  rw [at_, Option.some.injEq] at completedAt
  rw [← completedAt] at expiresAt
  exact unexpired_of_lt expiresAt early

variable {request : RequestDocument} {response : ResponseDocument} {now : UnixMilliseconds}
  {store : Journaled Domain}

theorem prepareAdminOperation_of_retained (retained : Retained request response now store.journal) :
    prepareAdminOperation .readWriteExisting .acknowledged request now store =
      (.ok (.exactReplay response), store.pruned now) := by
  rcases retained.prepares with ⟨binding, made, prepared⟩
  unfold prepareAdminOperation
  simp [made, transaction, prepared, bind, Except.bind, pure, Except.pure, Journaled.pruned]

theorem executeDatabaseAdminOperation_of_retained
    (retained : Retained request response now store.journal)
    (operation : Domain → Except JournalError (ResponseDocument × Domain)) :
    executeDatabaseAdminOperation .readWriteExisting .acknowledged request now operation store =
      if (expiryOf now).isSome then (.ok response, store.pruned now)
      else (.error .invalidInput, store) := by
  rcases retained.prepares with ⟨binding, made, prepared⟩
  unfold executeDatabaseAdminOperation
  cases instant : expiryOf now with
  | none => simp [made]
  | some expires =>
      simp [made, transaction, executeOperation, prepared, bind, Except.bind, pure, Except.pure,
        Journaled.pruned]

end Answers

section Routes

variable [Sha256] [ResponseModels] [AdminJson]

/-- The service takes mutations, and its clock and its database answer. -/
structure Answered (handler : AdminHandler) (answers : Answers) (now : UnixMilliseconds) :
    Prop where
  accepting : handler.acceptingMutations = true
  writable : handler.mode = .readWriteExisting
  checked : answers.check = .acknowledged
  clock : answers.now = some now
  admitted : answers.admission = .acknowledged

variable {handler : AdminHandler} {answers : Answers} {request : RequestDocument}
  {response : ResponseDocument} {now : UnixMilliseconds} {store : Journaled Database}

theorem mutate_of_retained (answered : Answered handler answers now)
    (retained : Retained request response now store.journal)
    (effect : UnixMilliseconds → Database → EffectResult request) :
    mutate handler answers request effect store = (.ok response, store.pruned now) := by
  unfold mutate
  simp [answered.clock, answered.writable, answered.admitted,
    prepareAdminOperation_of_retained retained]

omit [AdminJson] in
theorem mutateDatabase_of_retained (answered : Answered handler answers now)
    (retained : Retained request response now store.journal)
    (operation : UnixMilliseconds → Database → Except JournalError (ResponseDocument × Database)) :
    mutateDatabase handler answers request operation store = (.ok response, store.pruned now) ↔
      expiryOf now ≠ none := by
  unfold mutateDatabase
  simp only [answered.clock, answered.writable, answered.admitted,
    executeDatabaseAdminOperation_of_retained retained]
  cases expiryOf now <;> simp

theorem backup_replays (answered : Answered handler answers now)
    (retained : Retained request response now store.journal) :
    backup handler answers request store = (.ok response, store.pruned now) ↔
      ∃ expected target, AdminJson.stateBackup request.modelBytes = some (expected, target) ∧
        currentGeneration store.domain.store = .ok expected := by
  unfold backup
  cases parsed : AdminJson.stateBackup request.modelBytes with
  | none => simp
  | some named =>
      rcases named with ⟨expected, target⟩
      cases read : currentGeneration store.domain.store with
      | error failure => simp
      | ok generation =>
          simp only [answered.checked, ne_eq, not_true_eq_false, if_false]
          by_cases same : expected = generation
          · subst same
            rw [if_neg (by simp), mutate_of_retained answered retained]
            simp
          · simp [same, Ne.symm same]

theorem reconciliationRefresh_replays (answered : Answered handler answers now)
    (retained : Retained request response now store.journal) :
    reconciliationRefresh handler answers request store = (.ok response, store.pruned now) ↔
      ∃ trade expected dirty,
        AdminJson.reconciliationRefresh request.modelBytes = some (trade, expected) ∧
        readDirty store.domain.store trade = some dirty ∧ dirty.generation = expected := by
  unfold reconciliationRefresh
  cases parsed : AdminJson.reconciliationRefresh request.modelBytes with
  | none => simp
  | some named =>
      rcases named with ⟨trade, expected⟩
      cases read : readDirty store.domain.store trade with
      | none => simp [read]
      | some dirty =>
          simp only [read, answered.checked, ne_eq, not_true_eq_false, if_false]
          by_cases same : dirty.generation = expected
          · subst same
            rw [if_neg (by simp), mutate_of_retained answered retained]
            simp [read]
          · simp [same, Ne.symm same, read]

theorem publicationRetry_replays (answered : Answered handler answers now)
    (retained : Retained request response now store.journal) :
    publicationRetry handler answers request store = (.ok response, store.pruned now) ↔
      (AdminJson.publicationRetry request.modelBytes).isSome = true ∧ expiryOf now ≠ none := by
  unfold publicationRetry
  cases parsed : AdminJson.publicationRetry request.modelBytes with
  | none => simp
  | some named => simp [mutateDatabase_of_retained answered retained]

theorem presenceRefresh_replays (answered : Answered handler answers now)
    (retained : Retained request response now store.journal) :
    presenceRefresh handler answers request store = (.ok response, store.pruned now) ↔
      (AdminJson.presenceRefresh request.modelBytes).isSome = true ∧ expiryOf now ≠ none := by
  unfold presenceRefresh
  cases parsed : AdminJson.presenceRefresh request.modelBytes with
  | none => simp
  | some expected => simp [mutateDatabase_of_retained answered retained]

/-- The stored desired state is the one the service is configured with. -/
structure Desired [PresenceEvents] (authority : DesiredAuthority) (generation : Nat)
    (presence : PresenceStore) (row : DesiredRow) : Prop where
  config : Presence.requireCurrentConfig authority presence = .ok ()
  stored : presence.desired.rows = [row]
  same : row.matchesAuthority authority = true
  generation : row.generation = generation

omit [Sha256] [ResponseModels] [AdminJson] in
/-- Committing the stored desired state again writes nothing. -/
theorem commitDesired_of_desired [PresenceEvents] {authority : DesiredAuthority} {generation : Nat}
    {presence : PresenceStore} {row : DesiredRow}
    (desired : Desired authority generation presence row) :
    Presence.commitDesired authority presence = .ok (⟨row, false⟩, presence) := by
  simp [Presence.commitDesired, desired.config, Presence.readDesired, desired.stored, desired.same,
    bind, Except.bind, pure, Except.pure]

omit [Sha256] [ResponseModels] [AdminJson] in
/-- Committing another desired state writes it. -/
theorem desired_of_commitDesired [PresenceEvents] {authority : DesiredAuthority}
    {presence next : PresenceStore} {outcome : DesiredCommit}
    (done : Presence.commitDesired authority presence = .ok (outcome, next))
    (unchanged : next.desired = presence.desired) :
    Desired authority outcome.state.generation presence outcome.state := by
  have spec := Presence.commitDesired_spec done
  simp only [Presence.commitDesired, bind_eq_ok] at done
  rcases done with ⟨_, config, -⟩
  rcases spec with ⟨-, rows, same, ⟨-, rfl⟩ | ⟨-, fresh⟩⟩
  · exact ⟨config, rows, same, rfl⟩
  · rw [unchanged] at rows
    rcases fresh with ⟨empty, -⟩ | ⟨old, stored, -, generation⟩
    · rw [empty] at rows
      cases rows
    · rw [stored] at rows
      rw [List.singleton_inj.mp rows] at generation
      omega

theorem presenceRender_replays [PresenceEvents] (answered : Answered handler answers now)
    (retained : Retained request response now store.journal) :
    presenceRender handler answers request store = (.ok response, store.pruned now) ↔
      ∃ expected row, AdminJson.presenceRender request.modelBytes = some expected ∧
        Desired handler.presence expected store.domain.presence row := by
  unfold presenceRender
  simp only [answered.checked, answered.writable, Presence.commitDesiredPresence, ne_eq,
    not_true_eq_false, if_false]
  constructor
  · intro replayed
    split at replayed
    · cases replayed
    · rename_i expected parsed
      cases committed : Presence.commitDesired handler.presence store.domain.presence with
      | error failure => simp [transaction, committed] at replayed
      | ok pair =>
          simp only [transaction, committed] at replayed
          split at replayed
          · cases replayed
          · rename_i same
            have still : Retained request response now ({ store with
                domain := store.domain.withPresence pair.2 } : Journaled Database).journal :=
              retained
            have answer := replayed.symm.trans (mutate_of_retained answered still _)
            have kept := congrArg (fun result => result.2.domain.desired) answer
            have desired := desired_of_commitDesired committed kept.symm
            rw [not_not.mp same] at desired
            exact ⟨expected, _, parsed, desired⟩
  · rintro ⟨expected, row, parsed, desired⟩
    simp only [parsed, transaction, commitDesired_of_desired desired, desired.generation,
      not_true_eq_false, if_false]
    exact mutate_of_retained answered retained _

variable [PresenceEvents]

/-- What the request names is still what the database holds. -/
def Unmoved (handler : AdminHandler) (request : RequestDocument) (now : UnixMilliseconds)
    (database : Database) : Prop :=
  match request.route with
  | .stateBackup => ∃ expected target,
      AdminJson.stateBackup request.modelBytes = some (expected, target) ∧
      currentGeneration database.store = .ok expected
  | .reconciliationRefresh => ∃ trade expected dirty,
      AdminJson.reconciliationRefresh request.modelBytes = some (trade, expected) ∧
      readDirty database.store trade = some dirty ∧ dirty.generation = expected
  | .publicationRetry =>
      (AdminJson.publicationRetry request.modelBytes).isSome = true ∧ expiryOf now ≠ none
  | .presenceRender => ∃ expected row, AdminJson.presenceRender request.modelBytes = some expected ∧
      Desired handler.presence expected database.presence row
  | .presenceRefresh =>
      (AdminJson.presenceRefresh request.modelBytes).isSome = true ∧ expiryOf now ≠ none
  | _ => False

/-- A retained request is replayed exactly when what it names has not moved. -/
theorem handleMutation_replays (answered : Answered handler answers now)
    (retained : Retained request response now store.journal) :
    handleMutation handler answers request store = (.ok response, store.pruned now) ↔
      Unmoved handler request now store.domain := by
  have mutation := retained.mutation
  unfold handleMutation Unmoved
  rw [if_pos answered.accepting]
  cases route : request.route <;> rw [route] at mutation <;> cases mutation
  · exact backup_replays answered retained
  · exact reconciliationRefresh_replays answered retained
  · exact publicationRetry_replays answered retained
  · exact presenceRender_replays answered retained
  · exact presenceRefresh_replays answered retained

end Routes

section Handling

variable [Sha256] [ResponseModels]

/-- A handler changes the database by calls of the journal at its own instants. -/
def Ran (answers : Answers) (store next : Journaled Database) : Prop :=
  ∃ calls, next = journalExec calls store ∧ ∀ call ∈ calls, ∀ instant, call.instant = some instant →
    (∃ now, answers.now = some now ∧ instant = now.get) ∨
      ∃ completed, answers.completed = some completed ∧ instant = completed.get

variable {handler : AdminHandler} {answers : Answers} {request : RequestDocument}
  {store middle next : Journaled Database}

theorem Ran.refl (store : Journaled Database) : Ran answers store store :=
  ⟨[], rfl, fun call callMem => by cases callMem⟩

theorem Ran.trans (first : Ran answers store middle) (second : Ran answers middle next) :
    Ran answers store next := by
  rcases first with ⟨before, rfl, timely⟩
  rcases second with ⟨after, rfl, timelyAfter⟩
  refine ⟨before ++ after, by simp [journalExec], ?_⟩
  intro call callMem
  rcases List.mem_append.mp callMem with early | late
  · exact timely call early
  · exact timelyAfter call late

/-- Whatever is done outside the journal. -/
theorem Ran.other (store : Journaled Database) (domain : Database) :
    Ran answers store { store with domain } := by
  refine ⟨[.other fun _ => domain], rfl, ?_⟩
  intro call callMem instant made
  rw [List.mem_singleton.mp callMem] at made
  cases made

theorem Ran.call {call : JournalCall Database} {instant : Nat} (made : call.instant = some instant)
    (timely : (∃ now, answers.now = some now ∧ instant = now.get) ∨
      ∃ completed, answers.completed = some completed ∧ instant = completed.get) :
    Ran answers store (call.apply store) := by
  refine ⟨[call], rfl, ?_⟩
  intro other otherMem at_ madeAt
  rw [List.mem_singleton.mp otherMem, made, Option.some.injEq] at madeAt
  rw [← madeAt]
  exact timely

theorem finishPrepared_ran (prepared : PreparedOperation)
    (receipt : UnixMilliseconds → ResponseModel) [AdminJson] :
    Ran answers store (finishPrepared handler answers request prepared receipt store).2 := by
  unfold finishPrepared
  split
  · exact .refl store
  · rename_i completed clock
    split
    · exact .refl store
    · rename_i document responded
      have ran : Ran answers store (completeAdminOperation handler.mode answers.completion prepared
          document completed store).2 :=
        @Ran.call _ _ answers store (.complete handler.mode answers.completion prepared document
          completed) _ rfl (.inr ⟨completed, clock, rfl⟩)
      split
      · rename_i failed
        rwa [failed] at ran
      · rename_i done
        rwa [done] at ran

theorem mutate_ran [AdminJson] (effect : UnixMilliseconds → Database → EffectResult request) :
    Ran answers store (mutate handler answers request effect store).2 := by
  unfold mutate
  split
  · exact .refl store
  · rename_i now clock
    have admitted : Ran answers store (prepareAdminOperation handler.mode answers.admission request
        now store).2 :=
      @Ran.call _ _ answers store (.prepare handler.mode answers.admission request now) _ rfl
        (.inl ⟨now, clock, rfl⟩)
    split
    · rename_i failed
      rwa [failed] at admitted
    · rename_i replayed
      rwa [replayed] at admitted
    · rename_i prepared
      rw [prepared] at admitted
      split
      · exact admitted.trans (.other _ _)
      · exact (admitted.trans (.other _ _)).trans (finishPrepared_ran _ _)

theorem mutateDatabase_ran
    (operation : UnixMilliseconds → Database → Except JournalError (ResponseDocument × Database)) :
    Ran answers store (mutateDatabase handler answers request operation store).2 := by
  unfold mutateDatabase
  split
  · exact .refl store
  · rename_i now clock
    have ran : Ran answers store (executeDatabaseAdminOperation handler.mode answers.admission
        request now (operation now) store).2 :=
      @Ran.call _ _ answers store (.execute handler.mode answers.admission request now
        (operation now)) _ rfl (.inl ⟨now, clock, rfl⟩)
    split
    · rename_i failed
      rwa [failed] at ran
    · rename_i done
      rwa [done] at ran

theorem mutate_receipted [AdminJson] {response : ResponseDocument}
    {effect : UnixMilliseconds → Database → EffectResult request}
    (done : mutate handler answers request effect store = (.ok response, next)) :
    ∃ completed, Receipted request response completed next.journal := by
  unfold mutate at done
  split at done
  · cases done
  · split at done
    · cases done
    · rename_i admitting
      rcases prepareAdminOperation_spec admitting with ⟨_, -, -, ⟨_, same, receipted⟩ | ⟨other, -⟩⟩
      · cases same
        cases done
        exact receipted
      · cases other
    · rename_i prepared middle admitting
      rcases prepareAdminOperation_spec admitting with
        ⟨binding, made, -, ⟨_, other, -⟩ | ⟨same, rowMem⟩⟩
      · cases other
      · cases same
        split at done
        · cases done
        · unfold finishPrepared at done
          split at done
          · cases done
          · split at done
            · cases done
            · split at done
              · cases done
              · rename_i completing
                cases done
                refine completeAdminOperation_receipted made ?_ completing
                exact rowMem

theorem mutateDatabase_receipted {response : ResponseDocument}
    {operation : UnixMilliseconds → Database → Except JournalError (ResponseDocument × Database)}
    (done : mutateDatabase handler answers request operation store = (.ok response, next)) :
    ∃ completed, Receipted request response completed next.journal := by
  unfold mutateDatabase at done
  split at done
  · cases done
  · split at done
    · cases done
    · rename_i executing
      cases done
      exact executeDatabaseAdminOperation_receipted executing

variable [AdminJson] [PresenceEvents]

/-- A mutation is refused before the journal, or passes it on one of the two ways. -/
theorem handleMutation_cases (handler : AdminHandler) (answers : Answers)
    (request : RequestDocument) (store : Journaled Database) :
    (∃ kind domain, handleMutation handler answers request store =
        (.error kind, { store with domain })) ∨
      (∃ domain effect, (request.route = .stateBackup ∨ request.route = .reconciliationRefresh ∨
          request.route = .presenceRender) ∧
        handleMutation handler answers request store =
          mutate handler answers request effect { store with domain }) ∨
      ∃ operation, handleMutation handler answers request store =
        mutateDatabase handler answers request operation store := by
  unfold handleMutation
  split
  · split
    · rename_i route
      unfold backup
      split
      · exact .inl ⟨_, store.domain, rfl⟩
      · split
        · exact .inl ⟨_, store.domain, rfl⟩
        · split
          · exact .inl ⟨_, store.domain, rfl⟩
          · split
            · exact .inl ⟨_, store.domain, rfl⟩
            · exact .inr (.inl ⟨store.domain, _, .inl route, rfl⟩)
    · rename_i route
      unfold reconciliationRefresh
      split
      · exact .inl ⟨_, store.domain, rfl⟩
      · split
        · exact .inl ⟨_, store.domain, rfl⟩
        · split
          · exact .inl ⟨_, store.domain, rfl⟩
          · split
            · exact .inl ⟨_, store.domain, rfl⟩
            · exact .inr (.inl ⟨store.domain, _, .inr (.inl route), rfl⟩)
    · unfold publicationRetry
      split
      · exact .inl ⟨_, store.domain, rfl⟩
      · exact .inr (.inr ⟨_, rfl⟩)
    · rename_i route
      unfold presenceRender
      split
      · exact .inl ⟨_, store.domain, rfl⟩
      · split
        · exact .inl ⟨_, _, rfl⟩
        · simp only
          split
          · exact .inl ⟨_, _, rfl⟩
          · exact .inr (.inl ⟨_, _, .inr (.inr route), rfl⟩)
    · unfold presenceRefresh
      split
      · exact .inl ⟨_, store.domain, rfl⟩
      · exact .inr (.inr ⟨_, rfl⟩)
    · exact .inl ⟨_, store.domain, rfl⟩
  · exact .inl ⟨_, store.domain, rfl⟩

/-- Handling a mutation is a run of the journal. -/
theorem handleMutation_ran :
    Ran answers store (handleMutation handler answers request store).2 := by
  rcases handleMutation_cases handler answers request store with
    ⟨kind, domain, same⟩ | ⟨domain, effect, -, same⟩ | ⟨operation, same⟩
  · rw [same]
    exact .other store domain
  · rw [same]
    exact (Ran.other store domain).trans (mutate_ran effect)
  · rw [same]
    exact mutateDatabase_ran operation

/-- A mutation that answers leaves its receipt. -/
theorem handleMutation_receipted {response : ResponseDocument}
    (done : handleMutation handler answers request store = (.ok response, next)) :
    ∃ completed, Receipted request response completed next.journal := by
  rcases handleMutation_cases handler answers request store with
    ⟨kind, domain, same⟩ | ⟨domain, effect, -, same⟩ | ⟨operation, same⟩
  · rw [same] at done
    cases done
  · rw [same] at done
    exact mutate_receipted done
  · rw [same] at done
    exact mutateDatabase_receipted done

end Handling

section Exactness

variable [Sha256] [ResponseModels] [AdminJson] [PresenceEvents]

/-- Every route replays the response of a retained mutation exactly while what its request names has
not moved, and a mutation that answers is retained. -/
structure ReplaysUnmoved : Prop where
  handled : ∀ (handler : AdminHandler) (answers : Answers) (request : RequestDocument)
    (store : Journaled Database), Ran answers store (handleMutation handler answers request store).2
  receipted : ∀ (handler : AdminHandler) (answers : Answers) (request : RequestDocument)
    (response : ResponseDocument) (store next : Journaled Database),
    handleMutation handler answers request store = (.ok response, next) →
    ∃ completed, Receipted request response completed next.journal
  replayed : ∀ (domain : Database) (earlier later : List (JournalCall Database))
    (handler : AdminHandler) (answers : Answers) (request : RequestDocument)
    (response : ResponseDocument) (completed : Nat) (now : UnixMilliseconds),
    let store := journalExec (earlier ++ later) (.initial domain)
    Receipted request response completed (journalExec earlier (.initial domain)).journal →
    (∀ call ∈ later, ∀ instant, call.instant = some instant →
      instant < completed + completedRetention) →
    now.get < completed + completedRetention → Answered handler answers now →
    (handleMutation handler answers request store = (.ok response, store.pruned now) ↔
      Unmoved handler request now store.domain)

/-- A mutation is replayed exactly while what its request names has not moved. -/
theorem replayed_iff_unmoved : ReplaysUnmoved where
  handled _ _ _ _ := handleMutation_ran
  receipted _ _ _ _ _ _ done := handleMutation_receipted done
  replayed domain _ _ _ _ _ _ completed _ receipted early timely answered :=
    handleMutation_replays answered {
      bounded := bounded_exec domain _
      digested := digested_exec domain _
      dated := dated_exec domain _
      receipted := ⟨completed, receipted.exec early, timely⟩ }

end Exactness

section Exceptions

namespace Sample.Replays

local instance : Sha256 := ⟨Hashing.sha256⟩

local instance : ResponseModels := ⟨fun route _ => route == .reconciliationRefresh⟩

local instance : TradeEvidence where
  Mutation := Unit
  mutationId _ := none
  tradeId _ := trade
  acceptsSourceId _ := true
  acceptsSourceResult _ _ _ := true
  manifest _ := none
  decode _ := none
  reduce _ _ _ _ := ⟨none, none, .missing, 0, [], [], [], [], false⟩

def hex (count value : Nat) : String :=
  String.ofList ((List.range count).map fun index =>
    Nat.digitChar (value / 16 ^ (count - 1 - index) % 16))

def model : List UInt8 :=
  textBytes ("\x7b\"expected_dirty_generation\":1,\"trade_id\":\"" ++ hex 32 trade.toNat ++
    "\"\x7d")

local instance : AdminJson where
  stateBackup _ := none
  reconciliationRefresh bytes := if bytes = model then some (trade, 1) else none
  publicationRetry _ := none
  presenceRender _ := none
  presenceRefresh _ := none
  response
    | .reconciliationRefresh generation job operation trade =>
        textBytes ("\x7b\"dirty_generation\":" ++ toString generation ++ ",\"job_id\":\"" ++
          hex 64 job.toNat ++ "\",\"operation_id\":\"" ++ operation ++ "\",\"trade_id\":\"" ++
          hex 32 trade.toNat ++ "\"\x7d")
    | _ => []

local instance : PresenceEvents where
  validPublicKey _ := true
  plan _ _ _ := none
  sign _ _ _ := none
  verify _ := none

def request : RequestDocument := ⟨.reconciliationRefresh, some "refresh-1", model⟩

def handler : AdminHandler where
  mode := .readWriteExisting
  acceptingMutations := true
  jobPolicy
  publicationTargets := 1
  presence := ⟨0x99#256, 0x33#256, false, [], [], 0, 0, 0⟩
  identity := 0x33#256

def completedAt : UnixMilliseconds := ⟨1000000200, by decide⟩

def answers : Answers where
  check := .acknowledged
  now := some scheduledAt
  admission := .acknowledged
  effect := .acknowledged
  captured := none
  signedAt := none
  entropy := []
  completed := some completedAt
  completion := .acknowledged

def resentAt : UnixMilliseconds := claimedAt

def again : Answers := { answers with now := some resentAt }

/-- A database to which the first proposal of the trade was delivered. -/
def delivered : Journaled Database :=
  .initial ⟨(Service.exec (calls.take 2) .initial).store, .empty, .empty, .empty, .empty, []⟩

def refreshed : Journaled Database := (handleMutation handler answers request delivered).2

def second : AdmittedEvent := event 0x7a#256 0x8a#256 1000001 second_bounds

/-- Another proposal of the trade was delivered after the refresh. -/
def moved : Journaled Database :=
  { refreshed with domain := { refreshed.domain with
    store := (commitSourceResult .acknowledged source policy second.observedAt
      (readInitialState source policy trade refreshed.domain.store) (subscribedResult second)
      refreshed.domain.store).2 } }

def response : ResponseDocument where
  route := .reconciliationRefresh
  canonicalBytes := AdminJson.response (.reconciliationRefresh 1 (jobId trade 1 policy) "refresh-1"
    trade)
  admitted := by decide +kernel

/-- A refresh that completed is replayed at first, and refused once the dirty generation of its
trade has moved. -/
theorem refresh_refused_after_move :
    (handleMutation handler answers request delivered).1 = .ok response ∧
    (handleMutation handler again request refreshed).1 = .ok response ∧
    resentAt.get < completedAt.get + completedRetention ∧
    (handleMutation handler again request moved).1 = .error .conflict := by
  decide +kernel

end Sample.Replays

end Exceptions

end Rhi
