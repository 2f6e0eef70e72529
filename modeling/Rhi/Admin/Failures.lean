import Mathlib.Data.List.Perm.Subperm
import Rhi.Admin.Replays

/-!
# Failures between the two transactions of a mutation

A prepared operation is journaled before its effect, and only the handler that prepared it completes
it.  When that handler fails or the service crashes in between, the row stays: it is never pruned,
its identity is refused ever after, and it counts towards the bound of the prepared operations.
-/

namespace Rhi

open Relational Transactional

section Service

variable [Sha256] [ResponseModels] {Domain : Type}

omit [Sha256] [ResponseModels] in
/-- The database, with the operations whose handlers are between their two transactions. -/
structure InService (Domain : Type) where
  store : Journaled Domain
  inFlight : List PreparedOperation

/-- What happens while mutations are handled. -/
inductive ServiceEvent (Domain : Type) where
  /-- A handler prepares its request. -/
  | prepare (mode : HostMode) (disposition : Disposition) (request : RequestDocument)
      (now : UnixMilliseconds)
  /-- A handler that prepared completes. -/
  | finish (prepared : PreparedOperation) (mode : HostMode) (disposition : Disposition)
      (response : ResponseDocument) (completed : UnixMilliseconds)
  /-- A handler that prepared answers an error instead. -/
  | fail (prepared : PreparedOperation)
  | crash
  /-- A mutation of the database alone. -/
  | execute (mode : HostMode) (disposition : Disposition) (request : RequestDocument)
      (completed : UnixMilliseconds)
      (operation : Domain → Except JournalError (ResponseDocument × Domain))
  /-- Anything else the service does, the effects of the handlers included. -/
  | other (change : Domain → Domain)

namespace ServiceEvent

/-- The service after an event. -/
def apply (event : ServiceEvent Domain) (service : InService Domain) : InService Domain :=
  match event with
  | .prepare mode disposition request now =>
      match prepareAdminOperation mode disposition request now service.store with
      | (.ok (.prepared prepared), store) => ⟨store, prepared :: service.inFlight⟩
      | (_, store) => ⟨store, service.inFlight⟩
  | .finish prepared mode disposition response completed =>
      if prepared ∈ service.inFlight then
        ⟨(completeAdminOperation mode disposition prepared response completed service.store).2,
          service.inFlight.erase prepared⟩
      else
        service
  | .fail prepared => ⟨service.store, service.inFlight.erase prepared⟩
  | .crash => ⟨service.store, []⟩
  | .execute mode disposition request completed operation =>
      ⟨(executeDatabaseAdminOperation mode disposition request completed operation
        service.store).2, service.inFlight⟩
  | .other change => ⟨{ service.store with domain := change service.store.domain },
      service.inFlight⟩

end ServiceEvent

/-- The service after a run. -/
def serviceExec (events : List (ServiceEvent Domain)) (service : InService Domain) :
    InService Domain :=
  Transition.exec ServiceEvent.apply events service

/-- The service at the start of its first run. -/
def InService.initial (domain : Domain) : InService Domain := ⟨.initial domain, []⟩

/-- An admission whose commit takes effect without acknowledgement. -/
def Lost (mode : HostMode) (disposition : Disposition) (request : RequestDocument)
    (now : UnixMilliseconds) (store : Journaled Domain) : Prop :=
  disposition = .unacknowledged true ∧ ∃ prepared,
    (prepareAdminOperation mode .acknowledged request now store).1 = .ok (.prepared prepared)

omit [Sha256] in
/-- A completion that takes effect. -/
structure Completable (prepared : PreparedOperation) (mode : HostMode) (disposition : Disposition)
    (response : ResponseDocument) (completed : UnixMilliseconds) : Prop where
  writable : mode = .readWriteExisting
  committed : disposition = .acknowledged ∨ disposition = .unacknowledged true
  route : response.route = prepared.route
  fits : response.canonicalBytes.length ≤ responseModelMaxBytes
  forward : prepared.preparedAt.get ≤ completed.get
  dated : expiryOf completed ≠ none

/-- No mutation fails after its preparation was committed and before its completion is. -/
def Settles (service : InService Domain) : ServiceEvent Domain → Prop
  | .prepare mode disposition request now => ¬Lost mode disposition request now service.store
  | .finish prepared mode disposition response completed => prepared ∈ service.inFlight →
      Completable prepared mode disposition response completed
  | .fail prepared => prepared ∉ service.inFlight
  | .crash => service.inFlight = []
  | .execute _ _ _ _ _ | .other _ => True

/-- Only what is in flight and what is retained stands in the way of a mutation: any other identity
is admitted as a new one, and there is room unless these fill the journal. -/
def Unwedged (service : InService Domain) : Prop :=
  ∀ (binding : RequestBinding) (now : UnixMilliseconds), binding.route.isMutation = true →
    (∀ prepared ∈ service.inFlight, prepared.operationId ≠ binding.operationId) →
    (∀ row ∈ service.store.journal.rows, row.state = .completed →
      row.operationId = binding.operationId → row.expired now.get = true) →
    service.inFlight.length < preparedLimit →
    (service.store.journal.rows.countP fun row => row.state == .completed && !row.expired now.get) +
      service.inFlight.length < completedLimit →
    ∃ journal, prepareOperation binding now service.store.journal =
      .ok (.prepared (binding.token now), journal)

end Service

section Preparing

variable [Sha256] [ResponseModels]

omit [Sha256] [ResponseModels] in
theorem adminOperations_nodup (journal : Table adminOperations) : journal.rows.Nodup :=
  journal.distinct.imp fun {left right} apart same => by
    simp [adminOperations, same] at apart

/-- An identity that is not journaled is admitted while there is room. -/
theorem prepareOperation_of_absent {binding : RequestBinding} {now : UnixMilliseconds}
    {journal : Table adminOperations} (mutation : binding.route.isMutation = true)
    (absent : ∀ row ∈ (pruneExpired now.get journal).rows, row.operationId ≠ binding.operationId)
    (room : (pruneExpired now.get journal).rows.length < completedLimit ∧
      ((pruneExpired now.get journal).rows.countP fun row => row.state == .prepared) <
        preparedLimit) :
    ∃ next, prepareOperation binding now journal = .ok (.prepared (binding.token now), next) := by
  have missing : readOperation binding.operationId (pruneExpired now.get journal) = .ok none := by
    have looked : (pruneExpired now.get journal).rows.find?
        (fun row => row.operationId == binding.operationId) = none :=
      List.find?_eq_none.mpr fun row rowMem => by simpa using absent row rowMem
    simp [readOperation, looked]
  have checks : adminOperations.check (binding.row now.get) = true := by
    simp [adminOperations, RequestBinding.row, OperationRow.shaped, now.bounded]
  have apart : ∀ stored ∈ (pruneExpired now.get journal).rows,
      adminOperations.clash stored (binding.row now.get) = false := by
    intro stored storedMem
    simpa [adminOperations, RequestBinding.row] using absent stored storedMem
  rcases Table.insert_of_accepted checks rfl apart with ⟨next, inserted, rows⟩
  have stored : binding.row now.get ∈ next.rows := by
    rw [rows]
    simp
  have reread := @readOperation_eq binding.operationId next _ stored rfl
  have decoded : decodeOperation (binding.row now.get) =
      .ok (.prepared binding.route binding.requestSha256 now.get) := by
    simp [decodeOperation, RequestBinding.row, mutation]
  rw [decoded] at reread
  have counted := countP_add_countP (pruneExpired now.get journal).rows
  refine ⟨next, ?_⟩
  unfold prepareOperation
  simp only [missing, bind, Except.bind, readCounts, counted, room, and_self, decide_true, require,
    if_true, inserted, orError, reread, Except.map, BEq.rfl, pure, Except.pure]
  rfl

variable {Domain : Type}

/-- What an admission leaves in the journal, and whether a handler holds it. -/
theorem prepareAdminOperation_outcome (mode : HostMode) (disposition : Disposition)
    (request : RequestDocument) (now : UnixMilliseconds) (store : Journaled Domain) :
    ((∀ prepared, (prepareAdminOperation mode disposition request now store).1 ≠
          .ok (.prepared prepared)) ∧ ¬Lost mode disposition request now store ∧
        ((prepareAdminOperation mode disposition request now store).2.journal = store.journal ∨
          (prepareAdminOperation mode disposition request now store).2.journal =
            pruneExpired now.get store.journal)) ∨
      ∃ binding : RequestBinding,
        (∀ row ∈ (pruneExpired now.get store.journal).rows, row.operationId ≠ binding.operationId) ∧
        (prepareAdminOperation mode disposition request now store).2.journal.rows =
          (pruneExpired now.get store.journal).rows ++ [(binding.token now).row] ∧
        (((prepareAdminOperation mode disposition request now store).1 =
            .ok (.prepared (binding.token now)) ∧ ¬Lost mode disposition request now store) ∨
          ((∀ prepared, (prepareAdminOperation mode disposition request now store).1 ≠
              .ok (.prepared prepared)) ∧ Lost mode disposition request now store)) := by
  by_cases writable : mode = .readWriteExisting
  · subst writable
    cases made : RequestBinding.fromDocument request with
    | error kind =>
        have refused : ∀ disposition, prepareAdminOperation .readWriteExisting disposition request
            now store = (.error kind, store) :=
          fun disposition => by simp [prepareAdminOperation, made]
        exact .inl (by simp [refused, Lost])
    | ok binding =>
        have run := fun disposition =>
          @prepareAdminOperation_of_binding _ _ _ disposition request now store binding made
        cases result : prepareOperation binding now store.journal with
        | error failure =>
            refine .inl ?_
            rcases disposition with _ | _ | ⟨_ | _⟩ <;>
              simp [run, Lost, transaction, result, bind, Except.bind]
        | ok pair =>
            rcases pair with ⟨admission, journal⟩
            rcases prepareOperation_spec result with ⟨rfl, response, rfl, -⟩ |
              ⟨rfl, rows, absent, -⟩
            · refine .inl ?_
              rcases disposition with _ | _ | ⟨_ | _⟩ <;>
                simp [run, Lost, transaction, result, bind, Except.bind, pure, Except.pure]
            · change _ = _ ++ [(binding.token now).row] at rows
              rcases disposition with _ | _ | ⟨_ | _⟩
              · refine .inr ⟨binding, absent, ?_, .inl ?_⟩ <;>
                  simp [run, Lost, transaction, result, rows, bind, Except.bind, pure, Except.pure]
              · exact .inl (by simp [run, Lost, transaction])
              · refine .inl ?_
                simp [run, Lost, transaction, result, bind, Except.bind, pure, Except.pure]
              · refine .inr ⟨binding, absent, ?_, .inr ?_⟩ <;>
                  simp [run, Lost, transaction, result, rows, bind, Except.bind, pure, Except.pure]
  · have refused : ∀ disposition, prepareAdminOperation mode disposition request now store =
        (.error .invalidMode, store) :=
      fun disposition => by simp [prepareAdminOperation, writable]
    exact .inl (by simp [refused, Lost])

omit [ResponseModels] in
/-- A completion rewrites its row, or leaves the journal as it is. -/
theorem completeOperation_rows {prepared : PreparedOperation} {response : List UInt8}
    {completed : UnixMilliseconds} {expires : Nat} {journal next : Table adminOperations}
    {completion : Completion} (stored : prepared.row ∈ journal.rows)
    (done : completeOperation prepared response completed expires journal =
      .ok (completion, next)) :
    next.rows = journal.rows.map (Table.rewrite
      (completeRow prepared.operationId response completed.get expires)) := by
  rcases completeOperation_spec done with ⟨-, -, row, rowMem, same, state⟩ | ⟨-, -, rows⟩
  · rw [eq_of_operationId rowMem stored same] at state
    cases state
  · exact rows

/-- A completion takes effect exactly when it is completable. -/
theorem completeAdminOperation_outcome {prepared : PreparedOperation} (mode : HostMode)
    (disposition : Disposition) (response : ResponseDocument) (completed : UnixMilliseconds)
    {store : Journaled Domain} (bounded : Bounded store.journal)
    (stored : prepared.row ∈ store.journal.rows) :
    (Completable prepared mode disposition response completed ∧ ∃ expires,
        (completeAdminOperation mode disposition prepared response completed store).2.journal.rows =
          store.journal.rows.map (Table.rewrite (completeRow prepared.operationId
            response.canonicalBytes completed.get expires))) ∨
      (¬Completable prepared mode disposition response completed ∧
        (completeAdminOperation mode disposition prepared response completed store).2 = store) := by
  unfold completeAdminOperation
  by_cases writable : mode = .readWriteExisting
  · rw [if_neg (not_not.mpr writable)]
    split
    · rename_i inadmissible
      refine .inr ⟨fun completable => ?_, rfl⟩
      rcases inadmissible with route | empty | long | backward
      · exact route completable.route
      · exact response.nonempty empty
      · exact absurd completable.fits (Nat.not_le.mpr long)
      · exact absurd completable.forward (Nat.not_le.mpr backward)
    · rename_i admissible
      simp only [not_or, not_not, Nat.not_lt] at admissible
      rcases admissible with ⟨route, -, fits, forward⟩
      cases instant : expiryOf completed with
      | none => exact .inr ⟨fun completable => completable.dated instant, rfl⟩
      | some expires =>
          have dated : expiryOf completed ≠ none := by simp [instant]
          rcases completeOperation_of_prepared bounded stored response.nonempty fits forward
            instant with ⟨next, done⟩
          have rows := completeOperation_rows stored done
          rcases disposition with _ | _ | ⟨_ | _⟩
          · refine .inl ⟨⟨writable, .inl rfl, route, fits, forward, dated⟩, expires, ?_⟩
            simp [transaction, done, rows, bind, Except.bind, pure, Except.pure]
          · exact .inr ⟨fun completable => by simpa using completable.committed, rfl⟩
          · refine .inr ⟨fun completable => by simpa using completable.committed, ?_⟩
            simp [transaction, done, bind, Except.bind, pure, Except.pure]
          · refine .inl ⟨⟨writable, .inr rfl, route, fits, forward, dated⟩, expires, ?_⟩
            simp [transaction, done, rows, bind, Except.bind, pure, Except.pure]
  · rw [if_pos writable]
    exact .inr ⟨fun completable => writable completable.writable, rfl⟩

/-- A mutation of the database leaves no prepared row and takes none away. -/
theorem executeDatabaseAdminOperation_outcome (mode : HostMode) (disposition : Disposition)
    (request : RequestDocument) (completed : UnixMilliseconds)
    (operation : Domain → Except JournalError (ResponseDocument × Domain))
    (store : Journaled Domain) :
    ∃ receipts : List OperationRow, (∀ row ∈ receipts, row.state = .completed) ∧
      ((executeDatabaseAdminOperation mode disposition request completed operation
          store).2.journal.rows = store.journal.rows ++ receipts ∨
        (executeDatabaseAdminOperation mode disposition request completed operation
          store).2.journal.rows = (pruneExpired completed.get store.journal).rows ++ receipts) := by
  have nothing : ∀ row ∈ ([] : List OperationRow), row.state = .completed :=
    fun row rowMem => by cases rowMem
  unfold executeDatabaseAdminOperation
  split
  · exact ⟨[], nothing, .inl (by simp)⟩
  · split
    · exact ⟨[], nothing, .inl (by simp)⟩
    · exact ⟨[], nothing, .inl (by simp)⟩
    · rename_i binding expires made instant
      rcases transaction_store mapJournalError disposition
        (executeOperation binding completed expires operation) store with same |
        ⟨response, next, done, same⟩
      · rw [same]
        exact ⟨[], nothing, .inl (by simp)⟩
      · rw [same]
        simp only [executeOperation, bind_eq_ok] at done
        rcases done with ⟨⟨admission, journal⟩, admitting, done⟩
        rcases prepareOperation_spec admitting with ⟨rfl, replay, rfl, -⟩ | ⟨rfl, rows, absent, -⟩
        · simp only [pure_eq_ok, Prod.mk.injEq] at done
          rcases done with ⟨-, rfl⟩
          exact ⟨[], nothing, .inr (by simp)⟩
        · simp only [bind_eq_ok, require_eq_ok, pure_eq_ok, Prod.mk.injEq] at done
          rcases done with ⟨⟨answer, domain⟩, -, -, -, ⟨completion, finished⟩, completing, -, rfl⟩
          have stored : (binding.token completed).row ∈ journal.rows := by
            rw [rows]
            exact List.mem_append_right _ (List.mem_singleton.mpr rfl)
          have written := completeOperation_rows stored completing
          rw [rows, List.map_append] at written
          have others : (pruneExpired completed.get store.journal).rows.map (Table.rewrite
              (completeRow (binding.token completed).operationId answer.canonicalBytes
                completed.get expires)) = (pruneExpired completed.get store.journal).rows := by
            refine Table.map_rewrite_of_skipped fun row rowMem => ?_
            simp [completeRow, RequestBinding.token, absent row rowMem]
          rw [others] at written
          refine ⟨_, ?_, .inr written⟩
          intro row rowMem
          rw [List.map_singleton, List.mem_singleton] at rowMem
          have selected : (completeRow (binding.token completed).operationId answer.canonicalBytes
              completed.get expires).selects (binding.row completed.get) = true := by
            simp [completeRow, RequestBinding.token, RequestBinding.row]
          rw [rowMem, Table.rewrite_of_selects selected]
          rfl

end Preparing

section Tracking

variable [Sha256] [ResponseModels] {Domain : Type}

omit [Sha256] [ResponseModels] in
theorem PreparedOperation.row_inj {left right : PreparedOperation} (same : left.row = right.row) :
    left = right := by
  cases left with
  | mk leftId leftRoute leftRequest leftAt =>
      cases right with
      | mk rightId rightRoute rightRequest rightAt =>
          cases leftAt
          cases rightAt
          simp only [PreparedOperation.row, OperationRow.mk.injEq, true_and, and_true] at same
          rcases same with ⟨rfl, rfl, rfl, rfl⟩
          rfl

omit [Sha256] [ResponseModels] in
/-- A prepared row is never pruned. -/
theorem mem_pruneExpired_of_prepared {now : Nat} {journal : Table adminOperations}
    {row : OperationRow} (prepared : row.state = .prepared) :
    row ∈ (pruneExpired now journal).rows ↔ row ∈ journal.rows :=
  ⟨mem_of_mem_pruneExpired, fun rowMem =>
    mem_pruneExpired_of_unexpired rowMem (by simp [OperationRow.expired, prepared])⟩

omit [Sha256] [ResponseModels] in
/-- What is in flight is journaled. -/
structure InService.Consistent (service : InService Domain) : Prop where
  bounded : Bounded service.store.journal
  stored : ∀ prepared ∈ service.inFlight, prepared.row ∈ service.store.journal.rows
  nodup : service.inFlight.Nodup

omit [Sha256] [ResponseModels] in
/-- Whatever is prepared is in flight. -/
def Attended (service : InService Domain) : Prop :=
  ∀ row ∈ service.store.journal.rows, row.state = .prepared →
    ∃ prepared ∈ service.inFlight, prepared.row = row

omit [Sha256] [ResponseModels] in
/-- An identity in flight is in flight once. -/
theorem InService.Consistent.eq_of_operationId {service : InService Domain}
    (consistent : InService.Consistent service)
    {left right : PreparedOperation} (leftMem : left ∈ service.inFlight)
    (rightMem : right ∈ service.inFlight) (same : left.operationId = right.operationId) :
    left = right :=
  PreparedOperation.row_inj
    (Rhi.eq_of_operationId (consistent.stored left leftMem) (consistent.stored right rightMem) same)

theorem apply_prepare_of_refused {mode : HostMode} {disposition : Disposition}
    {request : RequestDocument} {now : UnixMilliseconds} {service : InService Domain}
    (refused : ∀ prepared, (prepareAdminOperation mode disposition request now service.store).1 ≠
      .ok (.prepared prepared)) :
    (ServiceEvent.prepare mode disposition request now).apply service =
      ⟨(prepareAdminOperation mode disposition request now service.store).2, service.inFlight⟩ := by
  simp only [ServiceEvent.apply]

theorem apply_prepare_of_prepared {mode : HostMode} {disposition : Disposition}
    {request : RequestDocument} {now : UnixMilliseconds} {service : InService Domain}
    {prepared : PreparedOperation}
    (admitted : (prepareAdminOperation mode disposition request now service.store).1 =
      .ok (.prepared prepared)) :
    (ServiceEvent.prepare mode disposition request now).apply service =
      ⟨(prepareAdminOperation mode disposition request now service.store).2,
        prepared :: service.inFlight⟩ := by
  simp only [ServiceEvent.apply]
  split
  · rename_i other store answered
    rw [answered] at admitted ⊢
    cases admitted
    rfl
  · rename_i answer store refused answered
    rw [answered] at admitted
    exact absurd admitted (refused prepared)

theorem ServiceEvent.bounded (event : ServiceEvent Domain) {service : InService Domain}
    (bounded : Bounded service.store.journal) : Bounded (event.apply service).store.journal := by
  have kept := fun call => JournalCall.invariant JournalStep.bounded call service.store bounded
  cases event with
  | prepare mode disposition request now =>
      have admitted := kept (.prepare mode disposition request now)
      simp only [ServiceEvent.apply]
      split
      · rename_i answered
        simpa only [JournalCall.apply, answered] using admitted
      · rename_i answered
        simpa only [JournalCall.apply, answered] using admitted
  | finish prepared mode disposition response completed =>
      simp only [ServiceEvent.apply]
      split
      · exact kept (.complete mode disposition prepared response completed)
      · exact bounded
  | fail prepared => exact bounded
  | crash => exact bounded
  | execute mode disposition request completed operation =>
      exact kept (.execute mode disposition request completed operation)
  | other change => exact bounded

omit [ResponseModels] in
/-- A completion leaves the rows of the other operations as they are. -/
theorem rewrite_of_other {prepared other : PreparedOperation} {response : List UInt8}
    {completed expires : Nat} (differs : other.operationId ≠ prepared.operationId) :
    Table.rewrite (completeRow prepared.operationId response completed expires) other.row =
      other.row :=
  Table.rewrite_of_not_selects (by simp [completeRow, PreparedOperation.row, differs])

/-- What is in flight stays journaled. -/
theorem consistent_apply (event : ServiceEvent Domain) {service : InService Domain}
    (consistent : InService.Consistent service) : InService.Consistent (event.apply service) := by
  have bounded := event.bounded consistent.bounded
  cases event with
  | prepare mode disposition request now =>
      rcases prepareAdminOperation_outcome mode disposition request now service.store with
        ⟨refused, -, journal⟩ | ⟨binding, absent, rows, ⟨admitted, -⟩ | ⟨refused, -⟩⟩
      · rw [apply_prepare_of_refused refused] at bounded ⊢
        refine ⟨bounded, fun prepared preparedMem => ?_, consistent.nodup⟩
        have stored := consistent.stored prepared preparedMem
        rcases journal with same | pruned
        · rw [same]
          exact stored
        · rw [pruned]
          exact (mem_pruneExpired_of_prepared rfl).mpr stored
      · rw [apply_prepare_of_prepared admitted] at bounded ⊢
        have kept : ∀ prepared ∈ service.inFlight,
            prepared.row ∈ (pruneExpired now.get service.store.journal).rows :=
          fun prepared preparedMem =>
            (mem_pruneExpired_of_prepared rfl).mpr (consistent.stored prepared preparedMem)
        refine ⟨bounded, fun prepared preparedMem => ?_, List.nodup_cons.mpr ⟨?_, consistent.nodup⟩⟩
        · rw [rows]
          rcases List.mem_cons.mp preparedMem with rfl | older
          · simp
          · exact List.mem_append_left _ (kept prepared older)
        · intro already
          exact absent _ (kept _ already) rfl
      · rw [apply_prepare_of_refused refused] at bounded ⊢
        refine ⟨bounded, fun prepared preparedMem => ?_, consistent.nodup⟩
        rw [rows]
        exact List.mem_append_left _
          ((mem_pruneExpired_of_prepared rfl).mpr (consistent.stored prepared preparedMem))
  | finish prepared mode disposition response completed =>
      simp only [ServiceEvent.apply] at bounded ⊢
      split at bounded
      · rename_i held
        rw [if_pos held]
        refine ⟨bounded, fun other otherMem => ?_, consistent.nodup.erase _⟩
        have rest := (consistent.nodup.mem_erase_iff).mp otherMem
        have stored := consistent.stored other rest.2
        rcases completeAdminOperation_outcome mode disposition response completed consistent.bounded
          (consistent.stored prepared held) with ⟨-, expires, rows⟩ | ⟨-, same⟩
        · have differs : other.operationId ≠ prepared.operationId :=
            fun same => rest.1 (consistent.eq_of_operationId rest.2 held same)
          rw [rows, ← rewrite_of_other differs]
          exact List.mem_map_of_mem stored
        · rw [same]
          exact stored
      · rename_i absent
        rw [if_neg absent]
        exact consistent
  | fail prepared =>
      exact ⟨bounded, fun other otherMem =>
        consistent.stored other (List.mem_of_mem_erase otherMem), consistent.nodup.erase _⟩
  | crash => exact ⟨bounded, fun prepared preparedMem => (by cases preparedMem), List.nodup_nil⟩
  | execute mode disposition request completed operation =>
      refine ⟨bounded, fun prepared preparedMem => ?_, consistent.nodup⟩
      have stored := consistent.stored prepared preparedMem
      rcases executeDatabaseAdminOperation_outcome mode disposition request completed operation
        service.store with ⟨receipts, -, rows | rows⟩
      · exact rows ▸ List.mem_append_left _ stored
      · exact rows ▸ List.mem_append_left _ ((mem_pruneExpired_of_prepared rfl).mpr stored)
  | other change => exact ⟨bounded, consistent.stored, consistent.nodup⟩

omit [ResponseModels] in
/-- A row that is prepared after a completion was prepared before, by another operation. -/
theorem prepared_of_completeRow {prepared : PreparedOperation} {response : List UInt8}
    {completed expires : Nat} {journal : Table adminOperations} {row : OperationRow}
    (rowMem : row ∈ journal.rows.map (Table.rewrite
      (completeRow prepared.operationId response completed expires)))
    (state : row.state = .prepared) :
    row ∈ journal.rows ∧ row.operationId ≠ prepared.operationId := by
  rcases List.mem_map.mp rowMem with ⟨old, oldMem, rfl⟩
  cases selected : (completeRow prepared.operationId response completed expires).selects old with
  | true =>
      rw [Table.rewrite_of_selects selected] at state
      cases state
  | false =>
      rw [Table.rewrite_of_not_selects selected] at state ⊢
      refine ⟨oldMem, ?_⟩
      simpa [completeRow, state] using selected

/-- Everything prepared is in flight after an event exactly when the event settles. -/
theorem attended_apply (event : ServiceEvent Domain) {service : InService Domain}
    (consistent : InService.Consistent service) (attended : Attended service) :
    Attended (event.apply service) ↔ Settles service event := by
  -- A token that leaves the flight while its row stays is a row that nobody attends to.
  have dropped : ∀ {prepared : PreparedOperation} {inFlight : List PreparedOperation},
      prepared ∈ service.inFlight → prepared ∉ inFlight →
      ¬Attended ⟨service.store, inFlight⟩ := by
    intro prepared inFlight held gone still
    rcases still prepared.row (consistent.stored prepared held) rfl with ⟨other, otherMem, same⟩
    rw [PreparedOperation.row_inj same] at otherMem
    exact gone otherMem
  cases event with
  | prepare mode disposition request now =>
      have kept : ∀ row ∈ (pruneExpired now.get service.store.journal).rows, row.state = .prepared →
          ∃ prepared ∈ service.inFlight, prepared.row = row :=
        fun row rowMem => attended row (mem_of_mem_pruneExpired rowMem)
      rcases prepareAdminOperation_outcome mode disposition request now service.store with
        ⟨refused, settled, journal⟩ | ⟨binding, absent, rows, ⟨admitted, settled⟩ | ⟨refused, lost⟩⟩
      · rw [apply_prepare_of_refused refused]
        refine iff_of_true ?_ settled
        rcases journal with same | pruned
        · simpa only [Attended, same] using attended
        · simpa only [Attended, pruned] using kept
      · rw [apply_prepare_of_prepared admitted]
        refine iff_of_true (fun row rowMem state => ?_) settled
        rw [rows] at rowMem
        rcases List.mem_append.mp rowMem with old | new
        · rcases kept row old state with ⟨prepared, preparedMem, same⟩
          exact ⟨prepared, List.mem_cons_of_mem _ preparedMem, same⟩
        · exact ⟨_, List.mem_cons_self, (List.mem_singleton.mp new).symm⟩
      · rw [apply_prepare_of_refused refused]
        refine iff_of_false (fun still => ?_) (not_not.mpr lost)
        have written : (binding.token now).row ∈
            (prepareAdminOperation mode disposition request now service.store).2.journal.rows := by
          rw [rows]
          simp
        rcases still _ written rfl with ⟨prepared, preparedMem, same⟩
        have stored := consistent.stored prepared preparedMem
        exact absent _ ((mem_pruneExpired_of_prepared rfl).mpr stored)
          (congrArg OperationRow.operationId same)
  | finish prepared mode disposition response completed =>
      simp only [ServiceEvent.apply, Settles]
      by_cases held : prepared ∈ service.inFlight
      · rw [if_pos held]
        simp only [held, true_implies]
        rcases completeAdminOperation_outcome mode disposition response completed consistent.bounded
          (consistent.stored prepared held) with ⟨completable, expires, rows⟩ | ⟨refused, same⟩
        · refine iff_of_true (fun row rowMem state => ?_) completable
          rw [rows] at rowMem
          rcases prepared_of_completeRow rowMem state with ⟨old, differs⟩
          rcases attended row old state with ⟨other, otherMem, rfl⟩
          exact ⟨other, (List.mem_erase_of_ne fun equal => differs (by rw [equal]; rfl)).mpr
            otherMem, rfl⟩
        · rw [same]
          exact iff_of_false
            (dropped held fun erased => (consistent.nodup.mem_erase_iff.mp erased).1 rfl)
            refused
      · rw [if_neg held]
        exact iff_of_true attended fun absent => absurd absent held
  | fail prepared =>
      simp only [ServiceEvent.apply, Settles]
      by_cases held : prepared ∈ service.inFlight
      · exact iff_of_false
          (dropped held fun erased => (consistent.nodup.mem_erase_iff.mp erased).1 rfl)
          (not_not.mpr held)
      · rw [List.erase_of_not_mem held]
        exact iff_of_true attended held
  | crash =>
      simp only [ServiceEvent.apply, Settles]
      cases inFlight : service.inFlight with
      | nil =>
          refine iff_of_true (fun row rowMem state => ?_) rfl
          simpa only [inFlight] using attended row rowMem state
      | cons prepared rest =>
          have held : prepared ∈ service.inFlight := by simp [inFlight]
          exact iff_of_false (dropped held (by simp)) (by simp)
  | execute mode disposition request completed operation =>
      refine iff_of_true (fun row rowMem state => ?_) trivial
      simp only [ServiceEvent.apply] at rowMem ⊢
      rcases executeDatabaseAdminOperation_outcome mode disposition request completed operation
        service.store with ⟨receipts, finished, rows | rows⟩
      · rw [rows] at rowMem
        rcases List.mem_append.mp rowMem with old | new
        · exact attended row old state
        · rw [finished row new] at state
          cases state
      · rw [rows] at rowMem
        rcases List.mem_append.mp rowMem with old | new
        · exact attended row (mem_of_mem_pruneExpired old) state
        · rw [finished row new] at state
          cases state
  | other change => exact iff_of_true attended trivial

omit [Sha256] [ResponseModels] in
/-- Distinct prepared rows of a journal are no more than it counts. -/
theorem length_le_countP {rows : List OperationRow} {journal : Table adminOperations}
    (nodup : rows.Nodup) (stored : ∀ row ∈ rows, row ∈ journal.rows ∧ row.state = .prepared) :
    rows.length ≤ journal.rows.countP fun row => row.state == .prepared := by
  rw [List.countP_eq_length_filter]
  refine (List.subperm_of_subset nodup fun row rowMem => ?_).length_le
  exact List.mem_filter.mpr ⟨(stored row rowMem).1, by simp [(stored row rowMem).2]⟩

omit [Sha256] [ResponseModels] in
/-- Attended prepared rows are no more than what is in flight. -/
theorem countP_le_length {service : InService Domain} (attended : Attended service) :
    (service.store.journal.rows.countP fun row => row.state == .prepared) ≤
      service.inFlight.length := by
  have distinct : (service.store.journal.rows.filter fun row => row.state == .prepared).Nodup :=
    (adminOperations_nodup service.store.journal).filter _
  have among : service.store.journal.rows.filter (fun row => row.state == .prepared) ⊆
      service.inFlight.map PreparedOperation.row := by
    intro row rowMem
    rcases List.mem_filter.mp rowMem with ⟨stored, state⟩
    rcases attended row stored (by simpa using state) with ⟨prepared, preparedMem, rfl⟩
    exact List.mem_map_of_mem preparedMem
  have counted := (List.subperm_of_subset distinct among).length_le
  rwa [List.length_map, ← List.countP_eq_length_filter] at counted

/-- What is attended is not wedged. -/
theorem unwedged_of_attended {service : InService Domain}
    (consistent : InService.Consistent service)
    (attended : Attended service) : Unwedged service := by
  intro binding now mutation apart expired room space
  have unexpired : ∀ row ∈ (pruneExpired now.get service.store.journal).rows,
      row.expired now.get = false := by
    intro row rowMem
    refine unexpired_of_mem_pruneExpired ?_ rowMem
    exact consistent.bounded.rows
  refine prepareOperation_of_absent mutation ?_ ⟨?_, ?_⟩
  · intro row rowMem same
    have stored := mem_of_mem_pruneExpired rowMem
    cases state : row.state with
    | prepared =>
        rcases attended row stored state with ⟨prepared, preparedMem, rfl⟩
        exact apart prepared preparedMem same
    | completed =>
        have gone := expired row stored state same
        rw [unexpired row rowMem] at gone
        cases gone
  · have total := countP_add_countP (pruneExpired now.get service.store.journal).rows
    have prepared := (countP_pruneExpired_le now.get service.store.journal
      fun row => row.state == .prepared).trans (countP_le_length attended)
    have receipts : ((pruneExpired now.get service.store.journal).rows.countP
        fun row => row.state == .completed) ≤ service.store.journal.rows.countP
          fun row => row.state == .completed && !row.expired now.get := by
      refine le_trans (List.countP_mono_left fun row rowMem completed => ?_)
        (countP_pruneExpired_le now.get service.store.journal _)
      simp [completed, unexpired row rowMem]
    omega
  · exact ((countP_pruneExpired_le _ _ _).trans (countP_le_length attended)).trans_lt room

/-- An unattended row wedges its identity. -/
theorem attended_of_unwedged {service : InService Domain}
    (consistent : InService.Consistent service)
    (unwedged : Unwedged service) : Attended service := by
  intro row rowMem state
  by_contra unattended
  have others : ∀ prepared ∈ service.inFlight, prepared.operationId ≠ row.operationId :=
    fun prepared preparedMem same => unattended ⟨prepared, preparedMem,
      eq_of_operationId (consistent.stored prepared preparedMem) rowMem same⟩
  have fresh : row ∉ service.inFlight.map PreparedOperation.row := by
    intro mapped
    rcases List.mem_map.mp mapped with ⟨prepared, preparedMem, same⟩
    exact unattended ⟨prepared, preparedMem, same⟩
  have distinct : (row :: service.inFlight.map PreparedOperation.row).Nodup :=
    List.nodup_cons.mpr ⟨fresh, consistent.nodup.map fun _ _ => PreparedOperation.row_inj⟩
  have counted : service.inFlight.length + 1 ≤
      service.store.journal.rows.countP fun row => row.state == .prepared := by
    have all := @length_le_countP _ service.store.journal distinct fun other otherMem => by
      rcases List.mem_cons.mp otherMem with rfl | mapped
      · exact ⟨rowMem, state⟩
      · rcases List.mem_map.mp mapped with ⟨prepared, preparedMem, rfl⟩
        exact ⟨consistent.stored prepared preparedMem, rfl⟩
    simpa using all
  let now : UnixMilliseconds := ⟨0, Nat.zero_le _⟩
  have receipts : (service.store.journal.rows.countP fun row =>
      row.state == .completed && !row.expired now.get) ≤
        service.store.journal.rows.countP fun row => row.state == .completed :=
    List.countP_mono_left fun other _ both => (Bool.and_eq_true_iff.mp both).1
  have total := countP_add_countP service.store.journal.rows
  have rows := consistent.bounded.rows
  have room := consistent.bounded.prepared
  rcases unwedged ⟨row.operationId, row.route, row.requestSha256⟩ now
    (consistent.bounded.mutations row rowMem) others (fun other otherMem completed same => by
      rw [eq_of_operationId otherMem rowMem same, state] at completed
      cases completed) (by omega) (by omega) with ⟨journal, admitted⟩
  rcases prepareOperation_spec admitted with ⟨-, _, other, -⟩ | ⟨-, -, absent, -⟩
  · cases other
  · exact absent row ((mem_pruneExpired_of_prepared state).mpr rowMem) rfl

end Tracking

section Handlers

variable [Sha256] [ResponseModels] {Domain : Type}

theorem not_lost_of_ok {mode : HostMode} {disposition : Disposition} {request : RequestDocument}
    {now : UnixMilliseconds} {store next : Journaled Domain} {admission : Admission}
    (done : prepareAdminOperation mode disposition request now store = (.ok admission, next)) :
    ¬Lost mode disposition request now store := by
  rintro ⟨rfl, -⟩
  unfold prepareAdminOperation at done
  split at done
  · cases done
  · split at done
    · cases done
    · cases acknowledged_of_transaction_ok done

theorem completable_of_ok {mode : HostMode} {disposition : Disposition}
    {prepared : PreparedOperation} {response : ResponseDocument} {completed : UnixMilliseconds}
    {store next : Journaled Domain} {completion : Completion}
    (done : completeAdminOperation mode disposition prepared response completed store =
      (.ok completion, next)) :
    Completable prepared mode disposition response completed := by
  unfold completeAdminOperation at done
  split at done
  · cases done
  · rename_i writable
    split at done
    · cases done
    · rename_i admissible
      simp only [not_or, not_not, Nat.not_lt] at admissible
      split at done
      · cases done
      · rename_i expires instant
        exact {
          writable := not_not.mp writable
          committed := .inl (acknowledged_of_transaction_ok done)
          route := admissible.1
          fits := admissible.2.2.1
          forward := admissible.2.2.2
          dated := by simp [instant] }

variable {handler : AdminHandler} {answers : Answers} {request : RequestDocument}
  {service : InService Database}

/-- The events of one handler, from its first transaction to its answer. -/
structure Handles (service : InService Database)
    (result : Except AdminHandlerErrorKind ResponseDocument × Journaled Database)
    (events : List (ServiceEvent Database)) : Prop where
  leads : serviceExec events service = ⟨result.2, service.inFlight⟩
  settles : ∀ response, result.1 = .ok response →
    Transition.Along ServiceEvent.apply Settles events service

theorem finishPrepared_events [AdminJson] (prepared : PreparedOperation)
    (receipt : UnixMilliseconds → ResponseModel) {inFlight : List PreparedOperation}
    (store : Journaled Database) :
    ∃ event, (event : ServiceEvent Database).apply ⟨store, prepared :: inFlight⟩ =
        ⟨(finishPrepared handler answers request prepared receipt store).2, inFlight⟩ ∧
      ∀ response, (finishPrepared handler answers request prepared receipt store).1 = .ok response →
        Settles ⟨store, prepared :: inFlight⟩ event := by
  unfold finishPrepared
  split
  · exact ⟨.fail prepared, by simp [ServiceEvent.apply], fun _ answered => by cases answered⟩
  · rename_i completed clock
    split
    · exact ⟨.fail prepared, by simp [ServiceEvent.apply], fun _ answered => by cases answered⟩
    · rename_i document responded
      refine ⟨.finish prepared handler.mode answers.completion document completed, ?_, ?_⟩
      · simp only [ServiceEvent.apply, List.mem_cons_self, if_true, List.erase_cons_head]
        split
        · rename_i failed
          rw [failed]
        · rename_i done
          rw [done]
      · intro response answered
        split at answered
        · cases answered
        · rename_i done
          exact fun _ => completable_of_ok done

theorem mutate_events [AdminJson] (effect : UnixMilliseconds → Database → EffectResult request) :
    ∃ events, Handles service (mutate handler answers request effect service.store) events := by
  unfold mutate
  split
  · exact ⟨[], rfl, fun _ answered => by cases answered⟩
  · rename_i now clock
    split
    · rename_i kind next failed
      refine ⟨[.prepare handler.mode answers.admission request now], ?_, fun _ answered => ?_⟩
      · have refused := @apply_prepare_of_refused _ _ _ handler.mode answers.admission request now
          service (by simp [failed])
        simpa [serviceExec, failed] using refused
      · cases answered
    · rename_i document next replayed
      refine ⟨[.prepare handler.mode answers.admission request now], ?_, fun _ answered => ?_⟩
      · have refused := @apply_prepare_of_refused _ _ _ handler.mode answers.admission request now
          service (by simp [replayed])
        simpa [serviceExec, replayed] using refused
      · exact ⟨not_lost_of_ok replayed, trivial⟩
    · rename_i prepared next admitted
      have flying := @apply_prepare_of_prepared _ _ _ handler.mode answers.admission request now
        service prepared (by simp [admitted])
      rw [admitted] at flying
      split
      · rename_i kind domain affected
        refine ⟨[.prepare handler.mode answers.admission request now, .other fun _ => domain,
          .fail prepared], ?_, fun _ answered => ?_⟩
        · simp only [serviceExec, Transition.exec_cons, Transition.exec_nil]
          rw [flying]
          simp [ServiceEvent.apply]
        · cases answered
      · rename_i receipt domain affected
        rcases @finishPrepared_events _ _ handler answers request _ prepared receipt
          service.inFlight
          { next with domain } with ⟨event, leads, settles⟩
        refine ⟨[.prepare handler.mode answers.admission request now, .other fun _ => domain,
          event], ?_, fun response answered => ?_⟩
        · simp only [serviceExec, Transition.exec_cons, Transition.exec_nil]
          rw [flying]
          exact leads
        · refine ⟨not_lost_of_ok admitted, trivial, ?_, trivial⟩
          rw [flying]
          exact settles response answered

theorem mutateDatabase_events
    (operation : UnixMilliseconds → Database → Except JournalError (ResponseDocument × Database)) :
    ∃ events, serviceExec events service =
        ⟨(mutateDatabase handler answers request operation service.store).2, service.inFlight⟩ ∧
      Transition.Along ServiceEvent.apply Settles events service := by
  unfold mutateDatabase
  split
  · exact ⟨[], rfl, trivial⟩
  · rename_i now clock
    refine ⟨[.execute handler.mode answers.admission request now (operation now)], ?_, trivial,
      trivial⟩
    simp only [serviceExec, Transition.exec_cons, Transition.exec_nil, ServiceEvent.apply]
    split
    · rename_i failed
      rw [failed]
    · rename_i done
      rw [done]

variable [AdminJson] [PresenceEvents]

/-- Handling a mutation is a run of the service, and it settles when it answers; a mutation of the
database alone always settles. -/
theorem handleMutation_events (handler : AdminHandler) (answers : Answers)
    (request : RequestDocument) (service : InService Database) :
    ∃ events, serviceExec events service =
        ⟨(handleMutation handler answers request service.store).2, service.inFlight⟩ ∧
      ((∃ response, (handleMutation handler answers request service.store).1 = .ok response) ∨
          request.route = .publicationRetry ∨ request.route = .presenceRefresh →
        Transition.Along ServiceEvent.apply Settles events service) := by
  rcases handleMutation_cases handler answers request service.store with
    ⟨kind, domain, same⟩ | ⟨domain, effect, routes, same⟩ | ⟨operation, same⟩
  · exact ⟨[.other fun _ => domain], by rw [same]; rfl, fun _ => ⟨trivial, trivial⟩⟩
  · rcases @mutate_events _ _ handler answers request
      ⟨{ service.store with domain }, service.inFlight⟩
      _ effect with ⟨events, handles⟩
    rw [same]
    refine ⟨.other (fun _ => domain) :: events, handles.leads, ?_⟩
    rintro (⟨response, answered⟩ | database)
    · exact ⟨trivial, handles.settles response answered⟩
    · rcases routes with route | route | route <;> simp [route] at database
  · rcases @mutateDatabase_events _ _ handler answers request service operation with
      ⟨events, leads, settles⟩
    rw [same]
    exact ⟨events, leads, fun _ => settles⟩

end Handlers

section Exactness

variable [Sha256] [ResponseModels] [AdminJson] [PresenceEvents]

/-- The journal stays clear of failed mutations exactly while none fails between its two
transactions. -/
structure WedgedByFailures : Prop where
  handled : ∀ (handler : AdminHandler) (answers : Answers) (request : RequestDocument)
    (service : InService Database), ∃ events,
    serviceExec events service =
        ⟨(handleMutation handler answers request service.store).2, service.inFlight⟩ ∧
      ((∃ response, (handleMutation handler answers request service.store).1 = .ok response) ∨
          request.route = .publicationRetry ∨ request.route = .presenceRefresh →
        Transition.Along ServiceEvent.apply Settles events service)
  wedged : ∀ (domain : Database) (events : List (ServiceEvent Database)),
    (∀ before, before <+: events → Unwedged (serviceExec before (.initial domain))) ↔
      Transition.Along ServiceEvent.apply Settles events (.initial domain)

/-- The journal is unwedged along a run exactly when every mutation of it settles. -/
theorem unwedged_iff_settles : WedgedByFailures where
  handled := handleMutation_events
  wedged domain events := by
    have consistent : InService.Consistent (InService.initial domain) :=
      ⟨bounded_exec domain [], fun prepared preparedMem => (by cases preparedMem), List.nodup_nil⟩
    have attended : Attended (InService.initial domain) := fun row rowMem => by cases rowMem
    rw [← Transition.along_iff (fun event service => consistent_apply event)
      (fun event service => attended_apply event) events consistent attended]
    refine forall₂_congr fun before _ => ?_
    have reached : InService.Consistent (serviceExec before (.initial domain)) :=
      Transition.exec_invariant InService.Consistent (fun event service => consistent_apply event)
      before
        consistent
    exact ⟨attended_of_unwedged reached, unwedged_of_attended reached⟩

end Exactness

section Exceptions

namespace Sample.Failures

local instance : Sha256 := ⟨Hashing.sha256⟩

local instance : ResponseModels := ⟨fun route _ => route == .reconciliationRefresh⟩

local instance : TradeEvidence where
  Mutation := Unit
  mutationId _ := none
  tradeId _ := trade
  acceptsSourceId _ := true
  acceptsSourceResult _ _ _ := true
  manifest _ := none
  decode _ := none
  reduce _ _ _ _ := ⟨none, none, .missing, 0, [], [], [], [], false⟩

local instance : PresenceEvents where
  validPublicKey _ := true
  plan _ _ _ := none
  sign _ _ _ := none
  verify _ := none

def waiting : TradeId := 0x12#128

def model : List UInt8 :=
  textBytes ("\x7b\"expected_dirty_generation\":1,\"trade_id\":\"" ++
    Replays.hex 32 waiting.toNat ++ "\"\x7d")

local instance : AdminJson where
  stateBackup _ := none
  reconciliationRefresh bytes := if bytes = model then some (waiting, 1) else none
  publicationRetry _ := none
  presenceRender _ := none
  presenceRefresh _ := none
  response
    | .reconciliationRefresh generation job operation trade =>
        textBytes ("\x7b\"dirty_generation\":" ++ toString generation ++ ",\"job_id\":\"" ++
          Replays.hex 64 job.toNat ++ "\",\"operation_id\":\"" ++ operation ++
          "\",\"trade_id\":\"" ++ Replays.hex 32 trade.toNat ++ "\"\x7d")
    | _ => []

def request (operation : String) : RequestDocument :=
  ⟨.reconciliationRefresh, some operation, model⟩

/-- A service whose queue has room for one job. -/
def narrow : AdminHandler :=
  { Replays.handler with jobPolicy := { jobPolicy with queueCapacity := 1, valid := by decide } }

def other : AdmittedEvent :=
  { event 0x7b#256 0x8b#256 1000000 first_bounds with
    event := { (event 0x7b#256 0x8b#256 1000000 first_bounds).event with tradeId := waiting } }

/-- The job of one trade is active, and another trade is dirty. -/
def busy : Journaled Database :=
  .initial ⟨(Service.exec (calls.take 3 ++ [
    .operation (.commitSourceResult .acknowledged source waiting other.observedAt ⟨none, none⟩
      (subscribedResult other))]) .initial).store, .empty, .empty, .empty, .empty, []⟩

def refused : Journaled Database :=
  (handleMutation narrow Replays.answers (request "refresh-2") busy).2

def again : Answers := { Replays.again with completed := some finalizedAt }

/-- A refresh that the full queue refuses writes nothing but its preparation; sent again once there
is room, it is refused by the journal, where another identity is admitted. -/
theorem refresh_wedged_by_full_queue :
    (handleMutation narrow Replays.answers (request "refresh-2") busy).1 = .error .unavailable ∧
    refused.domain.store = busy.domain.store ∧
    (prepareAdminOperation .readWriteExisting .acknowledged (request "refresh-2") Replays.resentAt
      refused).1.map (fun _ => ()) = .error .operationOutcomeUnknown ∧
    (handleMutation Replays.handler again (request "refresh-2") refused).1 = .error .unavailable ∧
    (handleMutation Replays.handler again (request "refresh-3") refused).1.map (·.route) =
      .ok .reconciliationRefresh := by
  decide +kernel

end Sample.Failures

end Exceptions

end Rhi
