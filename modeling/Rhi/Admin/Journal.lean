import Mathlib.Data.List.Sort
import Rhi.Admin
import Rhi.Lib.Table
import Rhi.Lib.Transaction

/-!
# The journal of the admin mutations

Every mutation passes the journal under the operation identity its caller chose.  A mutation of the
database alone commits its effect and its receipt in one transaction; any other one is prepared in a
transaction of its own before its effect and completed in another one after it.
-/

namespace Rhi

open Relational Transactional

/-- `RHI_ADMIN_OPERATION_ID_MAX_BYTES`. -/
def operationIdMaxBytes : Nat := 128

/-- `RHI_ADMIN_OPERATION_RESPONSE_MODEL_MAX_BYTES`. -/
def responseModelMaxBytes : Nat := 8192

/-- `RHI_ADMIN_OPERATION_COMPLETED_LIMIT`. -/
def completedLimit : Nat := 4096

/-- `RHI_ADMIN_OPERATION_PREPARED_LIMIT`. -/
def preparedLimit : Nat := 128

/-- `RHI_ADMIN_OPERATION_DEFAULT_RETENTION_MS`, the retention of the only policy there is. -/
def completedRetention : Nat := 604800000

/-- `PRUNE_LIMIT`. -/
def pruneLimit : Nat := 4096

/-- The characters and the length of an operation identity. -/
def validOperationText (text : String) : Bool :=
  match text.toList with
  | [] => false
  | first :: rest =>
      decide (rest.length < operationIdMaxBytes) && first.isAlphanum &&
        rest.all fun character => character.isAlphanum || character == '.' || character == '_' ||
          character == ':' || character == '-'

/-- `AdminOperationIdBinding`. -/
structure OperationId where
  text : String
  valid : validOperationText text = true
deriving DecidableEq, Repr

/-- `AdminOperationIdBinding::new`. -/
def OperationId.new (text : String) : Option OperationId :=
  if valid : validOperationText text = true then some ⟨text, valid⟩ else none

section Tables

inductive OperationState where
  | prepared
  | completed
deriving DecidableEq, Repr

/-- A row of `rhi_admin_operations`. -/
structure OperationRow where
  operationId : OperationId
  route : AdminRoute
  requestSha256 : Digest
  state : OperationState
  responseModel : Option (List UInt8)
  responseSha256 : Option Digest
  preparedAt : Nat
  completedAt : Option Nat
  expiresAt : Option Nat
deriving DecidableEq, Repr

/-- The columns that a completed row has and a prepared one lacks. -/
def OperationRow.shaped (row : OperationRow) : Bool :=
  match row.state, row.responseModel, row.responseSha256, row.completedAt, row.expiresAt with
  | .prepared, none, none, none, none => true
  | .completed, some response, some _, some completed, some expires =>
      decide (1 ≤ response.length ∧ response.length ≤ 8192 ∧ row.preparedAt ≤ completed ∧
        completed ≤ maxInteger ∧ completed ≤ expires ∧ expires ≤ maxInteger)
  | _, _, _, _, _ => false

/-- `rhi_admin_operations`, with its guard. -/
def adminOperations : Schema OperationRow where
  check row := decide (row.preparedAt ≤ maxInteger) && row.shaped
  guardInsert _ _ := true
  guardUpdate old new := old.state == .prepared && new.state == .completed &&
    new.operationId == old.operationId && new.route == old.route &&
    new.requestSha256 == old.requestSha256 && new.preparedAt == old.preparedAt &&
    new.responseModel.isSome && new.responseSha256.isSome && new.completedAt.isSome &&
    new.expiresAt.isSome
  clash left right := left.operationId == right.operationId

/-- The journal next to the rest of the database. -/
structure Journaled (Domain : Type) where
  journal : Table adminOperations
  domain : Domain

end Tables

section Errors

/-- `AdminJournalOperationError`. -/
inductive JournalError where
  | invalidInput
  | conflict
  | outcomeUnknown
  | resourceExhausted
  | binding
  | storage
deriving DecidableEq, Repr

/-- `RhiAdminOperationErrorKind`. -/
inductive JournalErrorKind where
  | invalidMode
  | invalidInput
  | operationConflict
  | operationOutcomeUnknown
  | resourceExhausted
  | binding
  | transaction
  | commitOutcomeUnknown
deriving DecidableEq, Repr

/-- `map_transaction_error`. -/
def mapJournalError : Failure JournalError → JournalErrorKind
  | .outcomeUnknown => .commitOutcomeUnknown
  | .operation .invalidInput => .invalidInput
  | .operation .conflict => .operationConflict
  | .operation .outcomeUnknown => .operationOutcomeUnknown
  | .operation .resourceExhausted => .resourceExhausted
  | .operation .binding => .binding
  | .operation .storage | .aborted => .transaction

end Errors

section Requests

variable [Sha256]

/-- The bytes a request is identified by: its route and its model, each with its length. -/
def requestBytes (request : RequestDocument) : List UInt8 :=
  let route := request.route.operationId.toList.map fun character => UInt8.ofNat character.toNat
  domainBytes "radroots.rhi.admin_operation_request.v1" ++ toBeBytes 8 route.length ++ route ++
    [0] ++ toBeBytes 8 request.modelBytes.length ++ request.modelBytes

/-- `request_digest`. -/
def requestDigest (request : RequestDocument) : Digest :=
  Sha256.digest (requestBytes request)

omit [Sha256] in
/-- `AdminRequestBinding`. -/
structure RequestBinding where
  operationId : OperationId
  route : AdminRoute
  requestSha256 : Digest
deriving DecidableEq, Repr

/-- `AdminRequestBinding::from_document`. -/
def RequestBinding.fromDocument (request : RequestDocument) :
    Except JournalErrorKind RequestBinding :=
  if request.route.isMutation then
    match request.operationId.bind OperationId.new with
    | none => .error .invalidInput
    | some operationId =>
        .ok { operationId, route := request.route, requestSha256 := requestDigest request }
  else
    .error .invalidInput

end Requests

section Reading

/-- `StoredOperation`. -/
inductive StoredOperation where
  | prepared (route : AdminRoute) (requestSha256 : Digest) (preparedAt : Nat)
  | completed (route : AdminRoute) (requestSha256 : Digest) (response : List UInt8)
      (responseSha256 : Digest) (preparedAt completedAt expiresAt : Nat)
deriving DecidableEq, Repr

/-- `decode_operation`; a route that is no mutation is not parsed. -/
def decodeOperation (row : OperationRow) : Except JournalError StoredOperation :=
  if row.route.isMutation then
    match row.state, row.responseModel, row.responseSha256, row.completedAt, row.expiresAt with
    | .prepared, none, none, none, none =>
        .ok (.prepared row.route row.requestSha256 row.preparedAt)
    | .completed, some response, some responseSha256, some completed, some expires =>
        .ok (.completed row.route row.requestSha256 response responseSha256 row.preparedAt completed
          expires)
    | _, _, _, _, _ => .error .binding
  else
    .error .binding

/-- `read_operation`, by the primary key. -/
def readOperation (id : OperationId) (journal : Table adminOperations) :
    Except JournalError (Option StoredOperation) :=
  match journal.rows.find? fun row => row.operationId == id with
  | none => .ok none
  | some row => (decodeOperation row).map some

/-- `read_counts`: the completed and the prepared rows. -/
def readCounts (journal : Table adminOperations) : Nat × Nat :=
  (journal.rows.countP fun row => row.state == .completed,
    journal.rows.countP fun row => row.state == .prepared)

def OperationRow.expired (now : Nat) (row : OperationRow) : Bool :=
  row.state == .completed && row.expiresAt.any fun expires => decide (expires ≤ now)

/-- The order in which expired rows are pruned. -/
def OperationRow.before (left right : OperationRow) : Prop :=
  left.expiresAt.getD 0 < right.expiresAt.getD 0 ∨
    (left.expiresAt.getD 0 = right.expiresAt.getD 0 ∧
      left.operationId.text ≤ right.operationId.text)

instance : DecidableRel OperationRow.before := fun _ _ =>
  inferInstanceAs (Decidable (_ ∨ (_ ∧ _)))

/-- `prune_expired`. -/
def pruneExpired (now : Nat) (journal : Table adminOperations) : Table adminOperations :=
  let expired := ((journal.rows.filter (·.expired now)).insertionSort OperationRow.before).take
    pruneLimit
  journal.delete fun row => expired.any fun other => other.operationId == row.operationId

end Reading

section Operations

variable [Sha256] [ResponseModels]

omit [Sha256] [ResponseModels] in
/-- `RhiPreparedAdminOperation`. -/
structure PreparedOperation where
  operationId : OperationId
  route : AdminRoute
  requestSha256 : Digest
  preparedAt : UnixMilliseconds
deriving DecidableEq, Repr

omit [Sha256] in
/-- `RhiAdminOperationAdmission`. -/
inductive Admission where
  | prepared (operation : PreparedOperation)
  | exactReplay (response : ResponseDocument)

omit [Sha256] [ResponseModels] in
/-- `RhiAdminOperationCompletion`. -/
inductive Completion where
  | completed
  | exactReplay
deriving DecidableEq, Repr

/-- The admission of a request whose identity is journaled. -/
def admitStored (binding : RequestBinding) (stored : StoredOperation) :
    Except JournalError Admission :=
  match stored with
  | .prepared route requestSha256 _ =>
      if route = binding.route ∧ requestSha256 = binding.requestSha256 then
        .error .outcomeUnknown
      else
        .error .conflict
  | .completed route requestSha256 response responseSha256 _ _ _ =>
      if route = binding.route ∧ requestSha256 = binding.requestSha256 then
        if Sha256.digest response = responseSha256 then
          match ResponseDocument.fromCanonicalBytes route response with
          | some document => .ok (.exactReplay document)
          | none => .error .binding
        else
          .error .binding
      else
        .error .conflict

omit [Sha256] [ResponseModels] in
/-- The row that `INSERT_PREPARED_SQL` writes. -/
def RequestBinding.row (binding : RequestBinding) (now : Nat) : OperationRow where
  operationId := binding.operationId
  route := binding.route
  requestSha256 := binding.requestSha256
  state := .prepared
  responseModel := none
  responseSha256 := none
  preparedAt := now
  completedAt := none
  expiresAt := none

/-- `prepare_operation`. -/
def prepareOperation (binding : RequestBinding) (now : UnixMilliseconds)
    (journal : Table adminOperations) :
    Except JournalError (Admission × Table adminOperations) := do
  let journal := pruneExpired now.get journal
  match ← readOperation binding.operationId journal with
  | some stored => pure (← admitStored binding stored, journal)
  | none => do
      let (completed, prepared) := readCounts journal
      require (decide (completed + prepared < completedLimit ∧ prepared < preparedLimit))
        .resourceExhausted
      let journal ← orError (journal.insert (binding.row now.get)) .storage
      require ((← readOperation binding.operationId journal) ==
        some (.prepared binding.route binding.requestSha256 now.get)) .binding
      pure (.prepared {
        operationId := binding.operationId, route := binding.route
        requestSha256 := binding.requestSha256, preparedAt := now }, journal)

omit [ResponseModels] in
/-- `COMPLETE_OPERATION_SQL`. -/
def completeRow (id : OperationId) (response : List UInt8) (completed expires : Nat) :
    Change OperationRow where
  selects row := row.operationId == id && row.state == .prepared
  write row := { row with
    state := .completed, responseModel := some response
    responseSha256 := some (Sha256.digest response), completedAt := some completed
    expiresAt := some expires }

omit [ResponseModels] in
/-- `complete_operation`. -/
def completeOperation (prepared : PreparedOperation) (response : List UInt8)
    (completed : UnixMilliseconds) (expires : Nat) (journal : Table adminOperations) :
    Except JournalError (Completion × Table adminOperations) := do
  match ← readOperation prepared.operationId journal with
  | none => .error .binding
  | some (.completed route requestSha256 stored storedSha256 _ _ _) =>
      if route = prepared.route ∧ requestSha256 = prepared.requestSha256 ∧ stored = response ∧
          storedSha256 = Sha256.digest response then
        pure (.exactReplay, journal)
      else
        .error .conflict
  | some (.prepared route requestSha256 preparedAt) =>
      if route = prepared.route ∧ requestSha256 = prepared.requestSha256 ∧
          preparedAt = prepared.preparedAt.get then do
        require (decide ((readCounts journal).1 < completedLimit)) .resourceExhausted
        let (journal, affected) ← orError (journal.update
          (completeRow prepared.operationId response completed.get expires)) .storage
        require (affected == 1) .storage
        require ((← readOperation prepared.operationId journal) ==
          some (.completed prepared.route prepared.requestSha256 response (Sha256.digest response)
            prepared.preparedAt.get completed.get expires)) .binding
        pure (.completed, journal)
      else
        .error .conflict

variable {Domain : Type}

/-- `prepare_admin_operation`. -/
def prepareAdminOperation (mode : HostMode) (disposition : Disposition) (request : RequestDocument)
    (now : UnixMilliseconds) (store : Journaled Domain) :
    Except JournalErrorKind Admission × Journaled Domain :=
  if mode ≠ .readWriteExisting then
    (.error .invalidMode, store)
  else
    match RequestBinding.fromDocument request with
    | .error kind => (.error kind, store)
    | .ok binding =>
        transaction mapJournalError disposition (fun store => do
          let (admission, journal) ← prepareOperation binding now store.journal
          pure (admission, { store with journal })) store

/-- What an admission in a writable store is. -/
theorem prepareAdminOperation_of_binding {disposition : Disposition} {request : RequestDocument}
    {now : UnixMilliseconds} {store : Journaled Domain} {binding : RequestBinding}
    (made : RequestBinding.fromDocument request = .ok binding) :
    prepareAdminOperation .readWriteExisting disposition request now store =
      transaction mapJournalError disposition (fun store => do
        let (admission, journal) ← prepareOperation binding now store.journal
        pure (admission, { store with journal })) store := by
  simp [prepareAdminOperation, made]

/-- What an admission may leave behind. -/
theorem prepareAdminOperation_store (mode : HostMode) (disposition : Disposition)
    (request : RequestDocument) (now : UnixMilliseconds) (store : Journaled Domain) :
    (prepareAdminOperation mode disposition request now store).2 = store ∨
      ∃ binding admission journal, RequestBinding.fromDocument request = .ok binding ∧
        prepareOperation binding now store.journal = .ok (admission, journal) ∧
          (prepareAdminOperation mode disposition request now store).2 =
          { store with journal } := by
  by_cases writable : mode = .readWriteExisting
  · cases made : RequestBinding.fromDocument request with
    | error kind => exact .inl (by simp [prepareAdminOperation, made, writable])
    | ok binding =>
        rw [writable, prepareAdminOperation_of_binding made]
        refine (transaction_store mapJournalError disposition _ store).imp_right ?_
        rintro ⟨value, next, done, same⟩
        rcases bind_eq_ok.mp done with ⟨⟨admission, journal⟩, admitting, rest⟩
        cases rest
        exact ⟨binding, value, journal, rfl, admitting, same⟩
  · exact .inl (by simp [prepareAdminOperation, writable])

omit [Sha256] [ResponseModels] in
/-- When a receipt expires, if that is an instant. -/
def expiryOf (completed : UnixMilliseconds) : Option Nat :=
  if completed.get + completedRetention ≤ maxInteger then
    some (completed.get + completedRetention)
  else
    none

/-- `complete_admin_operation`. -/
def completeAdminOperation (mode : HostMode) (disposition : Disposition)
    (prepared : PreparedOperation) (response : ResponseDocument) (completed : UnixMilliseconds)
    (store : Journaled Domain) : Except JournalErrorKind Completion × Journaled Domain :=
  if mode ≠ .readWriteExisting then
    (.error .invalidMode, store)
  else if response.route ≠ prepared.route ∨ response.canonicalBytes = [] ∨
      responseModelMaxBytes < response.canonicalBytes.length ∨
      completed.get < prepared.preparedAt.get then
    (.error .invalidInput, store)
  else
    match expiryOf completed with
    | none => (.error .invalidInput, store)
    | some expires =>
        transaction mapJournalError disposition (fun store => do
          let (completion, journal) ← completeOperation prepared response.canonicalBytes completed
            expires store.journal
          pure (completion, { store with journal })) store

/-- What a completion may leave behind. -/
theorem completeAdminOperation_store (mode : HostMode) (disposition : Disposition)
    (prepared : PreparedOperation) (response : ResponseDocument) (completed : UnixMilliseconds)
    (store : Journaled Domain) :
    (completeAdminOperation mode disposition prepared response completed store).2 = store ∨
      ∃ expires completion journal, expiryOf completed = some expires ∧
        completeOperation prepared response.canonicalBytes completed expires store.journal =
          .ok (completion, journal) ∧
        (completeAdminOperation mode disposition prepared response completed store).2 =
          { store with journal } := by
  unfold completeAdminOperation
  split
  · exact .inl rfl
  · split
    · exact .inl rfl
    · split
      · exact .inl rfl
      · rename_i expires instant
        refine (transaction_store mapJournalError disposition _ store).imp_right ?_
        rintro ⟨value, next, done, same⟩
        rcases bind_eq_ok.mp done with ⟨⟨completion, journal⟩, completing, rest⟩
        cases rest
        exact ⟨expires, value, journal, instant, completing, same⟩

/-- The body of `execute_database_admin_operation`. -/
def executeOperation (binding : RequestBinding) (completed : UnixMilliseconds) (expires : Nat)
    (operation : Domain → Except JournalError (ResponseDocument × Domain))
    (store : Journaled Domain) : Except JournalError (ResponseDocument × Journaled Domain) := do
  let (admission, journal) ← prepareOperation binding completed store.journal
  match admission with
  | .exactReplay response => pure (response, { store with journal })
  | .prepared prepared => do
      let (response, domain) ← operation store.domain
      require (decide (response.route = binding.route ∧ response.canonicalBytes ≠ [] ∧
        response.canonicalBytes.length ≤ responseModelMaxBytes)) .invalidInput
      let (_, journal) ← completeOperation prepared response.canonicalBytes completed expires
        journal
      pure (response, { journal, domain })

/-- `execute_database_admin_operation`. -/
def executeDatabaseAdminOperation (mode : HostMode) (disposition : Disposition)
    (request : RequestDocument) (completed : UnixMilliseconds)
    (operation : Domain → Except JournalError (ResponseDocument × Domain))
    (store : Journaled Domain) : Except JournalErrorKind ResponseDocument × Journaled Domain :=
  if mode ≠ .readWriteExisting then
    (.error .invalidMode, store)
  else
    match RequestBinding.fromDocument request, expiryOf completed with
    | .error kind, _ => (.error kind, store)
    | .ok _, none => (.error .invalidInput, store)
    | .ok binding, some expires =>
        transaction mapJournalError disposition
          (executeOperation binding completed expires operation) store

end Operations

end Rhi
