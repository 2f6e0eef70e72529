import Rhi.Admin.Journal
import Rhi.Presence.Operations
import Rhi.Publication

/-!
# The mutation routes of the admin boundary

What the five mutations read and write, and where each of them consults the journal.  The JSON of
requests and responses is a parameter, and so is the capture of a backup.
-/

namespace Rhi

open Relational Transactional

/-- The database, with the backups that were captured of it. -/
structure Database where
  store : Store
  desired : Table presenceDesiredState
  outbox : Table presenceOutbox
  targets : Table presenceTargets
  attempts : Table presenceAttempts
  backups : List (String × Digest)

/-- The tables that presence reads and writes. -/
def Database.presence (database : Database) : PresenceStore where
  configBindings := database.store.configBindings
  desired := database.desired
  outbox := database.outbox
  targets := database.targets
  attempts := database.attempts

/-- The database after a call of presence, which writes no binding. -/
def Database.withPresence (database : Database) (presence : PresenceStore) : Database :=
  { database with
    desired := presence.desired, outbox := presence.outbox, targets := presence.targets
    attempts := presence.attempts }

/-- The response of a mutation, before it is JSON. -/
inductive ResponseModel where
  | stateBackup (completedAtSeconds : Nat) (manifestDigest : Digest) (operationId : String)
      (snapshotGeneration : Nat)
  | reconciliationRefresh (dirtyGeneration : Nat) (jobId : JobId) (operationId : String)
      (tradeId : TradeId)
  | publicationRetry (exactBytesDigest : Digest) (generation : Nat) (operationId : String)
      (targetCount : Nat) (workflowId : Digest)
  | presenceRender (documentDigests : List (DocumentKind × Digest)) (generation : Nat)
      (operationId : String)
  | presenceRefresh (documentDigests : List (DocumentKind × Digest)) (generation : Nat)
      (operationId : String) (targetCount : Nat)
deriving DecidableEq, Repr

/-- The JSON of the mutations: what is read of a request model, and the bytes of a response. -/
class AdminJson where
  stateBackup : List UInt8 → Option (Nat × String)
  reconciliationRefresh : List UInt8 → Option (TradeId × Nat)
  publicationRetry : List UInt8 → Option (Digest × Nat)
  presenceRender : List UInt8 → Option Nat
  presenceRefresh : List UInt8 → Option Nat
  response : ResponseModel → List UInt8

/-- `RuntimeAdminHandler`, with what the mutations read of it. -/
structure AdminHandler where
  mode : HostMode
  acceptingMutations : Bool
  jobPolicy : JobPolicy
  publicationTargets : Nat
  presence : DesiredAuthority
  identity : PublicKey

/-- What the clocks, the database and the other devices answer to one request. -/
structure Answers where
  check : Disposition
  now : Option UnixMilliseconds
  admission : Disposition
  effect : Disposition
  captured : Option Digest
  signedAt : Option Nat
  entropy : List (List UInt8)
  completed : Option UnixMilliseconds
  completion : Disposition

/-- `map_journal_error`. -/
def mapJournalErrorKind : JournalErrorKind → AdminHandlerErrorKind
  | .operationConflict => .operationIdConflict
  | .resourceExhausted | .operationOutcomeUnknown | .commitOutcomeUnknown => .unavailable
  | .invalidMode | .invalidInput | .binding | .transaction => .internal

/-- `current_generation`. -/
def currentGeneration (store : Store) : Except ConfigOperationError Nat := do
  let history ← readHistory store
  let last ← orError history.getLast? .binding
  pure last.generation

section Requests

variable [Sha256] [ResponseModels] [AdminJson]

/-- `response`. -/
def respond (route : AdminRoute) (model : ResponseModel) :
    Except AdminHandlerErrorKind ResponseDocument :=
  orError (ResponseDocument.fromCanonicalBytes route (AdminJson.response model)) .internal

/-- `required_operation_id`, of a request that the journal has admitted. -/
def RequestDocument.operationText (request : RequestDocument) : String :=
  request.operationId.getD ""

omit [ResponseModels] [AdminJson] in
/-- What an effect outside the journal answers: how the response follows from its completion. -/
abbrev EffectResult (_ : RequestDocument) :=
  Except AdminHandlerErrorKind (UnixMilliseconds → ResponseModel) × Database

variable (handler : AdminHandler) (answers : Answers) (request : RequestDocument)

/-- The completion of a prepared mutation. -/
def finishPrepared (prepared : PreparedOperation)
    (receipt : UnixMilliseconds → ResponseModel) (state : Journaled Database) :
    Except AdminHandlerErrorKind ResponseDocument × Journaled Database :=
  match answers.completed with
  | none => (.error .unavailable, state)
  | some completed =>
      match respond request.route (receipt completed) with
      | .error kind => (.error kind, state)
      | .ok document =>
          match completeAdminOperation handler.mode answers.completion prepared document completed
            state with
          | (.error kind, next) => (.error (mapJournalErrorKind kind), next)
          | (.ok _, next) => (.ok document, next)

/-- A mutation that is prepared before its effect and completed after it. -/
def mutate (effect : UnixMilliseconds → Database → EffectResult request)
    (state : Journaled Database) :
    Except AdminHandlerErrorKind ResponseDocument × Journaled Database :=
  match answers.now with
  | none => (.error .unavailable, state)
  | some now =>
      match prepareAdminOperation handler.mode answers.admission request now state with
      | (.error kind, next) => (.error (mapJournalErrorKind kind), next)
      | (.ok (.exactReplay document), next) => (.ok document, next)
      | (.ok (.prepared prepared), next) =>
          match effect now next.domain with
          | (.error kind, domain) => (.error kind, { next with domain })
          | (.ok receipt, domain) =>
              finishPrepared handler answers request prepared receipt { next with domain }

/-- A mutation of the database alone. -/
def mutateDatabase
    (operation : UnixMilliseconds → Database → Except JournalError (ResponseDocument × Database))
    (state : Journaled Database) :
    Except AdminHandlerErrorKind ResponseDocument × Journaled Database :=
  match answers.now with
  | none => (.error .unavailable, state)
  | some now =>
      match executeDatabaseAdminOperation handler.mode answers.admission request now (operation now)
        state with
      | (.error kind, next) => (.error (mapJournalErrorKind kind), next)
      | (.ok document, next) => (.ok document, next)

/-- `backup`: the expected generation is compared before the journal is consulted. -/
def backup (state : Journaled Database) :
    Except AdminHandlerErrorKind ResponseDocument × Journaled Database :=
  match AdminJson.stateBackup request.modelBytes with
  | none => (.error .internal, state)
  | some (expected, target) =>
      match currentGeneration state.domain.store with
      | .error _ => (.error .internal, state)
      | .ok generation =>
          if answers.check ≠ .acknowledged then
            (.error .internal, state)
          else if expected ≠ generation then
            (.error .conflict, state)
          else
            mutate handler answers request (fun _ database =>
              match answers.captured with
              | none => (.error .unavailable, database)
              | some manifest =>
                  (.ok fun completed => .stateBackup (completed.get / 1000) manifest
                    request.operationText generation,
                    { database with backups := database.backups ++ [(target, manifest)] })) state

/-- `reconciliation_refresh`: the dirty generation is compared before the journal is consulted. -/
def reconciliationRefresh (state : Journaled Database) :
    Except AdminHandlerErrorKind ResponseDocument × Journaled Database :=
  match AdminJson.reconciliationRefresh request.modelBytes with
  | none => (.error .internal, state)
  | some (trade, expected) =>
      match readDirty state.domain.store trade with
      | none => (.error .internal, state)
      | some dirty =>
          if answers.check ≠ .acknowledged then
            (.error .internal, state)
          else if dirty.generation ≠ expected then
            (.error .conflict, state)
          else
            mutate handler answers request (fun now database =>
              match scheduleTrade handler.mode answers.effect trade handler.jobPolicy now
                database.store with
              | (.error .dirtyGenerationConflict, store) =>
                  (.error .conflict, { database with store })
              | (.error .queueFull, store) => (.error .unavailable, { database with store })
              | (.error _, store) => (.error .internal, { database with store })
              | (.ok outcome, store) =>
                  (.ok fun _ => .reconciliationRefresh outcome.job.inputGeneration outcome.job.id
                    request.operationText outcome.job.tradeId, { database with store })) state

/-- The operation of `publication_retry`. -/
def retryOperation (workflow : Digest) (expected : Nat) (now : UnixMilliseconds)
    (database : Database) : Except JournalError (ResponseDocument × Database) :=
  match Publication.retry workflow expected handler.publicationTargets now database.store,
    database.store.outbox.rows.find? fun row => row.outboxId == workflow with
  | .error .storage, _ => .error .storage
  | .error .conflict, _ | .ok _, none => .error .conflict
  | .ok (_, store), some row =>
      match respond request.route (.publicationRetry row.eventDigest (expected + 1)
        request.operationText row.targetCount workflow) with
      | .error _ => .error .binding
      | .ok document => .ok (document, { database with store })

/-- `publication_retry`. -/
def publicationRetry (state : Journaled Database) :
    Except AdminHandlerErrorKind ResponseDocument × Journaled Database :=
  match AdminJson.publicationRetry request.modelBytes with
  | none => (.error .internal, state)
  | some (workflow, expected) =>
      mutateDatabase handler answers request (retryOperation handler request workflow expected)
        state

/-- The digests of the listed documents, by their kinds. -/
def documentDigests (rows : List PresenceRow) : List (DocumentKind × Digest) :=
  rows.map fun row => (row.kind, row.eventDigest)

/-- The operation of `presence_refresh`. -/
def refreshOperation (expected : Nat) (now : UnixMilliseconds) (database : Database) :
    Except JournalError (ResponseDocument × Database) :=
  match Presence.refresh expected now database.presence, database.desired.rows with
  | .error .binding, _ | .ok _, [] => .error .binding
  | .error .conflict, _ => .error .conflict
  | .error .storage, _ => .error .storage
  | .ok (_, presence), desired :: _ =>
      let listed := database.outbox.rows.filter fun row => row.generation == expected
      match respond request.route (.presenceRefresh (documentDigests listed) expected
        request.operationText desired.targetCount) with
      | .error _ => .error .binding
      | .ok document => .ok (document, database.withPresence presence)

/-- `presence_refresh`. -/
def presenceRefresh (state : Journaled Database) :
    Except AdminHandlerErrorKind ResponseDocument × Journaled Database :=
  match AdminJson.presenceRefresh request.modelBytes with
  | none => (.error .internal, state)
  | some expected => mutateDatabase handler answers request (refreshOperation request expected)
      state

variable [PresenceEvents]

/-- The effect of `presence_render`. -/
def renderEffect (desired : DesiredRow) (expected : Nat) (now : UnixMilliseconds)
    (database : Database) : EffectResult request :=
  match answers.signedAt with
  | none => (.error .unavailable, database)
  | some signedAt =>
      match buildSignedDocuments desired handler.presence handler.identity signedAt
        answers.entropy with
      | .error _ => (.error .unavailable, database)
      | .ok documents =>
          match Presence.commitSignedPresence handler.mode answers.effect documents now
            database.presence with
          | (.error _, presence) => (.error .internal, database.withPresence presence)
          | (.ok _, presence) =>
              (.ok fun _ => .presenceRender (documents.documents.map fun document =>
                (document.kind, document.eventDigest)) expected request.operationText,
                database.withPresence presence)

/-- `presence_render`: the desired state is committed, and its generation compared, before the
journal is consulted. -/
def presenceRender (state : Journaled Database) :
    Except AdminHandlerErrorKind ResponseDocument × Journaled Database :=
  match AdminJson.presenceRender request.modelBytes with
  | none => (.error .internal, state)
  | some expected =>
      match Presence.commitDesiredPresence handler.mode answers.check handler.presence
        state.domain.presence with
      | (.error _, presence) =>
          (.error .internal, { state with domain := state.domain.withPresence presence })
      | (.ok desired, presence) =>
          let state := { state with domain := state.domain.withPresence presence }
          if desired.state.generation ≠ expected then
            (.error .conflict, state)
          else
            mutate handler answers request
              (renderEffect handler answers request desired.state expected) state

/-- `handle_inner`, of a mutation. -/
def handleMutation (state : Journaled Database) :
    Except AdminHandlerErrorKind ResponseDocument × Journaled Database :=
  if handler.acceptingMutations then
    match request.route with
    | .stateBackup => backup handler answers request state
    | .reconciliationRefresh => reconciliationRefresh handler answers request state
    | .publicationRetry => publicationRetry handler answers request state
    | .presenceRender => presenceRender handler answers request state
    | .presenceRefresh => presenceRefresh handler answers request state
    | _ => (.error .internal, state)
  else
    (.error .unavailable, state)

end Requests

end Rhi
