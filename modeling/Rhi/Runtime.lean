import Rhi.Admin.Refresh
import Rhi.Presence.Runs
import Rhi.Publication.Publishers
import Rhi.Reconcilers

/-!
# The whole process

One database is shared by everything `run_daemon` spawns: the source subscription, the
reconciliation worker, the publication worker, the presence worker and the admin server.  Each move
below is one transaction of one of these tasks with what the task computes around it, or the
handling of one admin request, so that a list of moves is an interleaving of them all.  There may be
any number of subscriptions, workers and executors, of which the process spawns one each.
-/

namespace Rhi

open Relational Transactional

section Process

variable [Sha256]

/-- What a process was started with.  Every worker draws an owner for its leases. -/
structure Process where
  configuration : Configuration
  owner : Nat → LeaseOwner
  publication : Publication.Authorized
  presence : DesiredAuthority
  identity : PublicKey

def Process.setting (process : Process) (index : Nat) : Setting :=
  ⟨process.configuration, process.owner index, process.publication.authority⟩

def Process.host (process : Process) : Host :=
  ⟨.readWriteExisting, process.configuration.binding⟩

/-- The `RuntimeAdminHandler` of the process; a shutdown stops accepting mutations first. -/
def Process.handler (process : Process) (acceptingMutations : Bool) : AdminHandler where
  mode := .readWriteExisting
  acceptingMutations
  jobPolicy := process.configuration.jobPolicy
  publicationTargets := process.publication.authority.targets.length
  presence := process.presence
  identity := process.identity

/-- The executor works under the authority of its process. -/
def Publication.ExecutorMove.under (authorized : Publication.Authorized) :
    Publication.ExecutorMove → Publication.ExecutorMove
  | .begin disposition now _ => .begin disposition now authorized
  | move => move

/-- The report of the move was signed over its own bytes. -/
def WorkerMove.Sealed : WorkerMove → Prop
  | .attest _ (some signed) => Sha256.digest signed.signedEvent = signed.signedEventDigest
  | _ => True

omit [Sha256] in
/-- The calls of presence that are neither configuration changes nor the refresh of the operator. -/
def Presence.Move.isInternal : Presence.Move → Bool
  | .configure .. | .refresh .. => false
  | _ => true

end Process

section System

variable [Sha256] [TradeEvidence]

/-- The database, the process that has it open, if one does, and how far its tasks have come. -/
structure Runtime where
  database : Journaled Database
  process : Option Process
  workers : Nat → Worker
  subscriptions : Nat → Subscription
  executors : Nat → Publication.Executor
  leases : List PresenceLease
  attempts : List PreparedPresence

/-- A freshly migrated database that nobody has open. -/
def Runtime.initial : Runtime where
  database := Served.initial.database
  process := none
  workers _ := .idle
  subscriptions _ := .idle
  executors _ := .idle
  leases := []
  attempts := []

/-- A move of the process or of its operator.  A stop may come at any time. -/
inductive RuntimeMove where
  | start (disposition : Disposition) (process : Process) (appliedAt : Nat)
  | stop
  | applyConfiguration (opening applying : Disposition) (current candidate : ConfigBinding)
      (appliedAt : Nat)
  | work (index : Nat) (move : WorkerMove) (isSealed : move.Sealed)
  | subscribe (index : Nat) (move : SubscriptionMove)
  | publish (index : Nat) (move : Publication.ExecutorMove)
  | present (move : Presence.Move) (isInternal : move.isInternal = true)
  | handle (acceptingMutations : Bool) (answers : Answers) (request : RequestDocument)

namespace Runtime

def store (runtime : Runtime) : Store :=
  runtime.database.domain.store

def withStore (runtime : Runtime) (store : Store) : Runtime :=
  { runtime with
    database := { runtime.database with domain := { runtime.database.domain with store } } }

/-- The store and its host as the state service sees them. -/
def service (runtime : Runtime) : Service :=
  ⟨runtime.store, runtime.process.map Process.host⟩

/-- The process as its workers see it. -/
def reconcilers (runtime : Runtime) : Reconcilers :=
  ⟨runtime.service, runtime.workers⟩

/-- The process as its publication executors see it. -/
def publishers (runtime : Runtime) : Publication.Publishers :=
  ⟨runtime.service, runtime.executors⟩

/-- The process as presence sees it. -/
def presence (runtime : Runtime) : Presence.System :=
  ⟨runtime.database.domain.presence, runtime.leases, runtime.attempts⟩

/-- The process as the admin server sees it. -/
def served (runtime : Runtime) : Served :=
  ⟨runtime.database, runtime.process.map Process.host⟩

variable [ResponseModels] [AdminJson] [PresenceEvents]

/-- The process after a move.  A stopped process forgets how far its tasks had come. -/
def apply (move : RuntimeMove) (runtime : Runtime) : Runtime :=
  match move, runtime.process with
  | .start disposition process appliedAt, none =>
      let (host, store) :=
        openReadWrite disposition process.configuration.binding appliedAt runtime.store
      { runtime.withStore store with process := host.map fun _ => process }
  | .stop, some _ => { Runtime.initial with database := runtime.database }
  | .applyConfiguration opening applying current candidate appliedAt, none =>
      runtime.withStore
        (Rhi.applyConfiguration opening applying current candidate appliedAt runtime.store).2
  | .work index move _, some process =>
      let (worker, store) :=
        (runtime.workers index).step (process.setting index) move runtime.store
      { runtime.withStore store with workers := Function.update runtime.workers index worker }
  | .subscribe index move, some process =>
      let (subscription, store) :=
        (runtime.subscriptions index).step (process.setting index) move runtime.store
      { runtime.withStore store with
        subscriptions := Function.update runtime.subscriptions index subscription }
  | .publish index move, some process =>
      let (executor, store) := (runtime.executors index).step .readWriteExisting
        (move.under process.publication) runtime.store
      { runtime.withStore store with executors := Function.update runtime.executors index executor }
  | .present move _, some _ =>
      let ⟨presence, leases, attempts⟩ := runtime.presence.apply move
      { runtime with
        database :=
          { runtime.database with domain := runtime.database.domain.withPresence presence }
        leases, attempts }
  | .handle acceptingMutations answers request, some process =>
      { runtime with
        database := (handleMutation (process.handler acceptingMutations) answers request
          runtime.database).2 }
  | _, _ => runtime

/-- The process after a run. -/
def exec (moves : List RuntimeMove) (runtime : Runtime) : Runtime :=
  Transition.exec Runtime.apply moves runtime

end Runtime

end System

end Rhi
