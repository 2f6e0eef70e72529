import Rhi.Daemon.Board
import Rhi.Runtime.Guarantees

/-!
# Refreshes of a running process

An operator may ask for a refresh while every task is at work.  The journal of the operator is
written by nobody else, and no task removes a job, so that a refresh that succeeds leaves the job of
the generation it named, whatever ran before it.
-/

namespace Rhi

open Relational Transactional

section Receipts

variable [Sha256] [TradeEvidence] [AdminJson]

omit [TradeEvidence] in
/-- What is kept concerns the store, the journal and the host alone. -/
theorem Served.Kept.of_same {requests : List RequestDocument} {served next : Served}
    (kept : served.Kept requests)
    (store : next.database.domain.store = served.database.domain.store)
    (journal : next.database.journal = served.database.journal) (host : next.host = served.host) :
    next.Kept requests where
  bound := by
    rw [store, host]
    exact kept.bound
  wellFormed := by
    rw [store]
    exact kept.wellFormed
  behind := by
    rw [store]
    exact kept.behind
  receipts := by
    rw [store, journal]
    exact kept.receipts

omit [TradeEvidence] in
theorem Served.Kept.mono {requests later : List RequestDocument} {served : Served}
    (kept : served.Kept requests) (included : requests ⊆ later) : served.Kept later where
  bound := kept.bound
  wellFormed := kept.wellFormed
  behind := kept.behind
  receipts row rowMem completed route :=
    (kept.receipts row rowMem completed route).kept included fun job jobMem =>
      ⟨job, jobMem, rfl, rfl⟩

/-- A call of the publication repository keeps what is served. -/
theorem Served.Kept.move [ResponseModels] [PresenceEvents] {requests : List RequestDocument}
    {served next : Served} (kept : served.Kept requests) (move : Publication.Move)
    (orderly : Publication.Orderly served.database.domain.store)
    (journal : next.database.journal = served.database.journal)
    (service : Service.mk next.database.domain.store next.host =
      move.apply ⟨served.database.domain.store, served.host⟩) : next.Kept requests := by
  have stored : next.database.domain.store =
      (move.apply ⟨served.database.domain.store, served.host⟩).store :=
    congrArg Service.store service
  have host : next.host = (move.apply ⟨served.database.domain.store, served.host⟩).host :=
    congrArg Service.host service
  rcases @Publication.apply_cases _ _ move ⟨served.database.domain.store, served.host⟩ orderly with
    ⟨call, same, -⟩ | ⟨sameHost, only⟩
  · rw [same] at stored host
    exact (kept.call call).of_same stored journal host
  · have only : PublicationOnly served.database.domain.store next.database.domain.store := by
      rw [stored]
      exact only
    have sameHost : next.host = served.host := host.trans sameHost
    exact {
      bound := by
        rw [sameHost]
        exact bound_of_same kept.bound (by rw [only]) (by rw [only])
      wellFormed := by
        rw [only]
        exact kept.wellFormed
      behind := by
        rw [only]
        exact kept.behind
      receipts := by
        rw [only, journal]
        exact kept.receipts }

end Receipts

section Requests

variable [Sha256] [TradeEvidence] [ResponseModels] [AdminJson] [PresenceEvents]

/-- The request a move hands to the process. -/
def RuntimeMove.request : RuntimeMove → Option RequestDocument
  | .handle _ _ request => some request
  | _ => none

namespace Runtime

/-- Only requests write the journal. -/
theorem journal_apply {move : RuntimeMove} (runtime : Runtime) (silent : move.request = none) :
    (runtime.apply move).database.journal = runtime.database.journal := by
  cases opened : runtime.process with
  | none =>
      cases move with
      | handle => cases silent
      | start | applyConfiguration =>
          simp only [apply, opened]
          rfl
      | stop | work | subscribe | publish | present => simp only [apply, opened]
  | some process =>
      cases move with
      | handle => cases silent
      | work | subscribe | publish =>
          simp only [apply, opened]
          rfl
      | start | stop | applyConfiguration | present => simp only [apply, opened]

/-- A process runs until it is stopped. -/
theorem process_exec {moves : List RuntimeMove} {runtime : Runtime} {process : Process}
    (opened : runtime.process = some process) (stays : ∀ move ∈ moves, move ≠ .stop) :
    (Runtime.exec moves runtime).process = some process := by
  induction moves generalizing runtime with
  | nil => exact opened
  | cons move moves ih =>
      rw [Runtime.exec, Transition.exec_cons]
      refine ih ?_ fun later laterMem => stays later (List.mem_cons_of_mem _ laterMem)
      cases move with
      | stop => exact absurd rfl (stays _ List.mem_cons_self)
      | start | applyConfiguration | work | subscribe | publish | present | handle =>
          simp only [apply, opened, withStore]

/-- The step lemma of what is served. -/
theorem kept_apply (move : RuntimeMove) {runtime : Runtime} (sound : runtime.Sound)
    {requests : List RequestDocument} (kept : runtime.served.Kept requests) :
    (runtime.apply move).served.Kept (requests ++ move.request.toList) := by
  cases requested : move.request with
  | some request =>
      cases move with
      | handle acceptingMutations answers request =>
          cases requested
          cases opened : runtime.process with
          | none =>
              simp only [apply, opened]
              exact kept.mono (List.subset_append_left _ _)
          | some process =>
              have applied : (runtime.apply (.handle acceptingMutations answers request)).served =
                  runtime.served.apply
                    (.handle (process.handler acceptingMutations) answers request) := by
                simp only [apply, opened, served, Served.apply]
              rw [applied]
              exact kept.handle (process.handler acceptingMutations) answers request
      | _ => cases requested
  | none =>
      have journal := journal_apply runtime requested
      simp only [Option.toList_none, List.append_nil]
      by_cases stays : move = .stop
      · subst stays
        cases opened : runtime.process with
        | none =>
            simp only [apply, opened]
            exact kept
        | some process =>
            have applied : (runtime.apply .stop).served = runtime.served.apply (.call .close) := by
              simp only [apply, opened]
              rfl
            rw [applied]
            exact kept.call .close
      · rcases publishers_apply move sound.attested sound.presenting stays with
          same | ⟨call, same, -⟩
        · have service : (runtime.apply move).service = runtime.service :=
            congrArg Publication.Publishers.service same
          exact kept.of_same (congrArg Service.store service) journal
            (congrArg Service.host service)
        · have service := congrArg Publication.Publishers.service same
          rw [Publication.service_apply] at service
          cases isCall : call.call runtime.publishers with
          | none =>
              rw [isCall] at service
              exact kept.of_same (congrArg Service.store service) journal
                (congrArg Service.host service)
          | some move =>
              rw [isCall] at service
              exact kept.move move sound.shared.orderly journal service

/-- What is served stays kept over every run. -/
theorem kept_exec (moves : List RuntimeMove) :
    (Runtime.exec moves .initial).served.Kept (moves.filterMap RuntimeMove.request) := by
  induction moves using List.reverseRecOn with
  | nil => exact kept_serving []
  | append_singleton moves move ih =>
      have stepped : Runtime.exec (moves ++ [move]) .initial =
          (Runtime.exec moves .initial).apply move := by
        simp [Runtime.exec]
      have requests : (moves ++ [move]).filterMap RuntimeMove.request =
          moves.filterMap RuntimeMove.request ++ move.request.toList := by
        cases requested : move.request with
        | none => simp [requested]
        | some request => simp [requested]
      rw [stepped, requests]
      exact kept_apply move (sound_exec moves) ih

end Runtime

/-- Whatever the tasks of a process did, a refresh that it answers with success leaves a job of the
current generation of its trade, a new one only if there was none. -/
theorem running_refresh_finds_or_makes_job (moves : List RuntimeMove) {process : Process}
    (acceptingMutations : Bool) (answers : Answers) (request : RequestDocument) {trade : TradeId}
    {expected : Nat} {response : ResponseDocument}
    (running : (Runtime.exec moves .initial).process = some process)
    (route : request.route = .reconciliationRefresh)
    (parsed : AdminJson.reconciliationRefresh request.modelBytes = some (trade, expected))
    (distinct : ∀ other ∈ moves.filterMap RuntimeMove.request,
      requestDigest other = requestDigest request → requestBytes other = requestBytes request)
    (answered : (handleMutation (process.handler acceptingMutations) answers request
      (Runtime.exec moves .initial).database).1 = .ok response) :
    Refreshed trade expected (Runtime.exec moves .initial).store
      ((Runtime.exec moves .initial).apply (.handle acceptingMutations answers request)).store := by
  rcases handled : handleMutation (process.handler acceptingMutations) answers request
    (Runtime.exec moves .initial).database with ⟨answer, next⟩
  rw [handled] at answered
  have applied : ((Runtime.exec moves .initial).apply
      (.handle acceptingMutations answers request)).store = next.domain.store := by
    simp only [Runtime.apply, running, handled, Runtime.store]
  have succeeded : handleMutation (process.handler acceptingMutations) answers request
      (Runtime.exec moves .initial).served.database = (.ok response, next) := by
    rw [← answered]
    exact handled
  rw [applied]
  exact (Runtime.kept_exec moves).refreshed route parsed distinct succeeded

end Requests

section Samples

namespace Sample.Running

local instance : Sha256 := ⟨Hashing.sha256⟩

local instance : TradeEvidence := evidence

local instance : ResponseModels := ⟨fun route _ => route == .reconciliationRefresh⟩

def hexBytes (count value : Nat) : List UInt8 :=
  (List.range count).map fun index =>
    let digit := value / 16 ^ (count - 1 - index) % 16
    UInt8.ofNat (if digit < 10 then 48 + digit else 87 + digit)

local instance : AdminJson where
  stateBackup _ := none
  reconciliationRefresh bytes := if bytes = Replays.model then some (trade, 1) else none
  publicationRetry _ := none
  presenceRender _ := none
  presenceRefresh _ := none
  response
    | .reconciliationRefresh generation job operation trade =>
        textBytes "\x7b\"dirty_generation\":" ++ textBytes (toString generation) ++
          textBytes ",\"job_id\":\"" ++ hexBytes 64 job.toNat ++
          textBytes "\",\"operation_id\":\"" ++ textBytes operation ++
          textBytes "\",\"trade_id\":\"" ++ hexBytes 32 trade.toNat ++ textBytes "\"\x7d"
    | _ => []

local instance : PresenceEvents where
  validPublicKey _ := true
  plan _ _ _ := none
  sign _ _ _ := none
  verify _ := none

def process : Process where
  configuration
  owner _ := owner
  publication := Publication.Sample.authorized
  presence := Replays.handler.presence
  identity := 0x33#256

theorem process_started :
    (Runtime.initial.apply (.start .acknowledged process 1)).process = some process := by
  have opens : (openReadWrite .acknowledged process.configuration.binding 1
      Runtime.initial.store).1.isSome := by
    decide +kernel
  rcases Option.isSome_iff_exists.mp opens with ⟨host, isHost⟩
  simp only [Runtime.apply, Runtime.initial] at isHost ⊢
  rw [isHost, Option.map_some]

def request (operation : String) : RequestDocument :=
  ⟨.reconciliationRefresh, some operation, Replays.model⟩

/-- The operator refreshes the trade of a delivered proposal, and a worker claims the job. -/
def claimed : List RuntimeMove := [
  .start .acknowledged process 1,
  .subscribe 0 (.receive .acknowledged source (wire proposal Reported.proposal_fits) 1000000),
  .subscribe 0 (.ingest .acknowledged),
  .handle true Replays.answers (request "refresh-1"),
  .work 0 (.claim .acknowledged claimedAt) trivial]

def again : Answers :=
  { Replays.answers with
    now := some Publication.Sample.publishedAt
    completed := some Publication.Sample.publishedAt }

/-- A refresh while a worker holds the job of the generation finds this job. -/
theorem refreshed_while_claimed :
    ((Runtime.exec claimed .initial).workers 0).lease.map (·.job.inputGeneration) = some 1 ∧
    Refreshed trade 1 (Runtime.exec claimed .initial).store
      ((Runtime.exec claimed .initial).apply (.handle true again (request "refresh-2"))).store := by
  have running : (Runtime.exec claimed .initial).process = some process := by
    rw [claimed, Runtime.exec, Transition.exec_cons]
    exact Runtime.process_exec process_started (by simp)
  have distinct : ∀ other ∈ claimed.filterMap RuntimeMove.request,
      requestDigest other = requestDigest (request "refresh-2") →
        requestBytes other = requestBytes (request "refresh-2") := by
    intro other otherMem _
    have single : claimed.filterMap RuntimeMove.request = [request "refresh-1"] := rfl
    rw [single, List.mem_singleton] at otherMem
    rw [otherMem]
    rfl
  have evaluated :
      ((Runtime.exec claimed .initial).workers 0).lease.map (·.job.inputGeneration) = some 1 ∧
      (handleMutation (process.handler true) again (request "refresh-2")
        (Runtime.exec claimed .initial).database).1.isOk = true := by
    decide +kernel
  rcases evaluated with ⟨held, succeeded⟩
  refine ⟨held, ?_⟩
  cases answered : (handleMutation (process.handler true) again (request "refresh-2")
      (Runtime.exec claimed .initial).database).1 with
  | ok response =>
      exact running_refresh_finds_or_makes_job claimed true again (request "refresh-2") running rfl
        (if_pos rfl) distinct answered
  | error =>
      rw [answered] at succeeded
      cases succeeded

end Sample.Running

end Samples

end Rhi
