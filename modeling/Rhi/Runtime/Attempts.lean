import Rhi.Manifest.Identities
import Rhi.Runtime.Refreshes

/-!
# The attempts of a running process

A worker keeps the plan it made from its claim and fetches for the requests of this plan, under the
configuration its process was started with.  So whatever it is about to commit is sealed, and
carries the identities of what it consists of.
-/

namespace Rhi

open Relational Transactional

section Workers

variable [Sha256] [TradeEvidence]

/-- An attempt that is being fetched was planned from its claim, and its replays for its plan. -/
def Worker.Planned (configuration : Configuration) (worker : Worker) : Prop :=
  ∀ lease plan remaining replays, worker = .fetching lease plan remaining replays →
    lease.job.inputGeneration ≤ maxInteger ∧
      (∃ now, AttemptPlan.fromClaim lease configuration now = .ok plan) ∧
      remaining ⊆ plan.requests ∧ ∀ entry ∈ replays, entry.FetchedFor plan configuration

omit [TradeEvidence] in
theorem planned_idle (configuration : Configuration) : Worker.Planned configuration .idle := by
  intro lease plan remaining replays impossible
  cases impossible

omit [TradeEvidence] in
/-- A claimed job has a generation the database can hold. -/
theorem generation_of_claimed {owner : LeaseOwner} {now : UnixMilliseconds} {store next : Store}
    {lease : Lease} (claimed : claimNext owner now store = .ok (some lease, next)) :
    lease.job.inputGeneration ≤ maxInteger := by
  rcases (claimNext_spec claimed).2.2 lease rfl with ⟨row, rowMem, read⟩
  have checked := (JobRow.check_iff.mp (next.jobs.checked row rowMem)).1
  have same : lease.job.inputGeneration = row.inputGeneration := by
    rw [← toRow_of_decodeJob read.decoded]
    rfl
  rw [same]
  exact checked.1.2

omit [Sha256] [TradeEvidence] in
/-- A cursor is read from a checkpoint, which the database can hold. -/
theorem cursor_le_of_read {disposition : Disposition} {policy : EvidencePolicyDigest}
    {request : SourceRequest} {store : Store} {prior : Option SourceCursor}
    (read : readCommittedCursor disposition policy request store = some prior) :
    ∀ cursor ∈ prior, cursor.createdAt ≤ maxInteger := by
  intro cursor isPrior
  unfold readCommittedCursor at read
  cases returned : (transaction mapIngestError disposition (fun store => .ok
    ((readCheckpoint store request.sourceId policy request.tradeId).map (·.cursor), store))
    store).1 with
  | error kind =>
      rw [returned] at read
      cases read
  | ok found =>
      rw [returned] at read
      cases read
      have done := transaction_ok returned
      simp only [Except.ok.injEq, Prod.mk.injEq] at done
      rw [← done.1] at isPrior
      rcases Option.map_eq_some_iff.mp isPrior with ⟨row, rowRead, rfl⟩
      have checked := store.checkpoints.checked row (List.mem_of_find?_eq_some rowRead)
      simp only [relayCheckpoints, decide_eq_true_eq] at checked
      exact checked.1

/-- How a worker comes to fetch: it claimed a job, visited a source, or has not moved. -/
theorem Worker.fetching_step {setting : Setting} {move : WorkerMove} {worker : Worker}
    {store : Store} {lease : Lease} {plan : AttemptPlan} {remaining : List SourceRequest}
    {replays : List SealedReplay}
    (fetching : (worker.step setting move store).1 = .fetching lease plan remaining replays) :
    ((∃ disposition now,
        (claimNextJob setting.host.mode disposition setting.owner now store).1 = .ok (some lease) ∧
        AttemptPlan.fromClaim lease setting.configuration now = .ok plan) ∧
      remaining = plan.requests ∧ replays = []) ∨
    (∃ disposition visit request earlier prior entry, move = .fetch disposition visit ∧
      worker = .fetching lease plan (request :: remaining) earlier ∧
      readCommittedCursor disposition plan.policyDigest request store = some prior ∧
      fetchSealed setting.configuration plan request prior visit = some entry ∧
      replays = earlier ++ [entry]) ∨
    worker = .fetching lease plan remaining replays := by
  unfold Worker.step at fetching
  split at fetching
  · dsimp only at fetching
    unfold Worker.claimed at fetching
    split at fetching
    · cases fetching
    · cases fetching
    · rename_i claimed returned
      split at fetching
      · cases fetching
      · rename_i made
        rcases Worker.fetching.inj fetching with ⟨rfl, rfl, rfl, rfl⟩
        exact .inl ⟨⟨_, _, returned, made⟩, rfl, rfl⟩
  · dsimp only at fetching
    split at fetching
    · cases fetching
    · rename_i entry fetchedEntry
      rcases Worker.fetching.inj fetching with ⟨rfl, rfl, rfl, rfl⟩
      simp only [Option.bind_eq_bind, Option.bind_eq_some_iff] at fetchedEntry
      rcases fetchedEntry with ⟨prior, read, visited⟩
      exact .inr (.inl ⟨_, _, _, _, prior, entry, rfl, rfl, read, visited, rfl⟩)
  · split at fetching
    · cases fetching
    · cases fetching
  · split at fetching
    · cases fetching
    · split at fetching
      · cases fetching
      · cases fetching
  · dsimp only at fetching
    split at fetching
    · cases fetching
    · cases fetching
  · split at fetching
    · cases fetching
    · cases fetching
  · split at fetching
    · cases fetching
    · split at fetching
      · cases fetching
      · cases fetching
  · exact .inr (.inr fetching)

/-- A worker makes a plan from its claim and keeps it while it fetches. -/
theorem Worker.planned_step {setting : Setting} {move : WorkerMove} {worker : Worker}
    {store : Store} (planned : worker.Planned setting.configuration) :
    (worker.step setting move store).1.Planned setting.configuration := by
  intro lease plan remaining replays fetching
  rcases Worker.fetching_step fetching with
    ⟨⟨disposition, now, returned, made⟩, rfl, rfl⟩ |
    ⟨disposition, visit, request, earlier, prior, entry, -, rfl, read, visited, rfl⟩ | rfl
  · simp only [claimNextJob, Setting.host, ne_eq, not_true_eq_false, if_false] at returned
    exact ⟨generation_of_claimed (transaction_ok returned), ⟨now, made⟩, List.Subset.refl _,
      by simp⟩
  · rcases planned _ _ _ _ rfl with ⟨generation, made, pending, fetchedFor⟩
    refine ⟨generation, made, fun other otherMem => pending (List.mem_cons_of_mem _ otherMem), ?_⟩
    intro other otherMem
    rcases List.mem_append.mp otherMem with old | new
    · exact fetchedFor other old
    · rw [List.mem_singleton.mp new]
      exact ⟨request, pending List.mem_cons_self, prior, visit, cursor_le_of_read read, visited⟩
  · exact planned lease plan remaining replays rfl

end Workers

section Processes

variable [Sha256] [TradeEvidence] [ResponseModels] [AdminJson] [PresenceEvents]

namespace Runtime

/-- The workers of a process plan under its configuration, and nobody works without a process. -/
def Planned (runtime : Runtime) : Prop :=
  ∀ index, match runtime.process with
    | none => runtime.workers index = .idle
    | some process => (runtime.workers index).Planned process.configuration

theorem planned_apply (move : RuntimeMove) (runtime : Runtime) (planned : runtime.Planned) :
    (runtime.apply move).Planned := by
  intro index
  have held := planned index
  cases opened : runtime.process with
  | none =>
      simp only [opened] at held
      cases move with
      | start disposition process appliedAt =>
          simp only [apply, opened, withStore, held]
          split
          · trivial
          · exact planned_idle _
      | applyConfiguration =>
          simp only [apply, opened, withStore]
          exact held
      | stop | work | subscribe | publish | present | handle =>
          simp only [apply, opened]
          exact held
  | some process =>
      simp only [opened] at held
      cases move with
      | stop =>
          simp only [apply, opened]
          rfl
      | work worker move isSealed =>
          simp only [apply, opened, withStore]
          by_cases same : index = worker
          · subst same
            rw [Function.update_self]
            exact Worker.planned_step held
          · rw [Function.update_of_ne same]
            exact held
      | start | applyConfiguration | subscribe | publish | present | handle =>
          simp only [apply, opened, withStore]
          exact held

theorem planned_exec (moves : List RuntimeMove) : (Runtime.exec moves .initial).Planned :=
  Transition.exec_invariant Runtime.Planned planned_apply moves fun _ => by
    simp only [Runtime.initial]

end Runtime

/-- Whatever runs beside it, an attempt that a worker of the process fetches is sealed, and carries
the identities of what it consists of. -/
theorem attempts_identified (moves : List RuntimeMove) {index : Nat} {lease : Lease}
    {plan : AttemptPlan} {remaining : List SourceRequest} {replays : List SealedReplay}
    (fetching : (Runtime.exec moves .initial).workers index =
      .fetching lease plan remaining replays) : plan.Identifies replays := by
  have planned := Runtime.planned_exec moves index
  cases opened : (Runtime.exec moves .initial).process with
  | none =>
      simp only [opened] at planned
      rw [planned] at fetching
      cases fetching
  | some process =>
      simp only [opened] at planned
      rcases planned _ _ _ _ fetching with ⟨generation, ⟨now, made⟩, -, fetchedFor⟩
      exact identifies_of_fetched made generation fetchedFor

end Processes

section Samples

namespace Sample.Attempted

local instance : Sha256 := ⟨Hashing.sha256⟩

local instance : TradeEvidence := evidence

local instance : ResponseModels := ⟨fun _ _ => false⟩

local instance : AdminJson where
  stateBackup _ := none
  reconciliationRefresh _ := none
  publicationRetry _ := none
  presenceRender _ := none
  presenceRefresh _ := none
  response _ := []

local instance : PresenceEvents where
  validPublicKey _ := true
  plan _ _ _ := none
  sign _ _ _ := none
  verify _ := none

/-- A proposal is delivered, and the first attempt at its trade has visited its only source. -/
def fetched : List RuntimeMove := [
  .start .acknowledged Running.process 1,
  .subscribe 0 (.receive .acknowledged source (wire proposal Reported.proposal_fits) 1000000),
  .subscribe 0 (.ingest .acknowledged),
  .subscribe 0 (.schedule .acknowledged),
  .work 0 (.claim .acknowledged claimedAt) trivial,
  .work 0 (.fetch .acknowledged Reported.redelivered) trivial]

/-- The attempt asked one source, which had one event. -/
theorem fetched_attempt_identified : plan.Identifies [Reported.known] ∧
    plan.requests.length = 1 ∧ Reported.known.replay.facts.length = 1 := by
  have fetching : (Runtime.exec fetched .initial).workers 0 =
      .fetching lease plan [] [Reported.known] := by
    decide +kernel
  exact ⟨attempts_identified fetched fetching, rfl, rfl⟩

end Sample.Attempted

end Samples

end Rhi
