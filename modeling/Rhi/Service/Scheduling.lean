import Rhi.Job.Scheduling
import Rhi.Service.Dirty
import Rhi.Service.Finalizations
import Rhi.Service.Revisions

/-!
# Scheduling and claiming in every reachable store

Scheduling the same dirty generation again only reads, and a replaced job gives its place away.  In
a store that genuine leases reach no revision is about to overflow, so that `claim_next` follows
the selection rule without exception: it fails only when the expiry leaves the range of the clock.
-/

namespace Rhi

open Relational Transactional

section Scheduling

variable [Sha256]

/-- Scheduling a trade is idempotent, and replaces its active job safely. -/
structure SchedulesSafely (trade : TradeId) (policy : JobPolicy) (now : UnixMilliseconds)
    (store : Store) : Prop where
  /-- Another call for the same dirty generation finds the job and changes nothing. -/
  repeats : ∀ mode disposition outcome next,
    scheduleTrade mode disposition trade policy now store = (.ok outcome, next) →
      ∀ policy' now',
        scheduleTrade mode .acknowledged trade policy' now' next =
        (.ok ⟨outcome.job, false⟩, next) ∧
        ∀ mode' disposition', (scheduleTrade mode' disposition' trade policy' now' next).2 = next
  creates : ∀ mode disposition job next,
    scheduleTrade mode disposition trade policy now store = (.ok ⟨job, true⟩, next) →
      ∃ dirty, readDirty store trade = some dirty ∧
        ScheduleCreated trade policy now.get dirty store next job
  /-- A failure leaves the store alone, unless its commit was not acknowledged. -/
  refuses : ∀ mode disposition error next, error ≠ .commitOutcomeUnknown →
    scheduleTrade mode disposition trade policy now store = (.error error, next) → next = store
  unknown : ∀ mode disposition next,
    scheduleTrade mode disposition trade policy now store = (.error .commitOutcomeUnknown, next) →
      next = store ∨ ∃ outcome,
        scheduleTrade mode .acknowledged trade policy now store = (.ok outcome, next)
  replaces : ∀ row ∈ store.jobs.rows, row.tradeId = trade → row.state.active = true →
    activeCount store.jobs.rows ≤ policy.queueCapacity → ∀ mode disposition,
      (scheduleTrade mode disposition trade policy now store).1 ≠ .error .queueFull

theorem schedule_of_scheduleTrade {mode : HostMode} {disposition : Disposition} {trade : TradeId}
    {policy : JobPolicy} {now : UnixMilliseconds} {store next : Store} {outcome : ScheduleOutcome}
    (done : scheduleTrade mode disposition trade policy now store = (.ok outcome, next)) :
    mode = .readWriteExisting ∧ schedule trade policy now store = .ok (outcome, next) := by
  unfold scheduleTrade at done
  split at done
  · cases congrArg Prod.fst done
  · rename_i writable
    have returned := body_of_transaction_ok done
    exact ⟨by simpa using writable, returned⟩

/-- Every schedule call of every store. -/
theorem schedules_safely (trade : TradeId) (policy : JobPolicy) (now : UnixMilliseconds)
    (store : Store) : SchedulesSafely trade policy now store where
  repeats mode disposition outcome next done policy' now' := by
    rcases schedule_of_scheduleTrade done with ⟨rfl, scheduled⟩
    have again := schedule_again scheduled policy' now'
    constructor
    · simp [scheduleTrade, transaction_acknowledged again]
    · intro mode' disposition'
      unfold scheduleTrade
      split
      · rfl
      · rcases transaction_store mapJobError disposition' (schedule trade policy' now') next
          with same | ⟨found, after, done', same⟩
        · exact same
        · rw [again] at done'
          cases done'
          exact same
  creates mode disposition job next done := by
    rcases schedule_cases (schedule_of_scheduleTrade done).2 with
      ⟨dirty, read, ⟨impossible, -⟩ | ⟨-, created⟩, -⟩
    · cases impossible
    · exact ⟨dirty, read, created⟩
  refuses mode disposition error next known failed := by
    unfold scheduleTrade at failed
    split at failed
    · cases failed
      rfl
    · have unchanged := transaction_store_of_error (congrArg Prod.fst failed) known
      rw [failed] at unchanged
      exact unchanged
  unknown mode disposition next failed := by
    unfold scheduleTrade at failed ⊢
    split at failed
    · cases congrArg Prod.fst failed
    · rename_i writable
      rcases transaction_store mapJobError disposition (schedule trade policy now) store
        with same | ⟨outcome, after, done, same⟩
      · rw [failed] at same
        exact .inl same
      · rw [failed] at same
        simp only at same
        subst same
        refine .inr ⟨outcome, ?_⟩
        simp [writable, transaction_acknowledged done]
  replaces row rowMem sameTrade active bounded mode disposition full := by
    unfold scheduleTrade at full
    split at full
    · cases full
    · rcases transaction_error full with impossible | impossible | ⟨failure, failed, same⟩
      · cases impossible
      · cases impossible
      · cases failure with
        | queueFull => exact schedule_ne_queueFull rowMem sameTrade active bounded failed
        | invalidInput | dirtyGenerationConflict | leaseLost | notReady | storage => cases same

end Scheduling

section Generations

/-- A job against the dirty row of its trade: its generation is no later, under the policy of its
generation, and it was superseded for a later one alone. -/
structure JobRow.Behind (row : JobRow) (dirty : DirtyRow) : Prop where
  generation : row.inputGeneration ≤ dirty.generation
  policy : row.inputGeneration = dirty.generation → row.evidencePolicy = dirty.evidencePolicy
  superseded : row.state = .superseded → row.inputGeneration < dirty.generation

/-- Every job is behind the dirty row of its trade. -/
def JobsBehind (store : Store) : Prop :=
  ∀ row ∈ store.jobs.rows, ∃ dirty ∈ readDirty store row.tradeId, row.Behind dirty

theorem JobRow.Behind.step {row : JobRow} {trade : TradeId} {increment : Nat}
    {before after : Store} {dirty : DirtyRow} (behind : row.Behind dirty)
    (read : dirty ∈ readDirty before trade) (step : DirtyStep trade increment before after) :
    ∃ next ∈ readDirty after trade, row.Behind next := by
  rcases Nat.eq_zero_or_pos increment with none | advanced
  · exact ⟨dirty, by rw [step.unchanged none]; exact read, behind⟩
  · rcases step.updatedAt dirty read with ⟨next, nextRead, -⟩
    have grown := step.generation
    simp only [dirtyGeneration, Option.mem_def.mp read, Option.mem_def.mp nextRead, Option.map_some,
      Option.getD_some] at grown
    have earlier := behind.generation
    exact ⟨next, nextRead, by omega, by omega, fun _ => by omega⟩

theorem JobRow.Behind.changed {old new : JobRow} {kind : StepKind} {dirty : DirtyRow}
    (behind : old.Behind dirty) (change : RowChange old kind new)
    (superseded : new.state = .superseded → old.inputGeneration < dirty.generation) :
    new.Behind dirty := by
  rcases change.sameIdentity with ⟨-, -, sameGeneration, samePolicy, -⟩
  refine ⟨?_, ?_, ?_⟩
  · rw [sameGeneration]
    exact behind.generation
  · rw [sameGeneration, samePolicy]
    exact behind.policy
  · rw [sameGeneration]
    exact superseded

theorem RowChange.not_superseded {old new : JobRow} {kind : StepKind}
    (change : RowChange old kind new) (kept : kind ≠ .supersession) : new.state ≠ .superseded := by
  cases change.step with
  | supersede now id revision selected => exact absurd rfl kept
  | expire now due => simp [exhaustExpired]
  | claim owner expires now id revision selected => simp [claimJob]
  | renew expires now lease selected =>
      simp only [renewJob, JobRow.heldBy, Bool.and_eq_true, beq_iff_eq] at selected
      simp [renewJob, selected.1.1.1.1.2]
  | retry next now lease selected => simp [retryJob]
  | exhaust now lease selected => simp [exhaustJob]
  | complete now lease selected => simp [completeJob]

/-- Jobs stay behind where dirty rows only advance and nothing is superseded. -/
theorem JobsBehind.advance {before after : Store} {kinds : List StepKind}
    (behind : JobsBehind before)
    (rewritten : JobsRewritten kinds before.jobs.rows after.jobs.rows)
    (kept : .supersession ∉ kinds)
    (steps : ∀ trade, ∃ increment, DirtyStep trade increment before after) :
    JobsBehind after := by
  intro row rowMem
  rcases rewritten.origin rowMem with ⟨old, oldMem, -, same | ⟨kind, kindMem, change⟩⟩
  · rcases behind old oldMem with ⟨dirty, read, ordered⟩
    rcases steps old.tradeId with ⟨increment, step⟩
    rw [same]
    exact ordered.step read step
  · rcases behind old oldMem with ⟨dirty, read, ordered⟩
    rcases steps old.tradeId with ⟨increment, step⟩
    have kindKept : kind ≠ .supersession := by
      rintro rfl
      exact kept kindMem
    have changed := ordered.changed change fun superseded =>
      absurd superseded (change.not_superseded kindKept)
    rw [change.sameIdentity.2.1]
    exact changed.step read step

variable [Sha256]

/-- A schedule call leaves every job behind, the one it creates with the dirty row itself. -/
theorem JobsBehind.scheduled {trade : TradeId} {policy : JobPolicy} {now : UnixMilliseconds}
    {store next : Store} {outcome : ScheduleOutcome} (behind : JobsBehind store)
    (done : schedule trade policy now store = .ok (outcome, next)) : JobsBehind next := by
  rcases schedule_cases done with ⟨dirty, read, ⟨-, rfl⟩ | ⟨-, created⟩, -⟩
  · exact behind
  · have sameDirty : ∀ other, readDirty next other = readDirty store other := by
      intro other
      rw [created.only]
      rfl
    intro row rowMem
    rw [created.rows, List.mem_append, List.mem_singleton] at rowMem
    rcases rowMem with old | rfl
    · rcases List.mem_map.mp old with ⟨stored, storedMem, rfl⟩
      rcases behind stored storedMem with ⟨own, ownRead, ordered⟩
      refine ⟨own, ?_, ?_⟩
      · rw [sameDirty]
        unfold JobRow.supersededFor
        split <;> exact ownRead
      · unfold JobRow.supersededFor
        split
        · rename_i chosen
          have older := created.older stored storedMem chosen.1 chosen.2
          have same : own = dirty := by
            rw [chosen.1] at ownRead
            exact Option.some.inj (ownRead.symm.trans read)
          exact ⟨ordered.generation, ordered.policy, fun _ => by rw [same]; exact older⟩
        · exact ordered
    · refine ⟨dirty, ?_, le_rfl, fun _ => rfl, fun superseded => by cases superseded⟩
      rw [sameDirty]
      exact read

theorem JobsBehind.scheduleTrade {trade : TradeId} {store : Store} (behind : JobsBehind store)
    (mode : HostMode) (disposition : Disposition) (policy : JobPolicy) (now : UnixMilliseconds) :
    JobsBehind (Rhi.scheduleTrade mode disposition trade policy now store).2 := by
  unfold Rhi.scheduleTrade
  split
  · exact behind
  · rcases transaction_store mapJobError disposition (schedule trade policy now) store
      with same | ⟨outcome, next, done, same⟩
    · rw [same]
      exact behind
    · rw [same]
      exact behind.scheduled done

variable [TradeEvidence]

theorem behind_apply (call : Call) {service : Service} (bound : service.Bound)
    (behind : JobsBehind service.store) : JobsBehind (service.apply call).store := by
  have steps := fun trade => (⟨_, (dirty_apply call bound).2 trade⟩ : ∃ increment,
    DirtyStep trade increment service.store (service.apply call).store)
  have step := jobsStep_apply call service
  cases call with
  | operation operation =>
      cases operation with
      | scheduleTrade disposition trade policy now =>
          cases opened : service.host with
          | none =>
              simp only [Service.apply, opened]
              exact behind
          | some host =>
              simp only [Service.apply, opened, Operation.run]
              exact behind.scheduleTrade host.mode disposition policy now
      | claimNext | renew | recordFailure | commitSourceResult | commitSourceReplays
      | commitFinalization | progressOutbox | progressTargets =>
          cases step with
          | rewritten rows => exact behind.advance rows (by simp [Call.stepKinds]) steps
  | openReadWrite | openInspection | close | applyConfiguration =>
      cases step with
      | rewritten rows => exact behind.advance rows (by simp [Call.stepKinds]) steps

end Generations

section Selection

variable [Sha256]

/-- `claim_next` exhausts what is expired for good and leases the first claimable row, if any. -/
structure SelectsFirst (owner : LeaseOwner) (now : UnixMilliseconds) (store : Store) : Prop where
  first_or_idle : (∀ row ∈ store.jobs.rows, row.claimable now.get = false) ∨
    ∃ row, Claims store now.get row
  idle : (∀ row ∈ store.jobs.rows, row.claimable now.get = false) → ∃ next,
    claimNextJob .readWriteExisting .acknowledged owner now store = (.ok none, next) ∧
      JobsOnly store next ∧ next.jobs.rows = store.jobs.rows.map (JobRow.expire now.get)
  leases : ∀ row, Claims store now.get row → now.get + row.leaseDuration ≤ maxInteger →
    ∃ lease next,
      claimNextJob .readWriteExisting .acknowledged owner now store = (.ok (some lease), next) ∧
        Claimed owner now.get row store next lease
  none_iff : (claimNextJob .readWriteExisting .acknowledged owner now store).1 = .ok none ↔
    ∀ row ∈ store.jobs.rows, row.claimable now.get = false
  /-- An overflow undoes the exhaustions, however the commit would have ended. -/
  overflows : ∀ row, Claims store now.get row → maxInteger < now.get + row.leaseDuration →
    ∀ mode disposition, ∃ error,
      claimNextJob mode disposition owner now store = (.error error, store)
  /-- Without the acknowledgement of the commit no lease is returned. -/
  unacknowledged : ∀ mode disposition, mode ≠ .readWriteExisting ∨ disposition ≠ .acknowledged →
    ∃ error, (claimNextJob mode disposition owner now store).1 = .error error ∧
      ((claimNextJob mode disposition owner now store).2 = store ∨
        (claimNextJob mode disposition owner now store).2 =
          (claimNextJob .readWriteExisting .acknowledged owner now store).2)

theorem claimNextJob_of_error {owner : LeaseOwner} {now : UnixMilliseconds} {store : Store}
    {failure : JobOperationError} (failed : claimNext owner now store = .error failure)
    (mode : HostMode) (disposition : Disposition) :
    ∃ error, claimNextJob mode disposition owner now store = (.error error, store) := by
  unfold claimNextJob
  split
  · exact ⟨_, rfl⟩
  · rcases @transaction_of_error _ _ _ _ mapJobError disposition (claimNext owner now) _ _ failed
      with ⟨⟨error, refused⟩, unchanged⟩
    exact ⟨error, Prod.ext refused unchanged⟩

theorem claimNextJob_unacknowledged (owner : LeaseOwner) (now : UnixMilliseconds) (store : Store)
    {mode : HostMode} {disposition : Disposition}
    (unacknowledged : mode ≠ .readWriteExisting ∨ disposition ≠ .acknowledged) :
    ∃ error, (claimNextJob mode disposition owner now store).1 = .error error ∧
      ((claimNextJob mode disposition owner now store).2 = store ∨
        (claimNextJob mode disposition owner now store).2 =
          (claimNextJob .readWriteExisting .acknowledged owner now store).2) := by
  unfold claimNextJob
  split
  · exact ⟨_, rfl, .inl rfl⟩
  · rename_i writable
    rw [if_neg (by simp)]
    rcases unacknowledged with readOnly | unsettled
    · exact absurd readOnly writable
    · cases disposition with
      | acknowledged => exact absurd rfl unsettled
      | aborted => exact ⟨_, rfl, .inl rfl⟩
      | unacknowledged applied =>
          cases result : claimNext owner now store with
          | error failure => simp [transaction, result]
          | ok value =>
              cases applied with
              | false => simp [transaction, result]
              | true => simp [transaction, result]

variable [TradeEvidence]

/-- The rule of every claim from every store that genuine leases reach. -/
theorem claims_select_first {calls : List Call} (genuine : GenuineLeases calls)
    (owner : LeaseOwner) (now : UnixMilliseconds) :
    SelectsFirst owner now (Service.exec calls .initial).store := by
  have steady := steady_exec genuine
  have idle : (∀ row ∈ (Service.exec calls .initial).store.jobs.rows,
      row.claimable now.get = false) → ∃ next,
      claimNextJob .readWriteExisting .acknowledged owner now (Service.exec calls .initial).store =
        (.ok none, next) ∧ JobsOnly (Service.exec calls .initial).store next ∧
        next.jobs.rows =
          (Service.exec calls .initial).store.jobs.rows.map (JobRow.expire now.get) := by
    intro unclaimable
    rcases claimNext_of_idle steady.ready owner steady.bounded unclaimable with ⟨next, done, effect⟩
    exact ⟨next, transaction_acknowledged done, effect⟩
  have leases : ∀ row, Claims (Service.exec calls .initial).store now.get row →
      now.get + row.leaseDuration ≤ maxInteger → ∃ lease next,
      claimNextJob .readWriteExisting .acknowledged owner now (Service.exec calls .initial).store =
        (.ok (some lease), next) ∧
        Claimed owner now.get row (Service.exec calls .initial).store next lease := by
    intro row claims clock
    rcases (claimNext_of_claims steady.ready owner steady.bounded claims).1 clock with
      ⟨lease, next, done, claimed⟩
    exact ⟨lease, next, transaction_acknowledged done, claimed⟩
  have overflows : ∀ row, Claims (Service.exec calls .initial).store now.get row →
      maxInteger < now.get + row.leaseDuration → ∀ mode disposition, ∃ error,
      claimNextJob mode disposition owner now (Service.exec calls .initial).store =
        (.error error, (Service.exec calls .initial).store) := by
    intro row claims beyond
    exact claimNextJob_of_error
      ((claimNext_of_claims steady.ready owner steady.bounded claims).2 beyond)
  refine ⟨idle_or_claims _ _, idle, leases, ⟨?_, ?_⟩, overflows, ?_⟩
  · intro returned
    rcases idle_or_claims (Service.exec calls .initial).store now.get with none | ⟨row, claims⟩
    · exact none
    · exfalso
      rcases Nat.lt_or_ge maxInteger (now.get + row.leaseDuration) with beyond | clock
      · rcases overflows row claims beyond .readWriteExisting .acknowledged with ⟨error, failed⟩
        rw [failed] at returned
        cases returned
      · rcases leases row claims clock with ⟨lease, next, done, -⟩
        rw [done] at returned
        cases returned
  · intro unclaimable
    rcases idle unclaimable with ⟨next, done, -⟩
    rw [done]
  · intro mode disposition unsettled
    exact claimNextJob_unacknowledged owner now _ unsettled

end Selection

section Exceptions

namespace Sample.Scheduling

/-- The hash function the service is built with. -/
local instance : Sha256 := ⟨Hashing.sha256⟩

/-- The shared library accepts the source of the samples. -/
local instance : TradeEvidence where
  Mutation := Unit
  mutationId _ := none
  tradeId _ := trade
  acceptsSourceId _ := true
  acceptsSourceResult _ _ _ := true
  manifest _ := none
  decode _ := none
  reduce _ _ _ _ := ⟨none, none, .missing, 0, [], [], [], [], false⟩

def second : AdmittedEvent := event 0x7a#256 0x8a#256 1000001 second_bounds

/-- A job was scheduled, and another proposal of its trade delivered. -/
def advanced : List Call := calls.take 3 ++ [
  .operation (.commitSourceResult .acknowledged source trade second.observedAt
    (readInitialState source policy trade (Service.exec (calls.take 3) .initial).store)
    (subscribedResult second))]

/-- A schedule call whose commit is not acknowledged fails and supersedes the active job. -/
theorem unacknowledged_schedule_supersedes :
    (scheduleTrade .readWriteExisting (.unacknowledged true) trade jobPolicy claimedAt
      (Service.exec advanced .initial).store).1 = .error .commitOutcomeUnknown ∧
    (Service.exec advanced .initial).store.jobs.rows.map
      (fun row => (row.inputGeneration, row.state)) = [(1, .ready)] ∧
    (scheduleTrade .readWriteExisting (.unacknowledged true) trade jobPolicy claimedAt
      (Service.exec advanced .initial).store).2.jobs.rows.map
        (fun row => (row.inputGeneration, row.state)) = [(1, .superseded), (2, .ready)] := by
  decide +kernel

def renewedAt : UnixMilliseconds := ⟨1000050000, by decide⟩

def reclaimedAt : UnixMilliseconds := ⟨1000200000, by decide⟩

/-- A scheduled job is claimed, and its lease renewed once. -/
def renewed : List Call := [
  .openReadWrite .acknowledged configuration.binding 1,
  .operation (.commitSourceResult .acknowledged source trade proposal.observedAt ⟨none, none⟩
    (subscribedResult proposal)),
  .operation (.scheduleTrade .acknowledged trade jobPolicy scheduledAt),
  .operation (.claimNext .acknowledged owner claimedAt),
  .operation (.renew .acknowledged lease renewedAt)]

theorem genuine_renewed : GenuineLeases renewed := by
  intro before disposition old now after split
  rcases before with _ | ⟨opening, _ | ⟨ingest, _ | ⟨schedule, _ | ⟨claim, before⟩⟩⟩⟩
  · simp [renewed] at split
  · simp [renewed] at split
  · simp [renewed] at split
  · simp [renewed] at split
  · simp only [renewed, List.cons_append, List.cons.injEq] at split
    rcases split with ⟨rfl, rfl, rfl, rfl, split⟩
    refine ⟨[_, _, _], _, before, rfl, ?_⟩
    rcases List.singleton_eq_append_iff.mp split with ⟨rfl, same⟩ | ⟨-, impossible⟩
    · cases same
      exact .claimed (by decide +kernel : _ = some host) (by decide +kernel)
    · cases impossible

theorem renewed_selects_first :
    SelectsFirst owner reclaimedAt (Service.exec renewed .initial).store :=
  claims_select_first genuine_renewed owner reclaimedAt

end Sample.Scheduling

end Exceptions

end Rhi
