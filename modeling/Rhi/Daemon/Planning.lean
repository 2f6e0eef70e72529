import Mathlib.Data.List.Induction
import Rhi.Daemon.Worker

/-!
# Claimed jobs under a changed configuration

A job row keeps the limits of the configuration it was scheduled under.  The attempt planner accepts
a claimed job only under these limits, so that a daemon restarted with others queries no source for
it.
-/

namespace Rhi

open Relational Transactional

section Limits

/-- The limits a job row was scheduled under. -/
def JobRow.ScheduledUnder (row : JobRow) (policy : JobPolicy) : Prop :=
  row.maxAttempts = policy.maxAttempts ∧ row.leaseDuration = policy.leaseDuration ∧
    row.leaseRenewal = policy.leaseRenewal ∧ row.initialBackoff = policy.initialBackoff ∧
    row.maximumBackoff = policy.maximumBackoff

theorem JobRow.ScheduledUnder.kept {old new : JobRow} {policy : JobPolicy}
    (scheduled : old.ScheduledUnder policy) (same : old.SameIdentity new) :
    new.ScheduledUnder policy := by
  rcases scheduled with ⟨attempts, duration, renewal, initial, maximum⟩
  rcases same with
    ⟨-, -, -, -, sameAttempts, sameDuration, sameRenewal, sameInitial, sameMaximum, -⟩
  exact ⟨sameAttempts.trans attempts, sameDuration.trans duration, sameRenewal.trans renewal,
    sameInitial.trans initial, sameMaximum.trans maximum⟩

variable [Sha256] [TradeEvidence]

/-- A move of a run schedules a trade under the configuration of the daemon that makes it. -/
structure SchedulesTrade (moves : List Move) (trade : TradeId) (setting : Setting) : Prop where
  scheduled : ∃ before disposition observedAt rest running,
    moves = before ++ .subscription (.schedule disposition) :: rest ∧
    (Daemon.exec before .initial).running = some running ∧ running.setting = setting ∧
    running.subscription = .scheduling trade observedAt

omit [Sha256] [TradeEvidence] in
theorem schedule_of_operation {setting : Setting} {move : SubscriptionMove}
    {subscription : Subscription} {disposition : Disposition} {trade : TradeId}
    {policy : JobPolicy} {now : UnixMilliseconds}
    (performs : subscription.operation setting move =
      some (.scheduleTrade disposition trade policy now)) :
    move = .schedule disposition ∧ policy = setting.configuration.jobPolicy ∧
      ∃ observedAt, subscription = .scheduling trade observedAt := by
  unfold Subscription.operation at performs
  split at performs
  · cases performs
  · rename_i scheduledTrade observedAt
    rcases Option.map_eq_some_iff.mp performs with ⟨instant, -, same⟩
    cases same
    exact ⟨rfl, rfl, observedAt, rfl⟩
  · cases performs

omit [Sha256] [TradeEvidence] in
/-- Only the subscription of a running daemon schedules a trade. -/
theorem schedule_of_call {move : Move} {daemon : Daemon} {disposition : Disposition}
    {trade : TradeId} {policy : JobPolicy} {now : UnixMilliseconds}
    (calls : move.call daemon = some (.operation (.scheduleTrade disposition trade policy now))) :
    move = .subscription (.schedule disposition) ∧ ∃ running observedAt,
      daemon.running = some running ∧ policy = running.setting.configuration.jobPolicy ∧
      running.subscription = .scheduling trade observedAt := by
  unfold Move.call at calls
  split at calls
  · cases calls
  · cases calls
  · cases calls
  · rename_i move running started
    rcases Option.map_eq_some_iff.mp calls with ⟨operation, performs, same⟩
    cases same
    unfold Worker.operation at performs
    split at performs
    · cases performs
    · cases performs
    · cases performs
    · rcases Option.map_eq_some_iff.mp performs with ⟨delay, -, impossible⟩
      cases impossible
    · cases performs
  · rename_i move running started
    rcases Option.map_eq_some_iff.mp calls with ⟨operation, performs, same⟩
    cases same
    rcases schedule_of_operation performs with ⟨rfl, rfl, observedAt, scheduling⟩
    exact ⟨rfl, running, observedAt, started, rfl, scheduling⟩
  · cases calls
  · cases calls
  · cases calls

/-- A row of a job that a move left behind was there before it, or the move scheduled it. -/
theorem origin_of_move {move : Move} {daemon : Daemon} {row : JobRow}
    (rowMem : row ∈ (daemon.apply move).store.jobs.rows) :
    (∃ old ∈ daemon.store.jobs.rows, old.SameIdentity row) ∨
      ∃ disposition running observedAt, move = .subscription (.schedule disposition) ∧
        daemon.running = some running ∧
        running.subscription = .scheduling row.tradeId observedAt ∧
        row.ScheduledUnder running.setting.configuration.jobPolicy := by
  have applied := congrArg Service.store (service_apply move daemon)
  change (daemon.apply move).store = _ at applied
  rw [applied] at rowMem
  cases called : move.call daemon with
  | none =>
      rw [called] at rowMem
      exact .inl ⟨row, rowMem, by simp [JobRow.SameIdentity]⟩
  | some call =>
      rw [called] at rowMem
      have kept : ∀ {kinds : List StepKind} {after : List JobRow},
          JobsRewritten kinds daemon.store.jobs.rows after → row ∈ after →
          ∃ old ∈ daemon.store.jobs.rows, old.SameIdentity row := by
        intro kinds after rewritten afterMem
        rcases rewritten.origin afterMem with ⟨old, oldMem, -, same | ⟨kind, -, change⟩⟩
        · exact ⟨old, oldMem, by simp [JobRow.SameIdentity, same]⟩
        · exact ⟨old, oldMem, change.sameIdentity⟩
      cases jobsStep_apply call daemon.service with
      | rewritten rows => exact .inl (kept rows rowMem)
      | inserted scheduled =>
          rcases scheduled.inserted with ⟨middle, rewritten, -, rows, -⟩
          rw [Option.elim_some, rows, List.mem_append, List.mem_singleton] at rowMem
          rcases rowMem with old | new
          · exact .inl (kept rewritten old)
          · rcases schedule_of_call called with ⟨rfl, running, observedAt, started, rfl, scheduling⟩
            rw [new]
            exact .inr ⟨_, running, observedAt, rfl, started, scheduling, rfl, rfl, rfl, rfl, rfl⟩

/-- Every job was scheduled under the limits it carries, by a daemon that ran earlier. -/
theorem scheduled_of_mem (moves : List Move) {row : JobRow}
    (rowMem : row ∈ (Daemon.exec moves .initial).store.jobs.rows) :
    ∃ setting, SchedulesTrade moves row.tradeId setting ∧
      row.ScheduledUnder setting.configuration.jobPolicy := by
  induction moves using List.reverseRecOn generalizing row with
  | nil => simp [Daemon.exec, Daemon.initial, Store.initial] at rowMem
  | append_singleton moves move ih =>
      have stepped : Daemon.exec (moves ++ [move]) .initial =
          (Daemon.exec moves .initial).apply move := by
        simp [Daemon.exec]
      rw [stepped] at rowMem
      rcases origin_of_move rowMem with ⟨old, oldMem, same⟩ |
        ⟨disposition, running, observedAt, rfl, started, scheduling, limits⟩
      · rcases ih oldMem with
          ⟨setting, ⟨before, disposition, observedAt, rest, running, rfl, facts⟩, scheduled⟩
        refine ⟨setting, ⟨before, disposition, observedAt, rest ++ [move], running, by simp, ?_⟩,
          scheduled.kept same⟩
        rw [same.2.1]
        exact facts
      · exact ⟨running.setting, ⟨moves, disposition, observedAt, [], running, rfl, started, rfl,
          scheduling⟩, limits⟩

end Limits

section Planning

variable [Sha256]

/-- A claimed lease is an unexpired lease of the attempt the claim counted. -/
theorem attempt_of_claimNext {owner : LeaseOwner} {now : UnixMilliseconds} {store next : Store}
    {lease : Lease} (done : claimNext owner now store = .ok (some lease, next)) :
    lease.job.attemptCount ≠ 0 ∧ now.get < lease.leaseExpires.get := by
  rcases row_of_claimNext done with ⟨-, row, duration, id, revision, positive, read⟩
  have encoded := toRow_of_decodeJob read.decoded
  have counted : lease.job.attemptCount = row.attemptCount + 1 :=
    congrArg JobRow.attemptCount encoded
  have expires : lease.job.leaseExpires.map (·.get) = some (now.get + duration) :=
    congrArg JobRow.leaseExpires encoded
  rw [read.expires, Option.map_some, Option.some.injEq] at expires
  omega

/-- The planner accepts the sources of a configuration whenever the deadline of the attempt is in
the future. -/
theorem sourceRequests_total (job : Job) {startedAt deadline : Nat} (later : startedAt < deadline)
    {sources : List SourceConfiguration}
    (inRange : ∀ source ∈ sources, startedAt + source.deadline ≤ maxInteger) :
    ∃ requests, sourceRequests job startedAt deadline sources = .ok requests := by
  induction sources with
  | nil => exact ⟨[], rfl⟩
  | cons source rest ih =>
      rcases ih fun other otherMem => inRange other (List.mem_cons_of_mem _ otherMem) with
        ⟨requests, planned⟩
      have bounds := source.deadline_bounds
      have limited : absoluteDeadline startedAt source.deadline deadline =
          .ok (min (startedAt + source.deadline) deadline) := by
        have fits := inRange source List.mem_cons_self
        have future : startedAt < min (startedAt + source.deadline) deadline := by omega
        simp [absoluteDeadline, fits, future, require, bind, Except.bind, pure, Except.pure]
      simp [sourceRequests, sourceRequest, limited, planned, bind, Except.bind, pure, Except.pure]

/-- A leased job is planned at any time before its lease expires, under its own policies and with
clocks in range. -/
theorem fromClaim_total {lease : Lease} {configuration : Configuration}
    {startedAt : UnixMilliseconds} (leased : lease.job.state = .leased)
    (attempted : lease.job.attemptCount ≠ 0) (unexpired : startedAt.get < lease.leaseExpires.get)
    (samePolicy : configuration.policy = lease.job.policyDigest)
    (limits : lease.job.attemptPolicyMatches configuration.jobPolicy = true)
    (short : configuration.attemptDeadline ≤ 30000)
    (clock : startedAt.get + configuration.attemptDeadline ≤ maxInteger) :
    ∃ plan, AttemptPlan.fromClaim lease configuration startedAt = .ok plan := by
  have positive := configuration.attempt_bounds
  have later : startedAt.get <
      min (startedAt.get + configuration.attemptDeadline) lease.leaseExpires.get := by omega
  have deadline : absoluteDeadline startedAt.get configuration.attemptDeadline
      lease.leaseExpires.get =
        .ok (min (startedAt.get + configuration.attemptDeadline) lease.leaseExpires.get) := by
    simp [absoluteDeadline, clock, later, require, bind, Except.bind, pure, Except.pure]
  have inRange : ∀ source ∈ configuration.sources,
      startedAt.get + source.deadline ≤ maxInteger := by
    intro source sourceMem
    have bounded := configuration.sources_deadline source sourceMem
    omega
  rcases sourceRequests_total lease.job later inRange with ⟨requests, planned⟩
  simp [AttemptPlan.fromClaim, leased, attempted, unexpired, samePolicy, limits, short, deadline,
    planned, require, bind, Except.bind, pure, Except.pure]

/-- Under the policy of the job, and with clocks in range, the limits of the job decide whether its
attempt is planned. -/
theorem fromClaim_of_claimed {owner : LeaseOwner} {now : UnixMilliseconds} {store next : Store}
    {lease : Lease} {configuration : Configuration}
    (done : claimNext owner now store = .ok (some lease, next))
    (samePolicy : configuration.policy = lease.job.policyDigest)
    (short : configuration.attemptDeadline ≤ 30000)
    (clock : now.get + configuration.attemptDeadline ≤ maxInteger) :
    if lease.job.attemptPolicyMatches configuration.jobPolicy then
      ∃ plan, AttemptPlan.fromClaim lease configuration now = .ok plan
    else
      AttemptPlan.fromClaim lease configuration now = .error .policyMismatch := by
  rcases (row_of_claimNext done).2 with ⟨row, duration, id, revision, -, read⟩
  rcases attempt_of_claimNext done with ⟨attempted, unexpired⟩
  cases limits : lease.job.attemptPolicyMatches configuration.jobPolicy with
  | true =>
      simpa using fromClaim_total read.leased attempted unexpired samePolicy limits short clock
  | false =>
      simp [AttemptPlan.fromClaim, read.leased, attempted, unexpired, samePolicy, limits, require,
        bind, Except.bind]

variable [TradeEvidence]

/-- Over every history of configurations, an attempt of a claimed job of the current evidence policy
is planned exactly when the job was scheduled under the current limits.  Otherwise the planner
reports the mismatch and the worker queries no source. -/
theorem claimed_job_planned (moves : List Move) {current : Setting} {disposition : Disposition}
    {now : UnixMilliseconds} {lease : Lease}
    (claimed : (claimNextJob current.host.mode disposition current.owner now
      (Daemon.exec moves .initial).store).1 = .ok (some lease))
    (samePolicy : current.configuration.policy = lease.job.policyDigest)
    (short : current.configuration.attemptDeadline ≤ 30000)
    (clock : now.get + current.configuration.attemptDeadline ≤ maxInteger) :
    (∃ setting, SchedulesTrade moves lease.job.tradeId setting ∧
      lease.job.attemptPolicyMatches setting.configuration.jobPolicy = true) ∧
    if lease.job.attemptPolicyMatches current.configuration.jobPolicy then
      ∃ plan, AttemptPlan.fromClaim lease current.configuration now = .ok plan ∧
        Worker.claimed current.configuration now (.ok (some lease)) =
          .fetching lease plan plan.requests []
    else
      AttemptPlan.fromClaim lease current.configuration now = .error .policyMismatch ∧
        Worker.claimed current.configuration now (.ok (some lease)) = .failing lease := by
  simp only [claimNextJob, Setting.host, ne_eq, not_true_eq_false, if_false] at claimed
  have done := transaction_ok claimed
  constructor
  · rcases claimNext_spec done with ⟨-, rewritten, readFrom⟩
    rcases readFrom lease rfl with ⟨row, rowMem, read⟩
    have encoded := toRow_of_decodeJob read.decoded
    rcases rewritten.origin rowMem with ⟨old, oldMem, -, kept⟩
    have same : old.SameIdentity row := by
      rcases kept with rfl | ⟨kind, -, change⟩
      · simp [JobRow.SameIdentity]
      · exact change.sameIdentity
    rcases scheduled_of_mem moves oldMem with ⟨setting, schedules, limits⟩
    rcases limits.kept same with ⟨attempts, duration, renewal, initial, maximum⟩
    rw [← same.2.1, ← encoded] at schedules
    rw [← encoded] at attempts duration renewal initial maximum
    refine ⟨setting, schedules, ?_⟩
    simp only [Job.attemptPolicyMatches, Bool.and_eq_true, beq_iff_eq]
    exact ⟨⟨⟨⟨duration, renewal⟩, attempts⟩, initial⟩, maximum⟩
  · have planned := fromClaim_of_claimed done samePolicy short clock
    split at planned
    · rename_i limits
      rcases planned with ⟨plan, accepted⟩
      rw [if_pos limits]
      exact ⟨plan, accepted, by simp [Worker.claimed, accepted]⟩
    · rename_i limits
      rw [if_neg limits]
      exact ⟨planned, by simp [Worker.claimed, planned]⟩

end Planning

section Exceptions

namespace Sample

local instance : Sha256 := ⟨Hashing.sha256⟩

local instance : TradeEvidence := evidence

/-- Another configuration of the same evidence policy, which allows more attempts. -/
def moreAttempts : Configuration :=
  { configuration with
    binding := binding 0x9a#256 policy
    jobPolicy := { jobPolicy with maxAttempts := 5, valid := by decide } }

/-- The job is scheduled under the first configuration and claimed under the second, three times. -/
def outlived : List Move := proposed ++ [
  .stop,
  .applyConfiguration .acknowledged .acknowledged configuration.binding moreAttempts.binding 2,
  .start .acknowledged { setting with configuration := moreAttempts } 2,
  .worker (.claim .acknowledged claimedAt),
  .worker (.recordFailure .acknowledged finalizedAt [0x8000000000000000]),
  .worker (.claim .acknowledged ⟨1000010000, by decide⟩),
  .worker (.recordFailure .acknowledged ⟨1000011000, by decide⟩ [0x8000000000000000]),
  .worker (.claim .acknowledged ⟨1000020000, by decide⟩)]

/-- The attempt of a job claimed under the configuration it was scheduled under is planned. -/
theorem claimed_proposal_planned :
    ∃ plan, AttemptPlan.fromClaim lease configuration claimedAt = .ok plan := by
  have claimed : (claimNextJob setting.host.mode .acknowledged setting.owner claimedAt
      (Daemon.exec proposed .initial).store).1 = .ok (some lease) := by
    decide +kernel
  have samePolicy : setting.configuration.policy = lease.job.policyDigest := rfl
  have planned := (claimed_job_planned proposed claimed samePolicy (by decide) (by decide)).2
  have limits : lease.job.attemptPolicyMatches setting.configuration.jobPolicy = true := by
    decide +kernel
  rw [if_pos limits] at planned
  rcases planned with ⟨plan, accepted, -⟩
  exact ⟨plan, accepted⟩

/-- A job that outlives a change of the attempt limits is never planned, and its last attempt
exhausts it although no source was ever queried. -/
theorem outlived_job_exhausted :
    ((Daemon.exec outlived .initial).running.bind fun running => running.worker.lease).map
        (fun lease => (lease.job.policyDigest,
          AttemptPlan.fromClaim lease moreAttempts ⟨1000020000, by decide⟩)) =
      some (moreAttempts.policy, .error .policyMismatch) ∧
    (Daemon.exec (outlived ++ [.worker (.recordFailure .acknowledged ⟨1000021000, by decide⟩
      [0x8000000000000000])]) .initial).store.jobs.rows.map (fun row => row.state) = [.exhausted] ∧
    (Daemon.exec (outlived ++ [.worker (.recordFailure .acknowledged ⟨1000021000, by decide⟩
      [0x8000000000000000])]) .initial).store.attempts.rows = [] := by
  decide +kernel

end Sample

end Exceptions

end Rhi
