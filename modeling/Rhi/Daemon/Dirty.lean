import Rhi.Daemon.Effects
import Rhi.Service.Jobs

/-!
# Dirty trades and their jobs

The subscription schedules the trade it made dirty in a transaction of its own; the worker and the
application of a configuration schedule nothing.  While neither of these two moves a generation,
every dirty trade has the job of its generation, or the subscription is about to schedule it.
-/

namespace Rhi

open Relational Transactional

section Coverage

/-- The job of the current generation of a trade exists. -/
def JobCovers (store : Store) (trade : TradeId) : Prop :=
  ∀ row, readDirty store trade = some row → ∃ job ∈ store.jobs.rows,
    job.tradeId = trade ∧ job.inputGeneration = row.generation ∧
      job.evidencePolicy = row.evidencePolicy

/-- The subscription is about to schedule a trade, or has returned an error. -/
def Daemon.Pending (daemon : Daemon) (trade : TradeId) : Prop :=
  ∃ running ∈ daemon.running, running.subscription = .stopped ∨
    ∃ observedAt, running.subscription = .scheduling trade observedAt

@[simp]
theorem pending_some {store : Store} {running : Running} {trade : TradeId} :
    Daemon.Pending ⟨store, some running⟩ trade ↔ running.subscription = .stopped ∨
      ∃ observedAt, running.subscription = .scheduling trade observedAt := by
  simp [Daemon.Pending]

/-- No event and no iteration of the worker is in flight. -/
def Daemon.Resting (daemon : Daemon) : Prop :=
  ∀ running ∈ daemon.running, running.worker = .idle ∧ running.subscription = .idle

/-- Every dirty trade is covered by its job or pending. -/
def Daemon.Covered (daemon : Daemon) : Prop :=
  daemon.service.Bound ∧ ∀ trade, JobCovers daemon.store trade ∨ daemon.Pending trade

end Coverage

section Steps

variable [Sha256] [TradeEvidence]

/-- A job keeps covering a trade whose row a call left alone. -/
theorem jobCovers_apply (call : Call) {service : Service} {trade : TradeId}
    (same : readDirty (service.apply call).store trade = readDirty service.store trade)
    (covers : JobCovers service.store trade) : JobCovers (service.apply call).store trade := by
  intro row read
  rw [same] at read
  rcases covers row read with ⟨job, jobMem, sameTrade, sameGeneration, samePolicy⟩
  rcases successor_apply call service jobMem with ⟨next, nextMem, -, kept | ⟨kind, -, change⟩⟩
  · rw [kept] at nextMem
    exact ⟨job, nextMem, sameTrade, sameGeneration, samePolicy⟩
  · have identity := change.sameIdentity
    exact ⟨next, nextMem, identity.2.1.trans sameTrade, identity.2.2.1.trans sameGeneration,
      identity.2.2.2.1.trans samePolicy⟩

/-- A call that neither ingests evidence nor applies a configuration leaves the dirty rows alone. -/
theorem readDirty_apply (call : Call) {service : Service} (bound : service.Bound)
    (trade : TradeId)
    (still : dirtyIncrement trade call service.store (service.apply call).store = 0) :
    readDirty (service.apply call).store trade = readDirty service.store trade :=
  ((dirty_apply call bound).2 trade).unchanged still

omit [TradeEvidence] in
/-- A scheduled trade has its job. -/
theorem jobCovers_of_scheduled {mode : HostMode} {disposition : Disposition} {trade : TradeId}
    {policy : JobPolicy} {now : UnixMilliseconds} {store : Store} {outcome : ScheduleOutcome}
    (returned : (scheduleTrade mode disposition trade policy now store).1 = .ok outcome) :
    JobCovers (scheduleTrade mode disposition trade policy now store).2 trade := by
  unfold scheduleTrade at returned ⊢
  split at returned
  · cases returned
  · rename_i writable
    rw [if_neg writable]
    have done := transaction_ok returned
    rcases schedule_spec done with ⟨dirty, read, ⟨-, same, job, jobMem, covers⟩ | ⟨-, scheduled⟩⟩
    · rw [same]
      intro row rowRead
      rw [read] at rowRead
      cases rowRead
      exact ⟨job, jobMem, covers⟩
    · rcases scheduled.inserted with ⟨middle, -, -, rows, -⟩
      intro row rowRead
      have sameDirty : (transaction mapJobError disposition (schedule trade policy now)
          store).2.dirty = store.dirty := by
        rw [scheduled.only]
      rw [readDirty_of_dirty sameDirty trade, read] at rowRead
      cases rowRead
      refine ⟨readyRow trade dirty policy now.get, ?_, rfl, rfl, rfl⟩
      rw [rows]
      exact List.mem_append_right _ (List.mem_singleton_self _)

/-- A job keeps covering a trade whose row the call of a move leaves alone. -/
theorem jobCovers_move {move : Move} {daemon : Daemon} {trade : TradeId}
    (still : ∀ call, move.call daemon = some call →
      readDirty (daemon.service.apply call).store trade = readDirty daemon.store trade)
    (covers : JobCovers daemon.store trade) : JobCovers (daemon.apply move).store trade := by
  have same : (daemon.apply move).store = ((move.call daemon).elim daemon.service fun call =>
      daemon.service.apply call).store := by
    rw [← service_apply]
    rfl
  rw [same]
  cases called : move.call daemon with
  | none => exact covers
  | some call => exact jobCovers_apply call (still call called) covers

/-- A move that leaves the dirty rows alone. -/
def Move.KeepsDirty (daemon : Daemon) (move : Move) : Prop :=
  ∀ trade, readDirty (daemon.apply move).store trade = readDirty daemon.store trade

theorem Move.KeepsDirty.call {daemon : Daemon} {move : Move} (keeps : move.KeepsDirty daemon)
    {call : Call} (called : move.call daemon = some call) (trade : TradeId) :
    readDirty (daemon.service.apply call).store trade = readDirty daemon.store trade := by
  have applied := service_apply move daemon
  rw [called, Option.elim_some] at applied
  rw [← applied]
  exact keeps trade

/-- The moves that advance no dirty generation without scheduling its trade: the worker commits
only evidence that is stored already, or a commit that leaves the dirty rows alone; a configuration
keeps the evidence policy, or leaves the dirty rows alone; and the daemon is stopped only while its
subscription neither is about to schedule a trade nor has returned an error. -/
def Move.Schedules (daemon : Daemon) : Move → Prop
  | .stop => ∀ trade, ¬daemon.Pending trade
  | .applyConfiguration opening applying current candidate appliedAt =>
      candidate.evidencePolicy = current.evidencePolicy ∨
        Move.KeepsDirty daemon (.applyConfiguration opening applying current candidate appliedAt)
  | .worker (.commitReplays disposition) =>
      (∀ running ∈ daemon.running, ∀ lease plan replays,
        running.worker = .fetching lease plan [] replays →
          ∀ entry ∈ replays, ∀ fact ∈ entry.replay.facts, fact.record.Stored daemon.store) ∨
        Move.KeepsDirty daemon (.worker (.commitReplays disposition))
  | _ => True

theorem bound_move (move : Move) {daemon : Daemon} (bound : daemon.service.Bound) :
    (daemon.apply move).service.Bound := by
  rw [service_apply]
  cases move.call daemon with
  | none => exact bound
  | some call => exact (dirty_apply call bound).1

end Steps

section Configurations

/-- Applying a configuration that keeps the evidence policy leaves the dirty rows alone. -/
theorem readDirty_of_samePolicy {opening applying : Disposition}
    {current candidate : ConfigBinding} {appliedAt : Nat} {store : Store}
    (same : candidate.evidencePolicy = current.evidencePolicy) (trade : TradeId) :
    readDirty (applyConfiguration opening applying current candidate appliedAt store).2 trade =
      readDirty store trade := by
  rcases applyConfiguration_spec opening applying current candidate appliedAt store with
    ⟨bound, opened, applied⟩
  have boundDirty : bound.dirty = store.dirty := by
    rcases opened with rfl | ⟨only, -⟩
    · rfl
    · rw [only]
  rcases applied with unchanged | changed
  · rw [unchanged]
    exact readDirty_of_dirty boundDirty trade
  · rw [changed.dirty, readDirty_of_dirty boundDirty trade, if_pos same.symm]

end Configurations

section Tasks

variable [Sha256] [TradeEvidence]

/-- A move of the worker that advances no generation unscheduled leaves the dirty rows alone. -/
theorem readDirty_of_worker {running : Running} {store : Store} {move : WorkerMove}
    {operation : Operation} (bound : Service.Bound ⟨store, some running.setting.host⟩)
    (met : Move.Schedules ⟨store, some running⟩ (.worker move))
    (performed : running.worker.operation running.setting move = some operation)
    (trade : TradeId) :
    readDirty (operation.run running.setting.host store) trade = readDirty store trade := by
  unfold Worker.operation at performed
  split at performed
  · cases performed
    exact readDirty_apply (.operation (.claimNext ..)) bound trade rfl
  · rename_i disposition lease plan replays fetching
    cases performed
    rcases met with known | keeps
    · exact readDirty_of_idle bound (.knownFacts (known running rfl lease plan replays fetching))
        trade
    · have called : Move.call (.worker (.commitReplays disposition)) ⟨store, some running⟩ =
          some (.operation (.commitSourceReplays disposition lease plan replays)) := by
        simp only [Move.call, Worker.operation, fetching, Option.map_some]
      exact keeps.call called trade
  · cases performed
    exact readDirty_apply (.operation (.commitFinalization ..)) bound trade rfl
  · rcases Option.map_eq_some_iff.mp performed with ⟨delay, -, rfl⟩
    exact readDirty_apply (.operation (.recordFailure ..)) bound trade rfl
  · cases performed

/-- An ingested event leaves its trade covered, or about to be scheduled. -/
theorem covered_of_ingest {running : Running} {store : Store} {disposition : Disposition}
    {source : SourceId} {admitted : AdmittedEvent} {initial : InitialState}
    (phase : running.subscription = .ingesting source admitted initial) {trade : TradeId}
    (covers : JobCovers store trade) :
    JobCovers (Daemon.apply (.subscription (.ingest disposition)) ⟨store, some running⟩).store
        trade ∨
      (Daemon.apply (.subscription (.ingest disposition)) ⟨store, some running⟩).Pending trade := by
  simp only [Daemon.apply, phase, Subscription.step, pending_some]
  cases committed : commitSourceResult disposition source running.setting.configuration.policy
      admitted.observedAt initial (subscribedResult admitted) store with
  | mk result next =>
      cases result with
      | error error => exact .inr (.inl rfl)
      | ok outcome =>
          rcases commitSource_parts (body_of_transaction_ok committed) with ⟨_, _, _, _, parts⟩
          have keeps : (outcome.dirtyGenerationAdvanced = true → trade ≠ admitted.event.tradeId) →
              JobCovers next trade := by
            intro still row read
            rw [parts.readDirty_still still] at read
            rw [parts.evidenceOnly]
            exact covers row read
          cases advances : outcome.dirtyGenerationAdvanced with
          | false =>
              simp only [advances, Bool.false_eq_true, if_false]
              exact .inl (keeps (by simp [advances]))
          | true =>
              simp only [advances, if_true]
              by_cases same : trade = admitted.event.tradeId
              · rw [same]
                exact .inr (.inr ⟨_, rfl⟩)
              · exact .inl (keeps fun _ => same)

/-- A scheduled trade is covered, and so is every trade that was. -/
theorem covered_of_schedule {running : Running} {store : Store} {disposition : Disposition}
    {scheduled : TradeId} {observedAt : ObservedAt}
    (bound : Service.Bound ⟨store, some running.setting.host⟩)
    (phase : running.subscription = .scheduling scheduled observedAt) {trade : TradeId}
    (covers : trade ≠ scheduled → JobCovers store trade) :
    JobCovers (Daemon.apply (.subscription (.schedule disposition)) ⟨store, some running⟩).store
        trade ∨
      (Daemon.apply (.subscription (.schedule disposition)) ⟨store, some running⟩).Pending
        trade := by
  by_cases same : trade = scheduled
  · rw [same]
    simp only [Daemon.apply, phase, Subscription.step, pending_some]
    cases unixMilliseconds (observedAt.get * 1000) with
    | none => exact .inr (.inl rfl)
    | some now =>
        dsimp only
        cases result : scheduleTrade running.setting.host.mode disposition scheduled
            running.setting.configuration.jobPolicy now store with
        | mk outcome next =>
            cases outcome with
            | error error => exact .inr (.inl rfl)
            | ok outcome =>
                left
                have covered := jobCovers_of_scheduled (congrArg Prod.fst result)
                rwa [result] at covered
  · left
    refine jobCovers_move ?_ (covers same)
    intro call called
    simp only [Move.call, phase, Subscription.operation] at called
    rcases Option.map_eq_some_iff.mp called with ⟨operation, performed, rfl⟩
    rcases Option.map_eq_some_iff.mp performed with ⟨now, -, rfl⟩
    exact readDirty_apply (.operation (.scheduleTrade ..)) bound trade rfl

/-- After a move of the subscription every trade is covered or pending. -/
theorem covered_of_subscription {running : Running} {store : Store} (move : SubscriptionMove)
    (bound : Service.Bound ⟨store, some running.setting.host⟩)
    (covered : ∀ trade, JobCovers store trade ∨ Daemon.Pending ⟨store, some running⟩ trade)
    (trade : TradeId) :
    JobCovers (Daemon.apply (.subscription move) ⟨store, some running⟩).store trade ∨
      (Daemon.apply (.subscription move) ⟨store, some running⟩).Pending trade := by
  have before := covered trade
  cases phase : running.subscription with
  | idle =>
      simp only [pending_some, phase, reduceCtorEq, exists_false, or_false] at before
      left
      refine jobCovers_move ?_ before
      intro call called
      simp only [Move.call, phase, Subscription.operation] at called
      cases move <;> cases called
  | ingesting source admitted initial =>
      simp only [pending_some, phase, reduceCtorEq, exists_false, or_false] at before
      cases move with
      | ingest => exact covered_of_ingest phase before
      | receive | schedule =>
          left
          simpa only [Daemon.apply, phase, Subscription.step] using before
  | scheduling scheduled observedAt =>
      cases move with
      | schedule =>
          refine covered_of_schedule bound phase ?_
          intro other
          rcases before with covers | pending
          · exact covers
          · simp only [pending_some, phase, reduceCtorEq, false_or] at pending
            rcases pending with ⟨_, same⟩
            cases same
            exact absurd rfl other
      | receive | ingest =>
          simpa only [Daemon.apply, phase, Subscription.step, pending_some] using before
  | stopped =>
      right
      simp [Daemon.apply, phase, Subscription.step]

/-- The step lemma: a move that advances no generation unscheduled keeps every trade covered. -/
theorem covered_apply (move : Move) (daemon : Daemon) (met : move.Schedules daemon)
    (covered : daemon.Covered) : (daemon.apply move).Covered := by
  rcases covered with ⟨bound, covered⟩
  refine ⟨bound_move move bound, ?_⟩
  intro trade
  rcases daemon with ⟨store, _ | running⟩
  · have covers : JobCovers store trade := by
      simpa [Daemon.Pending] using covered trade
    left
    refine jobCovers_move ?_ covers
    intro call called
    cases move with
    | start =>
        cases called
        exact readDirty_apply (.openReadWrite ..) bound trade rfl
    | applyConfiguration =>
        rcases met with same | keeps
        · cases called
          exact readDirty_of_samePolicy same trade
        · exact keeps.call called trade
    | _ => cases called
  · cases move with
    | start | applyConfiguration => exact covered trade
    | stop =>
        exact .inl ((covered trade).resolve_right (met trade))
    | worker move =>
        rcases covered trade with covers | pending
        · left
          refine jobCovers_move ?_ covers
          intro call called
          rcases Option.map_eq_some_iff.mp called with ⟨operation, performed, rfl⟩
          exact readDirty_of_worker bound met performed trade
        · right
          simpa [Daemon.apply] using pending
    | subscription move => exact covered_of_subscription move bound covered trade
    | progressOutbox change =>
        rcases covered trade with covers | pending
        · left
          refine jobCovers_move ?_ covers
          rintro _ ⟨⟩
          exact readDirty_apply (.operation (.progressOutbox change)) bound trade rfl
        · exact .inr pending
    | progressTargets change =>
        rcases covered trade with covers | pending
        · left
          refine jobCovers_move ?_ covers
          rintro _ ⟨⟩
          exact readDirty_apply (.operation (.progressTargets change)) bound trade rfl
        · exact .inr pending

end Tasks

section Runs

variable [Sha256] [TradeEvidence]

omit [Sha256] [TradeEvidence] in
/-- Nothing is dirty at first. -/
theorem covered_initial : Daemon.initial.Covered := by
  refine ⟨bound_initial, fun trade => .inl ?_⟩
  intro row read
  simp [Daemon.initial, Store.initial, readDirty] at read

omit [Sha256] [TradeEvidence] in
/-- Nothing is pending at rest. -/
theorem Daemon.Covered.jobCovers {daemon : Daemon} (covered : daemon.Covered)
    (resting : daemon.Resting) (trade : TradeId) : JobCovers daemon.store trade := by
  rcases covered.2 trade with covers | ⟨running, started, pending⟩
  · exact covers
  · rw [(resting running started).2] at pending
    rcases pending with stopped | ⟨observedAt, scheduling⟩
    · cases stopped
    · cases scheduling

/-- No dirty trade is forgotten: in every run whose moves advance no generation unscheduled, and in
every state of it with nothing in flight, each dirty trade has the job of its generation and
policy. -/
theorem dirty_trades_have_jobs {moves before : List Move}
    (met : Transition.Along Daemon.apply (fun daemon move => move.Schedules daemon) moves .initial)
    (reached : before <+: moves) (resting : (Daemon.exec before .initial).Resting)
    {trade : TradeId} {row : DirtyRow}
    (dirty : readDirty (Daemon.exec before .initial).store trade = some row) :
    ∃ job ∈ (Daemon.exec before .initial).store.jobs.rows, job.tradeId = trade ∧
      job.inputGeneration = row.generation ∧ job.evidencePolicy = row.evidencePolicy := by
  have covered : (Daemon.exec before .initial).Covered :=
    met.invariant_of_isPrefix (fun move daemon met covered => covered_apply move daemon met covered)
      covered_initial reached
  exact covered.jobCovers resting trade row dirty

end Runs

section Exceptions

namespace Sample

local instance : Sha256 := ⟨Hashing.sha256⟩

/-- A library that decodes the contents of the samples: a proposal is agreed once a decision on it
is known. -/
@[reducible]
def evidence : TradeEvidence where
  Mutation := List UInt8
  mutationId content :=
    if content = [123, 125] then some 0x88#256
    else if content = [50] then some 0x89#256
    else none
  tradeId _ := trade
  acceptsSourceId _ := true
  acceptsSourceResult _ _ _ := true
  manifest content := some ⟨content, [1], 0xa1#256,
    if content.sources.all fun source => source.completion == .complete then .scopeSatisfied
    else .partly⟩
  decode := some
  reduce _ mutations state _ :=
    let proposed := mutations.any fun entry => entry.2 == [123, 125]
    { rootMutation := if proposed then some 0x88#256 else none
      projectionDigest := some 0xa3#256
      evidenceState := state
      issueCount := 0
      claims := if proposed then [0x88#256] else []
      activeClaims := if proposed then [0x88#256] else []
      contestedClaims := []
      cancelledClaims := []
      agreed := proposed && mutations.any fun entry => entry.2 == [50] }

local instance : TradeEvidence := evidence

/-- An event as a relay delivers it. -/
def wire (admitted : AdmittedEvent)
    (fits : admitted.event.canonicalEventJson.length ≤ admitted.rawLength) : WireEvent where
  rawLength := admitted.rawLength
  verified := some admitted.event
  canonical_le := by
    rintro event ⟨⟩
    exact fits

/-- A decision on the proposal, authored one second later. -/
def decision : AdmittedEvent where
  event := {
    eventId := 0x78#256
    eventSignature := 0x55#512
    authorPubkey := 0x66#256
    eventKind := 3471
    authoredAt := 1000001
    mutationId := 0x89#256
    tradeId := trade
    contract := .decision
    content := [50]
    canonicalEventJson := [123, 125]
    kind_mem := by decide
    content_nonempty := by decide
    json_nonempty := proposal.event.json_nonempty }
  rawLength := 2
  observedAt := ⟨1000001, one_le_of_bounds second_bounds, le_of_bounds second_bounds⟩
  raw_positive := proposal.raw_positive
  json_le := proposal.json_le
  content_le := by decide
  authored_le := le_of_bounds second_bounds

theorem decision_fits :
    decision.event.canonicalEventJson.length ≤ decision.rawLength := by
  decide

def setting : Setting := ⟨configuration, owner, publication⟩

/-- The proposal is delivered and its trade scheduled. -/
def proposed : List Move := [
  .start .acknowledged setting 1,
  .subscription (.receive .acknowledged source (wire proposal (by decide)) 1000000),
  .subscription (.ingest .acknowledged),
  .subscription (.schedule .acknowledged)]

/-- The relay returns the decision on its only page. -/
def decisionFetched : Visit where
  started := claimedAt
  answers := [.page ⟨.complete, [⟨wire decision decision_fits, 1000001500⟩], .complete⟩]
  finished := finalizedAt

/-- The first attempt fetches the decision, which was never delivered. -/
def discovered : List Move := proposed ++ [
  .worker (.claim .acknowledged claimedAt),
  .worker (.fetch .acknowledged decisionFetched),
  .worker (.commitReplays .acknowledged),
  .worker (.prepare .acknowledged 1000002 finalizedAt),
  .worker (.recordFailure .acknowledged finalizedAt [0x8000000000000000])]

/-- The trade of a delivered event has its job. -/
theorem proposed_has_job : (Daemon.exec proposed .initial).Resting ∧
    ∃ job ∈ (Daemon.exec proposed .initial).store.jobs.rows, job.tradeId = trade ∧
      job.inputGeneration = 1 ∧ job.evidencePolicy = policy := by
  have met : Transition.Along Daemon.apply (fun daemon move => move.Schedules daemon) proposed
      .initial :=
    ⟨trivial, trivial, trivial, trivial, trivial⟩
  have started : (Daemon.exec proposed .initial).running = some ⟨setting, .idle, .idle⟩ := by
    decide +kernel
  have resting : (Daemon.exec proposed .initial).Resting := by
    intro running isRunning
    rw [started] at isRunning
    cases isRunning
    exact ⟨rfl, rfl⟩
  have dirty : readDirty (Daemon.exec proposed .initial).store trade =
      some ⟨trade, 1, policy, 1000000⟩ := by
    decide +kernel
  exact ⟨resting, dirty_trades_have_jobs met List.prefix_rfl resting dirty⟩

/-- An attempt that found new evidence ends with nothing in flight and no job for the generation
it advanced. -/
theorem discovered_without_job :
    (Daemon.exec discovered .initial).running = some ⟨setting, .idle, .idle⟩ ∧
      readDirty (Daemon.exec discovered .initial).store trade =
        some ⟨trade, 2, policy, 1000002⟩ ∧
      ∀ job ∈ (Daemon.exec discovered .initial).store.jobs.rows, job.inputGeneration ≠ 2 := by
  decide +kernel

end Sample

end Exceptions

end Rhi
