import Rhi.Service
import Rhi.Configuration.Effects
import Rhi.Finalization.Effects

/-!
# What a call can do

`Effect` says, for every operation, what the store may look like afterwards, whatever the commit of
its transaction reported.  Every invariant of the service is derived from it by cases.
-/

namespace Rhi

open Relational Transactional

theorem trade_of_admitsReplays {lease : Lease} {plan : AttemptPlan} {replays : List SealedReplay}
    (admitted : admitsReplays lease plan (replays.map (·.replay)) = true) :
    ∀ replay ∈ replays.map (·.replay), ∀ fact ∈ replay.facts,
      fact.record.tradeId = lease.job.tradeId := by
  intro replay replayMem fact factMem
  simp only [admitsReplays, Bool.and_eq_true, beq_iff_eq] at admitted
  rcases admitted with ⟨⟨⟨⟨⟨sameLength, -⟩, -⟩, -⟩, -⟩, matched⟩
  have lengths : (replays.map (·.replay)).length ≤ plan.requests.length := sameLength.le
  rw [← List.map_fst_zip lengths] at replayMem
  rcases List.mem_map.mp replayMem with ⟨pair, pairMem, rfl⟩
  have agrees := List.all_eq_true.mp matched pair pairMem
  simp only [replayMatches, Bool.and_eq_true, beq_iff_eq] at agrees
  have planned : pair.1.plan.tradeId = lease.job.tradeId := agrees.1.1.1.1.1.2
  rw [List.map_fst_zip lengths] at replayMem
  rcases List.mem_map.mp replayMem with ⟨sealedReplay, -, same⟩
  rw [← planned]
  have factTrade := sealedReplay.same_trade fact (by rw [same]; exact factMem)
  rw [same] at factTrade
  exact factTrade

variable [Sha256]

/-- The stores an operation of a host may leave behind. -/
inductive Effect (host : Host) (before : Store) : Operation → Store → Prop where
  | unchanged (operation : Operation) : Effect host before operation before
  | scheduled {disposition : Disposition} {trade : TradeId} {policy : JobPolicy}
      {now : UnixMilliseconds} {dirty : DirtyRow} {after : Store}
      (read : readDirty before trade = some dirty)
      (scheduled : Scheduled trade policy now.get dirty before after) :
      Effect host before (.scheduleTrade disposition trade policy now) after
  | claimed {disposition : Disposition} {owner : LeaseOwner} {now : UnixMilliseconds}
      {after : Store} (only : JobsOnly before after)
      (rewritten : JobsRewritten [.expiry, .claim] before.jobs.rows after.jobs.rows) :
      Effect host before (.claimNext disposition owner now) after
  | renewed {disposition : Disposition} {lease : Lease} {now : UnixMilliseconds} {after : Store}
      (only : JobsOnly before after)
      (rewritten : JobsRewritten [.renewal] before.jobs.rows after.jobs.rows) :
      Effect host before (.renew disposition lease now) after
  | failed {disposition : Disposition} {lease : Lease} {now : UnixMilliseconds}
      {delay : RetryDelay} {after : Store} (only : JobsOnly before after)
      (rewritten : JobsRewritten [.failure] before.jobs.rows after.jobs.rows) :
      Effect host before (.recordFailure disposition lease now delay) after
  | ingested {disposition : Disposition} {source : SourceId} {trade : TradeId}
      {observedAt : ObservedAt} {initial : InitialState} {fetched : FetchedSource trade}
      {outcome : IngestOutcome} {persisted advanced after : Store} {mutations events : Nat}
      (parts : SourceCommitted source host.binding.evidencePolicy observedAt initial fetched before
        after outcome persisted advanced mutations events) :
      Effect host before (.commitSourceResult disposition source trade observedAt initial fetched)
        after
  | committed {disposition : Disposition} {lease : Lease} {plan : AttemptPlan}
      {replays : List SealedReplay} {outcome : RawCommitOutcome} {after : Store}
      (created : AttemptCreated lease plan (replays.map (·.replay)) outcome before after) :
      Effect host before (.commitSourceReplays disposition lease plan replays) after
  | finalized {disposition : Disposition} {attestation : Attestation}
      {publication : PublicationAuthority} {now : UnixMilliseconds} {record : FinalizationRecord}
      {after : Store}
      (made : FinalizationRecord.fromInputs attestation publication now = some record)
      (absent : footprint record.attestation before = 0)
      (created : FinalizationCreated record before after) :
      Effect host before (.commitFinalization disposition attestation publication now) after
  | outboxProgressed {change : Change OutboxRow} {outbox : Table publicationOutbox}
      {affected : Nat} (updated : before.outbox.update change = some (outbox, affected)) :
      Effect host before (.progressOutbox change) { before with outbox }
  | targetsProgressed {change : Change TargetRow} {targets : Table publicationTargets}
      {affected : Nat} (updated : before.targets.update change = some (targets, affected)) :
      Effect host before (.progressTargets change) { before with targets }

section Operations

theorem scheduleTrade_effect (host : Host) (disposition : Disposition) (trade : TradeId)
    (policy : JobPolicy) (now : UnixMilliseconds) (store : Store) :
    Effect host store (.scheduleTrade disposition trade policy now)
      (scheduleTrade host.mode disposition trade policy now store).2 := by
  unfold scheduleTrade
  split
  · exact .unchanged _
  · rcases transaction_store mapJobError disposition (schedule trade policy now) store
      with same | ⟨outcome, next, done, same⟩
    · rw [same]
      exact .unchanged _
    · rw [same]
      rcases schedule_spec done with ⟨dirty, read, found | inserted⟩
      · rw [found.2.1]
        exact .unchanged _
      · exact .scheduled read inserted.2

theorem claimNextJob_effect (host : Host) (disposition : Disposition) (owner : LeaseOwner)
    (now : UnixMilliseconds) (store : Store) :
    Effect host store (.claimNext disposition owner now)
      (claimNextJob host.mode disposition owner now store).2 := by
  unfold claimNextJob
  split
  · exact .unchanged _
  · rcases transaction_store mapJobError disposition (claimNext owner now) store
      with same | ⟨claimed, next, done, same⟩
    · rw [same]
      exact .unchanged _
    · rw [same]
      rcases claimNext_spec done with ⟨only, rewritten, -⟩
      exact .claimed only rewritten

theorem renew_effect (host : Host) (disposition : Disposition) (lease : Lease)
    (now : UnixMilliseconds) (store : Store) :
    Effect host store (.renew disposition lease now)
      (renew host.mode disposition lease now store).2 := by
  unfold renew
  split
  · exact .unchanged _
  · split
    · exact .unchanged _
    · split
      · exact .unchanged _
      · rcases transaction_store mapJobError disposition (renewLease lease now) store
          with same | ⟨renewed, next, done, same⟩
        · rw [same]
          exact .unchanged _
        · rw [same]
          rcases renewLease_spec done with ⟨only, rewritten, -⟩
          exact .renewed only rewritten

theorem recordFailure_effect (host : Host) (disposition : Disposition) (lease : Lease)
    (now : UnixMilliseconds) (delay : RetryDelay) (store : Store) :
    Effect host store (.recordFailure disposition lease now delay)
      (recordFailure host.mode disposition lease now delay store).2 := by
  unfold recordFailure
  split
  · exact .unchanged _
  · split
    · exact .unchanged _
    · split
      · exact .unchanged _
      · rcases transaction_store mapJobError disposition
          (recordFailureJob lease now delay) store with same | ⟨job, next, done, same⟩
        · rw [same]
          exact .unchanged _
        · rw [same]
          rcases recordFailureJob_spec done with ⟨only, rewritten, -⟩
          exact .failed only rewritten

theorem commitSourceResult_effect (host : Host) (disposition : Disposition) (source : SourceId)
    {trade : TradeId} (observedAt : ObservedAt) (initial : InitialState)
    (fetched : FetchedSource trade) (store : Store) :
    Effect host store (.commitSourceResult disposition source trade observedAt initial fetched)
      (commitSourceResult disposition source host.binding.evidencePolicy observedAt initial fetched
        store).2 := by
  unfold commitSourceResult
  rcases transaction_store mapIngestError disposition
    (commitSource source host.binding.evidencePolicy observedAt initial fetched) store
    with same | ⟨outcome, next, done, same⟩
  · rw [same]
    exact .unchanged _
  · rw [same]
    rcases commitSource_parts done with ⟨persisted, advanced, mutations, events, parts⟩
    exact .ingested parts

theorem commitFinalization_effect (host : Host) (disposition : Disposition)
    (attestation : Attestation) (publication : PublicationAuthority) (now : UnixMilliseconds)
    (store : Store) :
    Effect host store (.commitFinalization disposition attestation publication now)
      (commitFinalization host disposition attestation publication now store).2 := by
  unfold commitFinalization
  split
  · exact .unchanged _
  · split
    · exact .unchanged _
    · split
      · exact .unchanged _
      · rename_i record made
        rcases transaction_store mapFinalizationError disposition (finalize record)
          store with same | ⟨outcome, next, done, same⟩
        · rw [same]
          exact .unchanged _
        · rw [same]
          rcases finalize_spec done with found | ⟨-, absent, created⟩
          · rw [found.2.1]
            exact .unchanged _
          · exact .finalized made absent created

variable [TradeEvidence]

theorem commitSourceReplays_effect (host : Host) (disposition : Disposition) (lease : Lease)
    (plan : AttemptPlan) (replays : List SealedReplay) (store : Store) :
    Effect host store (.commitSourceReplays disposition lease plan replays)
      (commitSourceReplays host.mode disposition lease plan replays store).2 := by
  unfold commitSourceReplays
  simp only
  split
  · exact .unchanged _
  · split
    · rename_i admitted
      split
      · exact .unchanged _
      · rcases transaction_store mapCommitError disposition
          (commitAttempt lease plan (replays.map (·.replay))) store
          with same | ⟨outcome, next, done, same⟩
        · simp only [same]
          exact .unchanged _
        · simp only [same]
          rcases commitAttempt_spec (trade_of_admitsReplays admitted) done with found | created
          · rw [found.2.1]
            exact .unchanged _
          · exact .committed created.2
    · exact .unchanged _

/-- Every operation has one of the listed effects. -/
theorem run_effect (operation : Operation) (host : Host) (store : Store) :
    Effect host store operation (operation.run host store) := by
  cases operation with
  | scheduleTrade disposition trade policy now =>
      exact scheduleTrade_effect host disposition trade policy now store
  | claimNext disposition owner now => exact claimNextJob_effect host disposition owner now store
  | renew disposition lease now => exact renew_effect host disposition lease now store
  | recordFailure disposition lease now delay =>
      exact recordFailure_effect host disposition lease now delay store
  | commitSourceResult disposition source trade observedAt initial fetched =>
      simp only [Operation.run]
      split
      · exact commitSourceResult_effect host disposition source observedAt initial fetched store
      · exact .unchanged _
  | commitSourceReplays disposition lease plan replays =>
      exact commitSourceReplays_effect host disposition lease plan replays store
  | commitFinalization disposition attestation publication now =>
      exact commitFinalization_effect host disposition attestation publication now store
  | progressOutbox change =>
      simp only [Operation.run]
      split
      · rename_i outbox affected writable updated
        exact .outboxProgressed updated
      · exact .unchanged _
  | progressTargets change =>
      simp only [Operation.run]
      split
      · rename_i targets affected writable updated
        exact .targetsProgressed updated
      · exact .unchanged _

end Operations

section Opening

omit [Sha256]

/-- Opening a store for writing binds it, or leaves nothing open. -/
theorem openReadWrite_spec {disposition : Disposition} {binding : ConfigBinding} {appliedAt : Nat}
    {store next : Store} {host : Option Host}
    (opened : openReadWrite disposition binding appliedAt store = (host, next)) :
    (next = store ∨ (BindingsOnly store next ∧ latestBinding next = some binding ∧
      ∀ latest ∈ latestBinding store, latest.evidencePolicy = binding.evidencePolicy)) ∧
    ∀ opened ∈ host, opened = ⟨.readWriteExisting, binding⟩ ∧
      latestBinding next = some binding := by
  unfold openReadWrite at opened
  have stored := transaction_store mapConfigError disposition
    (bindOrVerify binding appliedAt) store
  have value : ∀ done, (transaction mapConfigError disposition (bindOrVerify binding appliedAt)
      store).1 = .ok done → bindOrVerify binding appliedAt store = .ok (done,
        (transaction mapConfigError disposition (bindOrVerify binding appliedAt) store).2) :=
    fun _ returned => transaction_ok returned
  cases result : transaction mapConfigError disposition (bindOrVerify binding appliedAt) store with
  | mk outcome final =>
      rw [result] at opened stored value
      have effect : final = store ∨ (BindingsOnly store final ∧
          latestBinding final = some binding ∧
          ∀ latest ∈ latestBinding store, latest.evidencePolicy = binding.evidencePolicy) := by
        rcases stored with same | ⟨done, final', bound, same⟩
        · exact .inl same
        · simp only at same
          rw [same]
          exact .inr (bindOrVerify_spec bound)
      cases outcome with
      | error error =>
          simp only [Prod.mk.injEq] at opened
          rcases opened with ⟨rfl, rfl⟩
          exact ⟨effect, by simp⟩
      | ok done =>
          simp only [Prod.mk.injEq] at opened
          rcases opened with ⟨rfl, rfl⟩
          refine ⟨effect, ?_⟩
          intro host hostMem
          cases hostMem
          exact ⟨rfl, (bindOrVerify_spec (value done rfl)).2.1⟩

theorem openInspection_spec {binding : ConfigBinding} {store : Store} {host : Host}
    (opened : openInspection binding store = some host) :
    host = ⟨.readOnlyInspection, binding⟩ ∧ latestBinding store = some binding := by
  unfold openInspection at opened
  cases verified : verifyBinding binding store with
  | error error => simp [verified] at opened
  | ok done =>
      simp only [verified, Option.some.injEq] at opened
      simp only [verifyBinding, bind_eq_ok, orError_eq_ok, require_eq_ok, beq_iff_eq] at verified
      rcases verified with ⟨history, read, actual, last, same⟩
      rw [readHistory_spec read] at last
      exact ⟨opened.symm, by simp [latestBinding, last, same]⟩

/-- What applying a configuration may leave behind: nothing, the binding of an upgrade, or the
candidate on top of it. -/
theorem applyConfiguration_spec (opening applying : Disposition)
    (current candidate : ConfigBinding) (appliedAt : Nat) (store : Store) :
    ∃ bound, (bound = store ∨ (BindingsOnly store bound ∧ latestBinding bound = some current ∧
        ∀ latest ∈ latestBinding store, latest.evidencePolicy = current.evidencePolicy)) ∧
      ((applyConfiguration opening applying current candidate appliedAt store).2 = bound ∨
        ConfigurationApplied current candidate appliedAt bound
          (applyConfiguration opening applying current candidate appliedAt store).2) := by
  unfold applyConfiguration
  cases opened : openReadWrite opening current appliedAt store with
  | mk host bound =>
      refine ⟨bound, (openReadWrite_spec opened).1, ?_⟩
      cases host with
      | none => exact .inl rfl
      | some host =>
          simp only
          rcases transaction_store mapConfigError applying
            (appendConfiguration current candidate appliedAt) bound
            with same | ⟨outcome, next, done, same⟩
          · exact .inl same
          · rw [same]
            rcases appendConfiguration_spec done with unchanged | applied
            · exact .inl unchanged.2.1
            · exact .inr applied.2

end Opening

section Calls

variable [TradeEvidence]

/-- A call is an operation of the open host, or touches only the bindings and the dirty rows. -/
theorem apply_cases (call : Call) (service : Service) :
    (∃ operation host, call = .operation operation ∧ service.host = some host ∧
      service.apply call = ⟨operation.run host service.store, some host⟩) ∨
    (service.apply call).store = { service.store with
      configBindings := (service.apply call).store.configBindings
      dirty := (service.apply call).store.dirty } := by
  unfold Service.apply
  split
  · rename_i disposition binding appliedAt closed
    right
    cases opened : openReadWrite disposition binding appliedAt service.store with
    | mk host next =>
        rcases (openReadWrite_spec opened).1 with same | ⟨only, -⟩
        · simp only [same]
        · simp only
          rw [only]
  · exact .inr rfl
  · exact .inr rfl
  · rename_i opening applying current candidate appliedAt closed
    right
    rcases applyConfiguration_spec opening applying current candidate appliedAt service.store with
      ⟨bound, opened, applied⟩
    have boundOnly : BindingsOnly service.store bound := by
      rcases opened with rfl | ⟨only, -⟩
      · rfl
      · exact only
    rcases applied with same | changed
    · rw [same, boundOnly]
    · rw [changed.only, boundOnly]
  · rename_i operation host open_
    exact .inl ⟨operation, host, rfl, open_, rfl⟩
  · exact .inr rfl

end Calls

end Rhi
