import Rhi.Service.Jobs
import Rhi.Finalization.Durable
import Rhi.Lib.Hashing

/-!
# Finalizations over whole runs

A finalization that was created stays durable, whatever is called afterwards, and a durable
finalization is recognised by every later call with the same attestation and authority.  The only
errors that may hide a change are those of a commit whose acknowledgement was lost.
-/

namespace Rhi

open Relational Transactional

section Steps

/-- Calls that leave the rows of the finalizations alone persist them. -/
theorem Persisted.of_frame {before after : Store}
    (only : after = { before with
      configBindings := after.configBindings, mutations := after.mutations
      events := after.events, observations := after.observations
      checkpoints := after.checkpoints, dirty := after.dirty, jobs := after.jobs })
    (completed : ∀ row ∈ before.jobs.rows, row.state = .completed → row ∈ after.jobs.rows) :
    Persisted before after := by
  have kept := Persisted.refl before
  rw [only]
  exact ⟨kept.manifests, kept.projections, kept.reports, kept.signedEvents, kept.attempts,
    completed, kept.attemptSources, kept.outbox, kept.targets⟩

theorem OutboxRow.sameIdentity_of_guard {old new : OutboxRow}
    (guarded : publicationOutbox.guardUpdate old new = true) : old.SameIdentity new := by
  simp only [publicationOutbox, Bool.and_eq_true, decide_eq_true_eq] at guarded
  exact guarded.1.1.1

theorem TargetRow.sameIdentity_of_guard {old new : TargetRow}
    (guarded : publicationTargets.guardUpdate old new = true) : old.SameIdentity new := by
  simp only [publicationTargets, Bool.and_eq_true, decide_eq_true_eq] at guarded
  exact ⟨guarded.1.1, guarded.1.2.1, guarded.1.2.2.1, guarded.1.2.2.2.1⟩

variable [Sha256]

theorem Persisted.of_created {record : FinalizationRecord} {before after : Store}
    (created : FinalizationCreated record before after)
    (completed : ∀ row ∈ before.jobs.rows, row.state = .completed → row ∈ after.jobs.rows) :
    Persisted before after := by
  have inserted := created.inserted
  have attempts : after.attempts = before.attempts := by
    simpa using congrArg Store.attempts inserted.only
  have sources : after.attemptSources = before.attemptSources := by
    simpa using congrArg Store.attemptSources inserted.only
  refine ⟨?_, ?_, ?_, ?_, ?_, completed, ?_, ?_, ?_⟩
  · rw [inserted.manifests]
    exact List.subset_append_left _ _
  · rw [inserted.projections]
    exact List.subset_append_left _ _
  · rw [inserted.reports]
    exact List.subset_append_left _ _
  · rw [inserted.signedEvents]
    exact List.subset_append_left _ _
  · rw [attempts]
    exact List.Subset.refl _
  · rw [sources]
    exact .refl (fun _ => rfl) _ _
  · rw [inserted.outbox]
    refine .of_append OutboxRow.SameIdentity.refl ?_
    intro row rowMem event eventMem same
    unfold outboxRows at rowMem
    rcases List.mem_map.mp rowMem with ⟨required, -, rfl⟩
    exact inserted.newEvent event eventMem same
  · rw [inserted.targets]
    refine .of_append TargetRow.SameIdentity.refl ?_
    intro row rowMem outbox outboxMem same
    unfold targetRows at rowMem
    rcases List.mem_flatMap.mp rowMem with ⟨required, published, rowMem⟩
    rcases List.mem_map.mp rowMem with ⟨target, -, rfl⟩
    exact inserted.newOutbox outbox outboxMem required (Option.mem_toList.mp published) same

theorem Persisted.of_effect {host : Host} {before after : Store} {operation : Operation}
    (effect : Effect host before operation after)
    (completed : ∀ row ∈ before.jobs.rows, row.state = .completed → row ∈ after.jobs.rows) :
    Persisted before after := by
  cases effect with
  | unchanged => exact .refl before
  | scheduled read scheduled => exact .of_frame (by rw [scheduled.only]) completed
  | claimed only rewritten => exact .of_frame (by rw [only]) completed
  | renewed only rewritten => exact .of_frame (by rw [only]) completed
  | failed only rewritten => exact .of_frame (by rw [only]) completed
  | ingested parts => exact .of_frame (by rw [parts.evidenceOnly]) completed
  | committed created =>
      rcases created.attempt with ⟨attempt, -, attempts⟩
      rcases created.results with ⟨added, sources, named⟩
      have kept := Persisted.refl before
      have grown : Grown Eq (fun row => ∀ attempt ∈ before.attempts.rows,
          attempt.attemptId ≠ row.attemptId) before.attemptSources.rows
          after.attemptSources.rows := by
        rw [sources]
        refine .of_append (fun _ => rfl) ?_
        intro row rowMem stored storedMem
        rw [named row rowMem]
        exact created.fresh stored storedMem
      have appended : before.attempts.rows ⊆ after.attempts.rows := by
        rw [attempts]
        exact List.subset_append_left _ _
      rw [created.only]
      exact ⟨kept.manifests, kept.projections, kept.reports, kept.signedEvents, appended,
        kept.completed, grown, kept.outbox, kept.targets⟩
  | finalized made absent created => exact .of_created created completed
  | outboxProgressed updated =>
      have kept := Persisted.refl before
      exact ⟨kept.manifests, kept.projections, kept.reports, kept.signedEvents, kept.attempts,
        kept.completed, kept.attemptSources, .of_update updated OutboxRow.SameIdentity.refl
          (fun _ _ => OutboxRow.sameIdentity_of_guard) _, kept.targets⟩
  | targetsProgressed updated =>
      have kept := Persisted.refl before
      exact ⟨kept.manifests, kept.projections, kept.reports, kept.signedEvents, kept.attempts,
        kept.completed, kept.attemptSources, kept.outbox, .of_update updated
          TargetRow.SameIdentity.refl (fun _ _ => TargetRow.sameIdentity_of_guard) _⟩

variable [TradeEvidence]

/-- No call takes anything of a finalization away. -/
theorem persisted_apply (call : Call) (service : Service) :
    Persisted service.store (service.apply call).store := by
  have completed : ∀ row ∈ service.store.jobs.rows, row.state = .completed →
      row ∈ (service.apply call).store.jobs.rows := by
    intro row rowMem terminal
    exact terminal_exec [call] service rowMem (by rw [terminal]; rfl)
  rcases apply_cases call service with ⟨operation, host, rfl, -, applied⟩ | only
  · rw [applied] at completed ⊢
    exact .of_effect (run_effect operation host service.store) completed
  · exact .of_frame (by rw [only]) completed

/-- A durable finalization stays durable over every run. -/
theorem durable_exec {attestation : Attestation} {publication : Option RequiredPublication}
    (calls : List Call) {service : Service}
    (durable : Durable attestation publication service.store) :
    Durable attestation publication (service.exec calls).store :=
  Transition.exec_invariant
    (fun state : Service => Durable attestation publication state.store)
    (fun call state kept => kept.kept (persisted_apply call state)) calls durable

end Steps

section References

theorem TargetsReferenced.of_same {before after : Store} (targets : after.targets = before.targets)
    (outbox : after.outbox = before.outbox) (referenced : TargetsReferenced before) :
    TargetsReferenced after := by
  unfold TargetsReferenced
  rw [targets, outbox]
  exact referenced

theorem TargetsReferenced.of_grown {before after : Store} (newOutbox : OutboxRow → Prop)
    (newTarget : TargetRow → Prop)
    (outbox : Grown OutboxRow.SameIdentity newOutbox before.outbox.rows after.outbox.rows)
    (targets : Grown TargetRow.SameIdentity newTarget before.targets.rows after.targets.rows)
    (named : ∀ row, newTarget row → ∃ stored ∈ after.outbox.rows, stored.outboxId = row.outboxId)
    (referenced : TargetsReferenced before) : TargetsReferenced after := by
  intro row rowMem
  rcases targets.origin rowMem with ⟨old, oldMem, same⟩ | fresh
  · rcases referenced old oldMem with ⟨stored, storedMem, storedName⟩
    rcases outbox.successor storedMem with ⟨next, nextMem, nextSame⟩
    exact ⟨next, nextMem, nextSame.1.trans (storedName.trans same.1.symm)⟩
  · exact named row fresh

variable [Sha256]

theorem TargetsReferenced.of_effect {host : Host} {before after : Store} {operation : Operation}
    (effect : Effect host before operation after) (referenced : TargetsReferenced before) :
    TargetsReferenced after := by
  cases effect with
  | unchanged => exact referenced
  | scheduled read scheduled =>
      exact .of_same (by rw [scheduled.only]) (by rw [scheduled.only]) referenced
  | claimed only rewritten => exact .of_same (by rw [only]) (by rw [only]) referenced
  | renewed only rewritten => exact .of_same (by rw [only]) (by rw [only]) referenced
  | failed only rewritten => exact .of_same (by rw [only]) (by rw [only]) referenced
  | ingested parts =>
      exact .of_same (by rw [parts.evidenceOnly]) (by rw [parts.evidenceOnly]) referenced
  | committed created => exact .of_same (by rw [created.only]) (by rw [created.only]) referenced
  | finalized made absent created =>
      rename_i record
      have inserted := created.inserted
      have outbox : after.outbox.rows = before.outbox.rows ++ outboxRows record := inserted.outbox
      have targets : after.targets.rows = before.targets.rows ++ targetRows record :=
        inserted.targets
      refine .of_grown (fun _ => True) (fun row => row ∈ targetRows record)
        (by rw [outbox]; exact .of_append OutboxRow.SameIdentity.refl (by simp))
        (by rw [targets]; exact .of_append TargetRow.SameIdentity.refl (by simp)) ?_ referenced
      intro row rowMem
      unfold targetRows at rowMem
      rcases List.mem_flatMap.mp rowMem with ⟨required, published, targetMem⟩
      rcases List.mem_map.mp targetMem with ⟨target, -, rfl⟩
      refine ⟨required.outboxRow record.attestation record.now.get, ?_, rfl⟩
      rw [outbox, outboxRows]
      exact List.mem_append_right _ (List.mem_map_of_mem published)
  | outboxProgressed updated =>
      refine .of_grown (fun _ => False) (fun _ => False) ?_ ?_ (fun _ impossible => impossible.elim)
        referenced
      · exact .of_update updated OutboxRow.SameIdentity.refl
          (fun _ _ => OutboxRow.sameIdentity_of_guard) _
      · exact .refl TargetRow.SameIdentity.refl _ _
  | targetsProgressed updated =>
      refine .of_grown (fun _ => False) (fun _ => False) ?_ ?_ (fun _ impossible => impossible.elim)
        referenced
      · exact .refl OutboxRow.SameIdentity.refl _ _
      · exact .of_update updated TargetRow.SameIdentity.refl
          (fun _ _ => TargetRow.sameIdentity_of_guard) _

variable [TradeEvidence]

theorem targetsReferenced_exec (calls : List Call) :
    TargetsReferenced (Service.exec calls .initial).store := by
  refine Transition.exec_invariant (fun state : Service => TargetsReferenced state.store) ?_ calls
    (by simp [TargetsReferenced, Service.initial, Store.initial])
  intro call state referenced
  rcases apply_cases call state with ⟨operation, host, rfl, -, applied⟩ | only
  · rw [applied]
    exact referenced.of_effect (run_effect operation host state.store)
  · exact referenced.of_same (by rw [only]) (by rw [only])

end References

section Retries

variable [Sha256]

/-- The clock of a call does not decide whether its inputs are accepted. -/
theorem FinalizationRecord.fromInputs_spec {attestation : Attestation}
    {publication : PublicationAuthority} {now : UnixMilliseconds} {record : FinalizationRecord}
    (made : FinalizationRecord.fromInputs attestation publication now = some record) :
    record.attestation = attestation ∧ record.now = now ∧ ∀ later,
      FinalizationRecord.fromInputs attestation publication later =
        some { record with now := later } := by
  simp only [FinalizationRecord.fromInputs, Option.bind_eq_bind, Option.bind_eq_some_iff,
    Option.guard_eq_some', Option.pure_def, Option.some.injEq] at made
  rcases made with ⟨_, sized, _, bounded, required, published, rfl⟩
  refine ⟨rfl, rfl, ?_⟩
  intro later
  simp only [FinalizationRecord.fromInputs, Option.bind_eq_bind, guard, if_pos sized,
    if_pos bounded, published, Option.pure_def, Option.bind_some]

/-- A durable finalization is recognised. -/
theorem commitFinalization_of_durable {host : Host} {attestation : Attestation}
    {publication : PublicationAuthority} {now : UnixMilliseconds} {record : FinalizationRecord}
    {store : Store} (disposition : Disposition) (writable : host.mode = .readWriteExisting)
    (configured : publication.configuration = host.binding.normalizedConfig)
    (made : FinalizationRecord.fromInputs attestation publication now = some record)
    (durable : Durable attestation record.publication store) :
    (commitFinalization host disposition attestation publication now store).2 = store ∧
      (disposition = .acknowledged →
        (commitFinalization host disposition attestation publication now store).1 =
          .ok (record.outcome false)) := by
  have same := (FinalizationRecord.fromInputs_spec made).1
  have found : finalize record store = .ok (record.outcome false, store) := by
    have reconciled := reconcileFinalization_iff.mpr (same.symm ▸ durable)
    simp [finalize, reconciled, bind, Except.bind, pure, Except.pure]
  unfold commitFinalization
  simp only [writable, configured, ne_eq, not_true_eq_false, if_false, made]
  cases disposition with
  | acknowledged => simp [transaction, found]
  | aborted => simp [transaction]
  | unacknowledged applied => simp [transaction, found]

/-- The call returned a value, or changed the store under an unknown outcome. -/
def Finalizes (host : Host) (disposition : Disposition) (attestation : Attestation)
    (publication : PublicationAuthority) (now : UnixMilliseconds) (store : Store) : Prop :=
  (∃ outcome,
    (commitFinalization host disposition attestation publication now store).1 = .ok outcome) ∨
  (commitFinalization host disposition attestation publication now store).2 ≠ store

theorem durable_of_commitFinalization {host : Host} {disposition : Disposition}
    {attestation : Attestation} {publication : PublicationAuthority} {now : UnixMilliseconds}
    {store : Store} (referenced : TargetsReferenced store)
    (effective : Finalizes host disposition attestation publication now store) :
    ∃ record, FinalizationRecord.fromInputs attestation publication now = some record ∧
      Durable attestation record.publication
        (commitFinalization host disposition attestation publication now store).2 := by
  unfold Finalizes commitFinalization at effective
  unfold commitFinalization
  split
  · rename_i refused
    simp [refused] at effective
  · rename_i writable
    simp only [writable, if_false] at effective
    split
    · rename_i refused
      simp [refused] at effective
    · rename_i configured
      simp only [configured, if_false] at effective
      cases made : FinalizationRecord.fromInputs attestation publication now with
      | none => simp [made] at effective
      | some record =>
          simp only [made] at effective ⊢
          refine ⟨record, rfl, ?_⟩
          have same := (FinalizationRecord.fromInputs_spec made).1
          have done : ∃ outcome, finalize record store = .ok (outcome,
              (transaction mapFinalizationError disposition (finalize record) store).2) := by
            rcases effective with ⟨outcome, returned⟩ | changed
            · exact ⟨outcome, transaction_ok returned⟩
            · rcases transaction_store mapFinalizationError disposition (finalize record) store
                with unchanged | ⟨outcome, next, done, stored⟩
              · exact absurd unchanged changed
              · exact ⟨outcome, by rw [stored]; exact done⟩
          rcases done with ⟨outcome, done⟩
          rw [← same]
          rcases finalize_spec done with ⟨-, unchanged, reconciled⟩ | ⟨-, absent, created⟩
          · rw [unchanged]
            exact reconcileFinalization_iff.mp reconciled
          · exact durable_of_created referenced absent created

/-- No lease of a completed job is current. -/
theorem Lease.not_current_of_completed {lease : Lease} {store : Store} {row : JobRow}
    (rowMem : row ∈ store.jobs.rows) (named : row.jobId = lease.job.id)
    (completed : row.state = .completed) : ¬lease.Current store := by
  rintro ⟨stored, storedMem, read⟩
  have sameRow := eq_of_jobId_eq rowMem storedMem (named.trans read.jobId.symm)
  have leased : row.state = .leased := by
    rw [sameRow, ← toRow_of_decodeJob read.decoded]
    exact read.leased
  rw [completed] at leased
  cases leased

/-- A finalization some of whose keys are taken, while not all of its rows are there. -/
theorem finalize_of_overlap {record : FinalizationRecord} {store : Store}
    (overlaps : footprint record.attestation store ≠ 0)
    (differs : rowsMatch record store = false ∨
      record.attestation.lease.job.revision < maxInteger ∧
        ∀ row ∈ store.jobs.rows, record.attestation.lease.matchesCompleted row = false) :
    finalize record store = .error .conflict := by
  have reconciled : reconcileFinalization record store = .error .conflict := by
    unfold reconcileFinalization
    rw [if_neg overlaps]
    rcases differs with unmatched | ⟨bounded, incomplete⟩
    · simp [unmatched]
    · split
      · have revised : record.attestation.lease.job.revision + 1 ≤ maxInteger := bounded
        have none : store.jobs.rows.countP record.attestation.lease.matchesCompleted = 0 := by
          refine List.countP_eq_zero.mpr ?_
          intro row rowMem
          simp [incomplete row rowMem]
        simp [require, revised, none, bind, Except.bind]
      · rfl
  simp [finalize, reconciled, bind, Except.bind]

theorem commitFinalization_of_overlap {host : Host} {disposition : Disposition}
    {attestation : Attestation} {publication : PublicationAuthority} {now : UnixMilliseconds}
    {record : FinalizationRecord} {store : Store} (working : disposition ≠ .aborted)
    (writable : host.mode = .readWriteExisting)
    (configured : publication.configuration = host.binding.normalizedConfig)
    (made : FinalizationRecord.fromInputs attestation publication now = some record)
    (refused : finalize record store = .error .conflict) :
    commitFinalization host disposition attestation publication now store =
      (.error .conflict, store) := by
  unfold commitFinalization
  simp only [writable, configured, ne_eq, not_true_eq_false, if_false, made]
  cases disposition with
  | acknowledged => simp [transaction, refused, mapFinalizationError]
  | aborted => exact absurd rfl working
  | unacknowledged applied => simp [transaction, refused, mapFinalizationError]

/-- Whatever a call returns, it created the whole finalization or changed nothing. -/
theorem commitFinalization_atomic (host : Host) (disposition : Disposition)
    (attestation : Attestation) (publication : PublicationAuthority) (now : UnixMilliseconds)
    (store : Store) :
    (commitFinalization host disposition attestation publication now store).2 = store ∨
      ∃ record, FinalizationRecord.fromInputs attestation publication now = some record ∧
        FinalizationCreated record store
          (commitFinalization host disposition attestation publication now store).2 := by
  have effect := commitFinalization_effect host disposition attestation publication now store
  generalize (commitFinalization host disposition attestation publication now store).2 = after
    at effect ⊢
  cases effect with
  | unchanged => exact .inl rfl
  | finalized made absent created => exact .inr ⟨_, made, created⟩

theorem commitFinalization_error {host : Host} {disposition : Disposition}
    {attestation : Attestation} {publication : PublicationAuthority} {now : UnixMilliseconds}
    {store : Store} {error : FinalizationErrorKind}
    (returned : (commitFinalization host disposition attestation publication now store).1 =
      .error error) (known : error ≠ .commitOutcomeUnknown) :
    (commitFinalization host disposition attestation publication now store).2 = store := by
  unfold commitFinalization at returned ⊢
  split
  · rfl
  · rename_i writable
    split
    · rfl
    · rename_i configured
      simp only [writable, configured, if_false] at returned
      cases made : FinalizationRecord.fromInputs attestation publication now with
      | none => rfl
      | some record =>
          simp only [made] at returned ⊢
          exact transaction_store_of_error returned known

theorem fenced_of_created {host : Host} {disposition : Disposition} {attestation : Attestation}
    {publication : PublicationAuthority} {now : UnixMilliseconds} {store : Store}
    {outcome : FinalizationOutcome}
    (returned : (commitFinalization host disposition attestation publication now store).1 =
      .ok outcome) (created : outcome.created = true) :
    ∃ record, FinalizationRecord.fromInputs attestation publication now = some record ∧
      FinalizationFenced record store := by
  unfold commitFinalization at returned
  split at returned
  · cases returned
  · split at returned
    · cases returned
    · cases made : FinalizationRecord.fromInputs attestation publication now with
      | none => simp [made] at returned
      | some record =>
          simp only [made] at returned
          refine ⟨record, rfl, ?_⟩
          rcases finalize_spec (transaction_ok returned) with ⟨found, -⟩ | ⟨-, -, parts⟩
          · rw [found] at created
            unfold FinalizationRecord.outcome at created
            split at created <;> cases created
          · exact parts.fenced

/-- A job that is completed is not finalized again. -/
theorem commitFinalization_of_completed {host : Host} {attestation : Attestation} {store : Store}
    {row : JobRow} (disposition : Disposition) (publication : PublicationAuthority)
    (now : UnixMilliseconds) (rowMem : row ∈ store.jobs.rows)
    (named : row.jobId = attestation.lease.job.id) (completed : row.state = .completed) :
    (commitFinalization host disposition attestation publication now store).2 = store ∧
      ∀ outcome, (commitFinalization host disposition attestation publication now store).1 =
        .ok outcome → outcome.created = false := by
  have lost := Lease.not_current_of_completed rowMem named completed
  constructor
  · rcases commitFinalization_atomic host disposition attestation publication now store with
      unchanged | ⟨record, made, created⟩
    · exact unchanged
    · have current := created.fenced.current
      rw [(FinalizationRecord.fromInputs_spec made).1] at current
      exact absurd current lost
  · intro outcome returned
    by_contra created
    rcases fenced_of_created returned (by simpa using created) with ⟨record, made, fenced⟩
    have current := fenced.current
    rw [(FinalizationRecord.fromInputs_spec made).1] at current
    exact lost current

end Retries

section Exactness

variable [Sha256] [TradeEvidence]

/-- Finalization is fenced, atomic and exactly-once over every run.  A repeated call is recognised
while the host runs under the configuration of its authority; a lost acknowledgement is the only
error under which the store may have changed. -/
theorem finalization_exactly_once (calls : List Call) :
    (∀ host disposition attestation publication now outcome,
      (commitFinalization host disposition attestation publication now
        (Service.exec calls .initial).store).1 = .ok outcome → outcome.created = true →
      ∃ record, FinalizationRecord.fromInputs attestation publication now = some record ∧
        record.attestation = attestation ∧ record.now = now ∧
        FinalizationFenced record (Service.exec calls .initial).store) ∧
    (∀ host disposition attestation publication now later,
      (Service.exec calls .initial).host = some host →
      Finalizes host disposition attestation publication now (Service.exec calls .initial).store →
      ∀ other nextDisposition next nextPublication nextNow,
        next.lease.job.id = attestation.lease.job.id →
        (commitFinalization other nextDisposition next nextPublication nextNow
          (Service.exec (calls ++ .operation (.commitFinalization disposition attestation
            publication now) :: later) .initial).store).2 =
          (Service.exec (calls ++ .operation (.commitFinalization disposition attestation
            publication now) :: later) .initial).store ∧
        ∀ outcome, (commitFinalization other nextDisposition next nextPublication nextNow
          (Service.exec (calls ++ .operation (.commitFinalization disposition attestation
            publication now) :: later) .initial).store).1 = .ok outcome →
          outcome.created = false) ∧
    (∀ host disposition attestation publication now later,
      (Service.exec calls .initial).host = some host →
      Finalizes host disposition attestation publication now (Service.exec calls .initial).store →
      ∀ other retry nextNow, other.mode = .readWriteExisting →
        publication.configuration = other.binding.normalizedConfig →
        ∃ outcome, outcome.created = false ∧
          commitFinalization other .acknowledged attestation publication nextNow
            (Service.exec (calls ++ .operation (.commitFinalization disposition attestation
              publication now) :: later) .initial).store =
            (.ok outcome, (Service.exec (calls ++ .operation (.commitFinalization disposition
              attestation publication now) :: later) .initial).store) ∧
          (commitFinalization other retry attestation publication nextNow
            (Service.exec (calls ++ .operation (.commitFinalization disposition attestation
              publication now) :: later) .initial).store).2 =
            (Service.exec (calls ++ .operation (.commitFinalization disposition attestation
              publication now) :: later) .initial).store) ∧
    (∀ host disposition attestation publication now record, disposition ≠ .aborted →
      host.mode = .readWriteExisting →
      publication.configuration = host.binding.normalizedConfig →
      FinalizationRecord.fromInputs attestation publication now = some record →
      footprint attestation (Service.exec calls .initial).store ≠ 0 →
      (rowsMatch record (Service.exec calls .initial).store = false ∨
        attestation.lease.job.revision < maxInteger ∧
          ∀ row ∈ (Service.exec calls .initial).store.jobs.rows,
            attestation.lease.matchesCompleted row = false) →
      commitFinalization host disposition attestation publication now
        (Service.exec calls .initial).store =
        (.error .conflict, (Service.exec calls .initial).store)) ∧
    (∀ host disposition attestation publication now error,
      (commitFinalization host disposition attestation publication now
        (Service.exec calls .initial).store).1 = .error error →
      (error ≠ .commitOutcomeUnknown →
        (commitFinalization host disposition attestation publication now
          (Service.exec calls .initial).store).2 = (Service.exec calls .initial).store) ∧
      ((commitFinalization host disposition attestation publication now
          (Service.exec calls .initial).store).2 = (Service.exec calls .initial).store ∨
        ∃ record, FinalizationRecord.fromInputs attestation publication now = some record ∧
          FinalizationCreated record (Service.exec calls .initial).store
            (commitFinalization host disposition attestation publication now
              (Service.exec calls .initial).store).2)) := by
  have durable : ∀ host disposition attestation publication now later,
      (Service.exec calls .initial).host = some host →
      Finalizes host disposition attestation publication now (Service.exec calls .initial).store →
      ∃ record, FinalizationRecord.fromInputs attestation publication now = some record ∧
        Durable attestation record.publication
          (Service.exec (calls ++ .operation (.commitFinalization disposition attestation
            publication now) :: later) .initial).store := by
    intro host disposition attestation publication now later open_ effective
    rcases durable_of_commitFinalization (targetsReferenced_exec calls) effective with
      ⟨record, made, durable⟩
    refine ⟨record, made, ?_⟩
    have applied : ((Service.exec calls .initial).apply (.operation (.commitFinalization
        disposition attestation publication now))).store =
        (commitFinalization host disposition attestation publication now
          (Service.exec calls .initial).store).2 := by
      simp [Service.apply, open_, Operation.run]
    have split : Service.exec (calls ++ .operation (.commitFinalization disposition attestation
        publication now) :: later) .initial =
        ((Service.exec calls .initial).apply (.operation (.commitFinalization disposition
          attestation publication now))).exec later := by
      simp [Service.exec]
    rw [split]
    exact durable_exec later (by rw [applied]; exact durable)
  refine ⟨?_, ?_, ?_, ?_, ?_⟩
  · intro host disposition attestation publication now outcome returned created
    rcases fenced_of_created returned created with ⟨record, made, fenced⟩
    have inputs := FinalizationRecord.fromInputs_spec made
    exact ⟨record, made, inputs.1, inputs.2.1, fenced⟩
  · intro host disposition attestation publication now later open_ effective other nextDisposition
      next nextPublication nextNow sameJob
    rcases durable host disposition attestation publication now later open_ effective with
      ⟨record, -, stored⟩
    rcases stored.completed with ⟨row, rowMem, matched⟩
    simp only [Lease.matchesCompleted, Bool.and_eq_true, beq_iff_eq] at matched
    rcases matched with ⟨⟨⟨⟨⟨⟨⟨⟨⟨⟨⟨named, -⟩, -⟩, -⟩, completed⟩, -⟩, -⟩, -⟩, -⟩, -⟩, -⟩, -⟩
    exact commitFinalization_of_completed nextDisposition nextPublication nextNow rowMem
      (named.trans sameJob.symm) completed
  · intro host disposition attestation publication now later open_ effective other retry nextNow
      writable configured
    rcases durable host disposition attestation publication now later open_ effective with
      ⟨record, made, stored⟩
    have again := (FinalizationRecord.fromInputs_spec made).2.2 nextNow
    have recognised := commitFinalization_of_durable .acknowledged writable configured again stored
    refine ⟨_, ?_, Prod.ext (recognised.2 rfl) recognised.1,
      (commitFinalization_of_durable retry writable configured again stored).1⟩
    unfold FinalizationRecord.outcome
    split <;> rfl
  · intro host disposition attestation publication now record working writable configured made
      overlaps differs
    have same := (FinalizationRecord.fromInputs_spec made).1
    refine commitFinalization_of_overlap working writable configured made ?_
    apply finalize_of_overlap
    · rw [same]
      exact overlaps
    · rw [same]
      exact differs
  · intro host disposition attestation publication now error returned
    exact ⟨commitFinalization_error returned,
      commitFinalization_atomic host disposition attestation publication now _⟩

end Exactness

section Exceptions

namespace Sample

/-- The hash function the service is built with. -/
local instance : Sha256 := ⟨Hashing.sha256⟩

def source : SourceId := ⟨"trade-primary", by decide⟩

def trade : TradeId := 0x11#128

def policy : EvidencePolicyDigest := 0x22#256

def owner : LeaseOwner := ⟨0x44#128, by decide⟩

def jobPolicy : JobPolicy where
  queueCapacity := 8
  leaseDuration := 60000
  leaseRenewal := 20000
  maxAttempts := 3
  initialBackoff := 1000
  maximumBackoff := 10000
  valid := by decide

def binding (normalizedConfig : Digest) (evidencePolicy : EvidencePolicyDigest) :
    ConfigBinding where
  normalizedConfig
  evidencePolicy
  servicePublicKey := 0x33#256
  configContractVersion := 1
  stateContractVersion := 11
  adminContractVersion := 1
  statusContractVersion := 1
  providerContractVersion := 1

def configuration : Configuration where
  binding := binding 0x99#256 policy
  jobPolicy
  attemptDeadline := 10000
  sources := [{
    sourceId := source
    required := true
    deadline := 10000
    lookbackSeconds := 86400
    overlapSeconds := 300
    deadline_bounds := by decide
    lookback_bounds := by decide
    overlap_bounds := by decide
    overlap_le := by decide }]
  limits := ⟨524288, 131072, by decide, by decide⟩
  attempt_bounds := by decide
  sources_count := by decide
  sources_sorted := by decide
  sources_deadline := by decide

def host : Host := ⟨.readWriteExisting, configuration.binding⟩

theorem one_le_of_bounds {second : Nat} (bounds : 1 ≤ second ∧ second ≤ maxInteger) : 1 ≤ second :=
  bounds.1

theorem le_of_bounds {second : Nat} (bounds : 1 ≤ second ∧ second ≤ maxInteger) :
    second ≤ maxInteger :=
  bounds.2

/-- A proposal authored and observed in the given second. -/
def event (id : EventId) (mutation : MutationId) (second : Nat)
    (bounds : 1 ≤ second ∧ second ≤ maxInteger) : AdmittedEvent where
  event := {
    eventId := id
    eventSignature := 0x55#512
    authorPubkey := 0x66#256
    eventKind := 3470
    authoredAt := second
    mutationId := mutation
    tradeId := trade
    contract := .proposal
    content := [123, 125]
    canonicalEventJson := [123, 125]
    kind_mem := by decide
    content_nonempty := by decide
    json_nonempty := by decide }
  rawLength := 2
  observedAt := ⟨second, one_le_of_bounds bounds, le_of_bounds bounds⟩
  raw_positive := by decide
  json_le := by simp
  content_le := by simp
  authored_le := le_of_bounds bounds

theorem first_bounds : 1 ≤ 1000000 ∧ 1000000 ≤ maxInteger := by decide

theorem second_bounds : 1 ≤ 1000001 ∧ 1000001 ≤ maxInteger := by decide

def proposal : AdmittedEvent := event 0x77#256 0x88#256 1000000 first_bounds

def scheduledAt : UnixMilliseconds := ⟨1000000000, by decide⟩

def claimedAt : UnixMilliseconds := ⟨1000001000, by decide⟩

def finalizedAt : UnixMilliseconds := ⟨1000002000, by decide⟩

def expiresAt : UnixMilliseconds := ⟨1000061000, by decide⟩

/-- The lease of the first claim of the job of the first generation. -/
def lease : Lease where
  job := {
    id := jobId trade 1 policy
    tradeId := trade
    inputGeneration := 1
    policyDigest := policy
    state := .leased
    revision := 2
    attemptCount := 1
    failureCount := 0
    policy := { jobPolicy with queueCapacity := jobMaxActive, valid := by decide }
    nextAttempt := none
    leaseOwner := some owner
    leaseExpires := some expiresAt
    createdAt := scheduledAt
    updatedAt := claimedAt }
  owner
  leaseExpires := expiresAt

def request : SourceRequest where
  id := requestId (attemptId lease.job.id 1) source true (selectorDigest trade) 1000001000
    1000011000 86400 4096 8388608
  sourceId := source
  tradeId := trade
  required := true
  selectorDigest := selectorDigest trade
  attemptStartedAt := 1000001000
  deadline := 1000011000
  lookbackSeconds := 86400
  maximumEvents := 4096
  maximumBytes := 8388608
  events_fit := by decide
  bytes_fit := by decide

def plan : AttemptPlan where
  id := attemptId lease.job.id 1
  jobId := lease.job.id
  inputGeneration := 1
  policyDigest := policy
  attemptStartedAt := 1000001000
  deadline := 1000011000
  requests := [request]

/-- The relay was unavailable. -/
def replay : SourceReplay where
  plan := {
    id := replayId request.id (some proposal.event.cursor) 300 999700
    requestId := request.id
    sourceId := source
    tradeId := trade
    required := true
    policyDigest := policy
    selectorDigest := selectorDigest trade
    priorCursor := some proposal.event.cursor
    overlapSeconds := 300
    since := 999700 }
  result := ⟨request.id, .incompleteUnavailable, 1000001000, 1000001000, 0, 0⟩
  duplicateObservations := 0
  cursorCandidate := none
  firstObservedAt := none
  facts := []

def attestation : Attestation where
  lease
  manifestDigest := 0xa1#256
  canonicalManifest := [1]
  observedAt := 1000002
  sources := [⟨source, true, .incomplete, 0⟩]
  observationCount := 0
  projectionDigest := 0xa2#256
  sharedProjectionDigest := 0xa3#256
  issueCount := 0
  statementDigest := 0xa4#256
  claimMutationId := 0x88#256
  issuerPublicKey := 0x33#256
  outcome := .indeterminate
  canonicalReport := [2]
  reportObservedAt := 1000002
  supersession := none
  eventId := 0xa5#256
  signedEventDigest := 0xa6#256
  createdAt := 1000002
  signedEvent := [3]
  leased := rfl
  attempted := by decide

/-- The same attestation under a lease whose revision cannot grow any more. -/
def lastRevision : Attestation :=
  { attestation with
    lease := { lease with job := { lease.job with revision := maxInteger } }
    leased := rfl
    attempted := by decide }

def publication : PublicationAuthority where
  configuration := configuration.binding.normalizedConfig
  mode := .required
  authority := 0xb1#256
  targetSet := 0xb2#256
  queueCapacity := 4
  retry := some ⟨3, 1000, 10000, 5000⟩
  targets := [⟨0, source, true⟩]

/-- The shared library accepts the source of the samples. -/
local instance : TradeEvidence where
  Mutation := Unit
  mutationId _ := none
  tradeId _ := trade
  acceptsSourceId _ := true
  acceptsSourceResult _ _ _ := true
  manifest _ := none
  decode _ := none
  reduce _ _ _ _ := ⟨none, none, .missing, 0, [], [], [], [], false⟩

/-- A delivered proposal, its scheduled job, the claim and the commit of its first attempt. -/
def calls : List Call := [
  .openReadWrite .acknowledged configuration.binding 1,
  .operation (.commitSourceResult .acknowledged source trade proposal.observedAt ⟨none, none⟩
    (subscribedResult proposal)),
  .operation (.scheduleTrade .acknowledged trade jobPolicy scheduledAt),
  .operation (.claimNext .acknowledged owner claimedAt),
  .operation (.commitSourceReplays .acknowledged lease plan [⟨replay, by simp [replay]⟩])]

/-- The finalization is committed without acknowledgement; another configuration with the same
evidence policy is then applied. -/
def reconfigured : List Call := calls ++ [
  .operation (.commitFinalization (.unacknowledged true) attestation publication finalizedAt),
  .close,
  .applyConfiguration .acknowledged .acknowledged configuration.binding
    (binding 0x9a#256 policy) 2,
  .openReadWrite .acknowledged (binding 0x9a#256 policy) 2]

/-- A lost acknowledgement hides a created finalization, and the retry of the same call after the
configuration changed is refused. -/
theorem finalization_hidden_and_refused :
    AttemptPlan.fromClaim lease configuration claimedAt = .ok plan ∧
    (Service.exec calls .initial).host = some host ∧
    (commitFinalization host (.unacknowledged true) attestation publication finalizedAt
      (Service.exec calls .initial).store).1 = .error .commitOutcomeUnknown ∧
    (commitFinalization host (.unacknowledged true) attestation publication finalizedAt
      (Service.exec calls .initial).store).2.manifests.rows = [attestation.manifestRow] ∧
    (Service.exec calls .initial).store.manifests.rows = [] ∧
    (Service.exec reconfigured .initial).host =
      some ⟨.readWriteExisting, binding 0x9a#256 policy⟩ ∧
    (commitFinalization ⟨.readWriteExisting, binding 0x9a#256 policy⟩ .acknowledged attestation
      publication finalizedAt (Service.exec reconfigured .initial).store).1 =
        .error .invalidInput ∧
    (commitFinalization host .acknowledged lastRevision publication finalizedAt
      (Service.exec reconfigured .initial).store).1 = .error .storage := by
  decide +kernel

end Sample

end Exceptions

end Rhi
