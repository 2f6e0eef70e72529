import Rhi.Finalization
import Rhi.Commit.Effects

/-!
# Effects of a finalization

A created finalization has passed every fence in the transaction that inserts it.  `Finalized` says
which rows it leaves behind, without the columns that later progress of the publication changes.
-/

namespace Rhi

open Relational Transactional

section Publication

/-- The rows a publication appends to the outbox. -/
def outboxRows (record : FinalizationRecord) : List OutboxRow :=
  record.publication.toList.map fun required =>
    required.outboxRow record.attestation record.now.get

/-- The rows a publication appends to the targets. -/
def targetRows (record : FinalizationRecord) : List TargetRow :=
  record.publication.toList.flatMap fun required =>
    required.targets.map fun target => target.row required.outboxId record.now.get

theorem insertTargets_spec {outbox : Digest} {now : Nat} {targets : List PublicationTarget}
    {store next : Store} (done : insertTargets outbox now targets store = .ok next) :
    next = { store with targets := next.targets } ∧
      next.targets.rows = store.targets.rows ++ targets.map (·.row outbox now) := by
  induction targets generalizing store with
  | nil =>
      simp only [insertTargets, Except.ok.injEq] at done
      subst done
      exact ⟨rfl, by simp⟩
  | cons target rest ih =>
      simp only [insertTargets, bind_eq_ok, orError_eq_ok] at done
      rcases done with ⟨inserted, added, done⟩
      rcases ih done with ⟨only, rows⟩
      refine ⟨by rw [only], ?_⟩
      rw [rows, (Table.insert_spec added).1]
      simp

theorem insertPublication_spec {record : FinalizationRecord} {store next : Store}
    (done : insertPublication record store = .ok next) :
    next = { store with outbox := next.outbox, targets := next.targets } ∧
      next.outbox.rows = store.outbox.rows ++ outboxRows record ∧
      next.targets.rows = store.targets.rows ++ targetRows record ∧
      ∀ row ∈ store.outbox.rows, ∀ added ∈ outboxRows record,
        publicationOutbox.clash row added = false := by
  unfold insertPublication at done
  unfold outboxRows targetRows
  cases publication : record.publication with
  | none =>
      simp only [publication, Except.ok.injEq] at done
      subst done
      exact ⟨rfl, by simp, by simp, by simp⟩
  | some required =>
      simp only [publication, bind_eq_ok, orError_eq_ok] at done
      rcases done with ⟨outbox, added, done⟩
      rcases insertTargets_spec done with ⟨only, targets⟩
      rcases Table.insert_spec added with ⟨rows, -, -, apart⟩
      refine ⟨by rw [only], ?_, ?_, ?_⟩
      · rw [only]
        simpa using rows
      · simpa using targets
      · intro row rowMem new newMem
        simp only [Option.toList_some, List.map_cons, List.map_nil, List.mem_singleton] at newMem
        rw [newMem]
        exact apart row rowMem

end Publication

theorem evidenceReconciliations_clash_comm (left right : AttemptRow) :
    evidenceReconciliations.clash left right = evidenceReconciliations.clash right left := by
  simp [evidenceReconciliations, Bool.beq_comm]

/-- An attempt identity names one stored attempt. -/
theorem eq_of_attemptId_eq {attempts : Table evidenceReconciliations} {left right : AttemptRow}
    (leftMem : left ∈ attempts.rows) (rightMem : right ∈ attempts.rows)
    (same : left.attemptId = right.attemptId) : left = right :=
  Table.eq_of_clash evidenceReconciliations_clash_comm leftMem rightMem
    (by simp [evidenceReconciliations, same])

variable [Sha256]

/-- The rows of a finalization, inserted where nothing clashed with them. -/
structure FinalizationInserted (record : FinalizationRecord) (before after : Store) : Prop where
  only : after = { before with
    manifests := after.manifests, projections := after.projections, reports := after.reports,
    signedEvents := after.signedEvents, outbox := after.outbox, targets := after.targets }
  manifests : after.manifests.rows = before.manifests.rows ++ [record.attestation.manifestRow]
  projections :
    after.projections.rows = before.projections.rows ++ [record.attestation.projectionRow]
  reports : after.reports.rows = before.reports.rows ++ [record.attestation.reportRow]
  signedEvents :
    after.signedEvents.rows = before.signedEvents.rows ++ [record.attestation.signedEventRow]
  newEvent : ∀ row ∈ before.signedEvents.rows, row.eventId ≠ record.attestation.eventId
  outbox : after.outbox.rows = before.outbox.rows ++ outboxRows record
  targets : after.targets.rows = before.targets.rows ++ targetRows record
  newOutbox : ∀ row ∈ before.outbox.rows, ∀ required, record.publication = some required →
    row.outboxId ≠ required.outboxId

theorem insertFinalization_spec {record : FinalizationRecord} {store next : Store}
    (done : insertFinalization record store = .ok next) :
    FinalizationInserted record store next := by
  simp only [insertFinalization, bind_eq_ok, require_eq_ok, orError_eq_ok] at done
  rcases done with ⟨-, -, manifests, manifestAdded, projections, projectionAdded, -, -, reports,
    reportAdded, events, eventAdded, done⟩
  rcases insertPublication_spec done with ⟨only, outbox, targets, apart⟩
  refine {
    only := by rw [only]
    manifests := by rw [only]; exact (Table.insert_spec manifestAdded).1
    projections := by rw [only]; exact (Table.insert_spec projectionAdded).1
    reports := by rw [only]; exact (Table.insert_spec reportAdded).1
    signedEvents := by rw [only]; exact (Table.insert_spec eventAdded).1
    newEvent := ?_, outbox, targets, newOutbox := ?_ }
  · intro row rowMem same
    have unclashing := (Table.insert_spec eventAdded).2.2.2 row rowMem
    simp [signedAttestationEvents, Attestation.signedEventRow, same] at unclashing
  · intro row rowMem required published same
    have unclashing := apart row rowMem (required.outboxRow record.attestation record.now.get)
      (by simp [outboxRows, published])
    simp [publicationOutbox, RequiredPublication.outboxRow, same] at unclashing

/-- What a created finalization checked, in the transaction that inserted it. -/
structure FinalizationFenced (record : FinalizationRecord) (store : Store) : Prop where
  unexpired : record.now.get < record.attestation.lease.leaseExpires.get
  current : record.attestation.lease.Current store
  dirty : ∃ row, readDirty store record.attestation.lease.job.tradeId = some row ∧
    row.generation = record.attestation.lease.job.inputGeneration ∧
    row.evidencePolicy = record.attestation.lease.job.policyDigest
  attempt : ∃ row ∈ store.attempts.rows, row.attemptId = record.attestation.attemptId ∧
    row.jobId = record.attestation.lease.job.id ∧
    row.tradeId = record.attestation.lease.job.tradeId ∧
    row.inputGeneration = record.attestation.lease.job.inputGeneration ∧
    row.evidencePolicy = record.attestation.lease.job.policyDigest ∧
    row.sourceCount = record.attestation.sources.length
  inventory : (store.attemptSources.rows.countP fun row =>
      row.attemptId == record.attestation.attemptId) = record.attestation.sources.length ∧
    ∀ ordinal source, record.attestation.sources[ordinal]? = some source →
      ∃ row ∈ store.attemptSources.rows, row.attemptId = record.attestation.attemptId ∧
        row.sourceOrdinal = ordinal ∧ row.sourceId = source.sourceId ∧
        row.required = source.required ∧ row.acceptedEventCount = source.admittedEventCount ∧
        row.completion.toManifest = source.completion
  checkpoints : ∀ row ∈ store.attemptSources.rows,
    row.attemptId = record.attestation.attemptId → row.checkpointAdvanced = true →
      ∃ checkpoint, readCheckpoint store row.sourceId record.attestation.lease.job.policyDigest
        row.tradeId = some checkpoint ∧ row.candidateCursor = some checkpoint.cursor

theorem fenced_of_validations {record : FinalizationRecord} {store : Store}
    {first second third : Unit}
    (identity : validateFinalizationIdentity record.attestation.lease record.now store = .ok first)
    (inventory : validateSourceInventory record.attestation store = .ok second)
    (checkpoints : validateAdvancedCheckpoints record.attestation store = .ok third) :
    FinalizationFenced record store := by
  simp only [validateFinalizationIdentity, bind_eq_ok, require_eq_ok, decide_eq_true_eq] at identity
  rcases identity with ⟨-, unexpired, checked, valid, -, dirtyFound, -, -, attemptFound⟩
  simp only [validateSourceInventory, require_eq_ok, inventoryMatches, Bool.and_eq_true]
    at inventory
  rcases inventory with ⟨⟨counted, sourceCount⟩, sources⟩
  simp only [validateAdvancedCheckpoints, require_eq_ok] at checkpoints
  refine {
    unexpired, current := validateExactLease_spec valid, dirty := ?_, attempt := ?_
    inventory := ⟨by simpa using sourceCount, ?_⟩, checkpoints := ?_ }
  · rcases Option.any_eq_true _ _ |>.mp dirtyFound with ⟨row, read, matched⟩
    simp only [Bool.and_eq_true, beq_iff_eq] at matched
    exact ⟨row, read, matched.1, matched.2⟩
  · rcases Table.exists_of_countP_eq_one attemptFound with ⟨row, rowMem, matched⟩
    rcases Table.exists_of_countP_eq_one counted with ⟨other, otherMem, otherMatched⟩
    simp only [Bool.and_eq_true, beq_iff_eq] at matched otherMatched
    rcases matched with ⟨⟨⟨⟨id, job⟩, trade⟩, generation⟩, policy⟩
    have same := eq_of_attemptId_eq rowMem otherMem (id.trans otherMatched.1.symm)
    exact ⟨row, rowMem, id, job, trade, generation, policy, by rw [same]; exact otherMatched.2⟩
  · intro ordinal source found
    have entryMem : (source, ordinal) ∈ record.attestation.sources.zipIdx := by
      rw [List.mem_zipIdx_iff_getElem?]
      exact found
    have matched := List.all_eq_true.mp sources (source, ordinal) entryMem
    rcases Table.exists_of_countP_eq_one matched with ⟨row, rowMem, columns⟩
    simp only [Bool.and_eq_true, beq_iff_eq, ManifestCompletion.covers] at columns
    rcases columns with ⟨⟨⟨⟨⟨id, position⟩, name⟩, required⟩, accepted⟩, completion⟩
    exact ⟨row, rowMem, id, position, name, required, accepted, completion⟩
  · intro row rowMem sameAttempt advanced
    have matched := List.all_eq_true.mp checkpoints row rowMem
    simp only [sameAttempt, advanced, beq_self_eq_true, Bool.and_self, Bool.not_true,
      Bool.false_or] at matched
    rcases Option.any_eq_true _ _ |>.mp matched with ⟨checkpoint, read, agrees⟩
    have checked := store.attemptSources.checked row rowMem
    simp only [evidenceReconciliationSources, decide_eq_true_eq] at checked
    have present := checked.2.2.2.2.2.2.2.2.2.2.2.2.2.2.2.2 advanced
    cases candidate : row.candidateCursor with
    | none => exact absurd candidate present
    | some cursor =>
        simp only [candidate, Option.all_some, beq_iff_eq] at agrees
        exact ⟨checkpoint, read, by rw [agrees]⟩

/-- Everything a created finalization has checked and done. -/
structure FinalizationCreated (record : FinalizationRecord) (before after : Store) : Prop where
  fenced : FinalizationFenced record before
  matched : inventoryMatches record.attestation before = true
  supersession : supersessionMatches record.attestation before = true
  inserted : FinalizationInserted record before { after with jobs := before.jobs }
  rewritten : JobsRewritten [.completion] before.jobs.rows after.jobs.rows
  held : ∃ row ∈ before.jobs.rows, row.heldBy record.attestation.lease = true ∧
    (completeJob record.now.get record.attestation.lease).write row ∈ after.jobs.rows

omit [Sha256] in
theorem completeLease_spec {lease : Lease} {now : UnixMilliseconds} {store next : Store}
    (done : completeLease lease now store = .ok next) :
    JobsOnly store next ∧ JobsRewritten [.completion] store.jobs.rows next.jobs.rows ∧
      ∃ row ∈ store.jobs.rows, row.heldBy lease = true ∧
        (completeJob now.get lease).write row ∈ next.jobs.rows := by
  simp only [completeLease, bind_eq_ok, mapError_eq_ok, require_eq_ok, pure_eq_ok] at done
  rcases done with ⟨⟨affected, last⟩, updated, -, single, rfl⟩
  rcases exists_selected_of_affected updated single with ⟨row, rowMem, selected⟩
  rcases updateJobs_spec updated with ⟨only, rows, -, -⟩
  refine ⟨only, rewritten_of_updateJobs updated fun _ _ chosen => .complete now.get lease chosen,
    row, rowMem, ?_, ?_⟩
  · simp only [completeJob, Bool.and_eq_true] at selected
    exact selected.1
  · rw [rows, ← Table.rewrite_of_selects selected]
    exact List.mem_map_of_mem rowMem

theorem createFinalization_spec {record : FinalizationRecord} {store next : Store}
    {outcome : FinalizationOutcome}
    (done : createFinalization record store = .ok (outcome, next)) :
    outcome = record.outcome true ∧ FinalizationCreated record store next := by
  simp only [createFinalization, bind_eq_ok] at done
  rcases done with ⟨_, identity, _, inventory, _, checkpoints, _, supersession, _, -, inserted,
    inserting, completed, completing, finished⟩
  simp only [pure_eq_ok, Prod.mk.injEq] at finished
  rcases finished with ⟨rfl, rfl⟩
  have rows := insertFinalization_spec inserting
  rcases completeLease_spec completing with ⟨only, rewritten, row, rowMem, held, written⟩
  have sameJobs : inserted.jobs = store.jobs := by rw [rows.only]
  have restored : { completed with jobs := store.jobs } = inserted := by
    have only' : completed = { inserted with jobs := completed.jobs } := only
    rw [only', ← sameJobs]
  refine ⟨rfl, {
    fenced := fenced_of_validations identity inventory checkpoints
    matched := ?_, supersession := ?_, inserted := ?_, rewritten := ?_, held := ?_ }⟩
  · simpa only [validateSourceInventory, require_eq_ok] using inventory
  · simpa only [validateSupersession, require_eq_ok] using supersession
  · rw [restored]
    exact rows
  · rw [sameJobs] at rewritten
    exact rewritten
  · rw [sameJobs] at rowMem
    exact ⟨row, rowMem, held, written⟩

/-- A finalization was already durable, or was created by this call. -/
theorem finalize_spec {record : FinalizationRecord} {store next : Store}
    {outcome : FinalizationOutcome} (done : finalize record store = .ok (outcome, next)) :
    (outcome = record.outcome false ∧ next = store ∧
        reconcileFinalization record store = .ok true) ∨
      (outcome = record.outcome true ∧ footprint record.attestation store = 0 ∧
        FinalizationCreated record store next) := by
  simp only [finalize, bind_eq_ok] at done
  rcases done with ⟨durable, reconciled, done⟩
  cases durable with
  | true =>
      simp only [if_true, pure_eq_ok, Prod.mk.injEq] at done
      exact .inl ⟨done.1.symm, done.2.symm, reconciled⟩
  | false =>
      simp only [Bool.false_eq_true, if_false] at done
      rcases createFinalization_spec done with ⟨created, parts⟩
      refine .inr ⟨created, ?_, parts⟩
      unfold reconcileFinalization at reconciled
      split at reconciled
      · assumption
      · split at reconciled
        · simp only [bind_eq_ok, pure_eq_ok] at reconciled
          rcases reconciled with ⟨-, -, -, -, -, -, -, -, impossible⟩
          cases impossible
        · cases reconciled

end Rhi
