import Rhi.Finalization.Effects

/-!
# Durable finalizations

`reconcile_existing` counts rows; since every count it compares with one is keyed, it accepts a
finalization exactly when `Durable` holds: the rows are there as given, up to the columns that
later progress of the publication may change.  `Persisted` says what no call of the service takes
away again, and `Durable` depends on nothing else.
-/

namespace Rhi

open Relational Transactional

section Persisted

/-- The columns `publication_targets_guard_update` freezes. -/
def TargetRow.SameIdentity (old new : TargetRow) : Prop :=
  new.outboxId = old.outboxId ∧ new.targetOrdinal = old.targetOrdinal ∧
    new.relayId = old.relayId ∧ new.required = old.required

theorem OutboxRow.SameIdentity.refl (row : OutboxRow) : row.SameIdentity row := by
  simp [OutboxRow.SameIdentity]

theorem TargetRow.SameIdentity.refl (row : TargetRow) : row.SameIdentity row := by
  simp [TargetRow.SameIdentity]

/-- What stays of the rows a finalization is made of.  Inventories are added only for attempts that
were not there, outboxes for new events and targets for new outboxes. -/
structure Persisted (before after : Store) : Prop where
  manifests : before.manifests.rows ⊆ after.manifests.rows
  projections : before.projections.rows ⊆ after.projections.rows
  reports : before.reports.rows ⊆ after.reports.rows
  signedEvents : before.signedEvents.rows ⊆ after.signedEvents.rows
  attempts : before.attempts.rows ⊆ after.attempts.rows
  completed : ∀ row ∈ before.jobs.rows, row.state = .completed → row ∈ after.jobs.rows
  attemptSources : Grown Eq (fun row => ∀ attempt ∈ before.attempts.rows,
    attempt.attemptId ≠ row.attemptId) before.attemptSources.rows after.attemptSources.rows
  outbox : Grown OutboxRow.SameIdentity (fun row => ∀ event ∈ before.signedEvents.rows,
    event.eventId ≠ row.eventId) before.outbox.rows after.outbox.rows
  targets : Grown TargetRow.SameIdentity (fun row => ∀ outbox ∈ before.outbox.rows,
    outbox.outboxId ≠ row.outboxId) before.targets.rows after.targets.rows

theorem Persisted.refl (store : Store) : Persisted store store where
  manifests := List.Subset.refl _
  projections := List.Subset.refl _
  reports := List.Subset.refl _
  signedEvents := List.Subset.refl _
  attempts := List.Subset.refl _
  completed := fun _ rowMem _ => rowMem
  attemptSources := .refl (fun _ => rfl) _ _
  outbox := .refl OutboxRow.SameIdentity.refl _ _
  targets := .refl TargetRow.SameIdentity.refl _ _

end Persisted

section Durable

/-- The publication of a finalization is durable. -/
def PublicationDurable (attestation : Attestation) (publication : Option RequiredPublication)
    (store : Store) : Prop :=
  match publication with
  | none => ∀ row ∈ store.outbox.rows, row.eventId ≠ attestation.eventId
  | some required =>
      (∃ row ∈ store.outbox.rows, required.matchesOutbox attestation row = true) ∧
        (store.targets.rows.countP fun row => row.outboxId == required.outboxId) =
          required.targets.length ∧
        ∀ target ∈ required.targets, ∃ row ∈ store.targets.rows,
          target.matchesRow required.outboxId row = true

theorem publicationMatches_iff {attestation : Attestation}
    {publication : Option RequiredPublication} {store : Store} :
    publicationMatches attestation publication store = true ↔
      PublicationDurable attestation publication store := by
  cases publication with
  | none => simp [publicationMatches, PublicationDurable]
  | some required =>
      have outboxKeyed : ∀ left right, required.matchesOutbox attestation left = true →
          required.matchesOutbox attestation right = true →
          publicationOutbox.clash left right = true := by
        intro left right leftMatches rightMatches
        simp only [RequiredPublication.matchesOutbox, Bool.and_eq_true, beq_iff_eq]
          at leftMatches rightMatches
        rcases leftMatches with ⟨⟨⟨⟨⟨⟨⟨⟨⟨⟨leftId, -⟩, -⟩, -⟩, -⟩, -⟩, -⟩, -⟩, -⟩, -⟩, -⟩
        rcases rightMatches with ⟨⟨⟨⟨⟨⟨⟨⟨⟨⟨rightId, -⟩, -⟩, -⟩, -⟩, -⟩, -⟩, -⟩, -⟩, -⟩, -⟩
        simp [publicationOutbox, leftId, rightId]
      have targetKeyed : ∀ target : PublicationTarget, ∀ left right,
          target.matchesRow required.outboxId left = true →
          target.matchesRow required.outboxId right = true →
          publicationTargets.clash left right = true := by
        intro target left right leftMatches rightMatches
        simp only [PublicationTarget.matchesRow, Bool.and_eq_true, beq_iff_eq]
          at leftMatches rightMatches
        simp [publicationTargets, leftMatches, rightMatches]
      have targetIff : ∀ target : PublicationTarget,
          store.targets.rows.countP (target.matchesRow required.outboxId) = 1 ↔
            ∃ row ∈ store.targets.rows, target.matchesRow required.outboxId row = true :=
        fun target => Table.countP_eq_one_iff (targetKeyed target)
      simp only [publicationMatches, PublicationDurable, Bool.and_eq_true, beq_iff_eq,
        List.all_eq_true, Table.countP_eq_one_iff outboxKeyed, and_assoc, targetIff]

variable [Sha256]

/-- A finalization that `reconcile_existing` accepts. -/
structure Durable (attestation : Attestation) (publication : Option RequiredPublication)
    (store : Store) : Prop where
  manifest : attestation.manifestRow ∈ store.manifests.rows
  projection : attestation.projectionRow ∈ store.projections.rows
  report : attestation.reportRow ∈ store.reports.rows
  signedEvent : attestation.signedEventRow ∈ store.signedEvents.rows
  published : PublicationDurable attestation publication store
  revision : attestation.lease.job.revision + 1 ≤ maxInteger
  completed : ∃ row ∈ store.jobs.rows, attestation.lease.matchesCompleted row = true
  attempt : ∃ row ∈ store.attempts.rows, row.attemptId = attestation.attemptId ∧
    row.sourceCount = attestation.sources.length
  sourceCount : (store.attemptSources.rows.countP fun row =>
    row.attemptId == attestation.attemptId) = attestation.sources.length
  sources : ∀ entry ∈ attestation.sources.zipIdx,
    sourceMatches attestation.attemptId store entry.2 entry.1 = true
  supersession : ∀ superseded ∈ attestation.supersession, ∃ report ∈ store.reports.rows,
    ∃ event ∈ store.signedEvents.rows, event.statementDigest = report.statementDigest ∧
      report.statementDigest = superseded.1 ∧ event.eventId = superseded.2

omit [Sha256] in
theorem sourceMatches_iff {attempt : AttemptId} {store : Store} {ordinal : Nat}
    {source : FinalizationSource} :
    sourceMatches attempt store ordinal source = true ↔
      ∃ row ∈ store.attemptSources.rows, row.attemptId = attempt ∧ row.sourceOrdinal = ordinal ∧
        row.sourceId = source.sourceId ∧ row.required = source.required ∧
        row.acceptedEventCount = source.admittedEventCount ∧
        row.completion.toManifest = source.completion := by
  unfold sourceMatches
  rw [beq_iff_eq, Table.countP_eq_one_iff]
  · simp [ManifestCompletion.covers, and_assoc]
  · intro left right leftMatches rightMatches
    simp only [Bool.and_eq_true, beq_iff_eq] at leftMatches rightMatches
    simp [evidenceReconciliationSources, leftMatches, rightMatches]

omit [Sha256] in
theorem sum_map_ite (reports : List ReportRow) (selects : ReportRow → Bool) (count : Nat) :
    (reports.map fun report => if selects report then count else 0).sum =
      reports.countP selects * count := by
  induction reports with
  | nil => simp
  | cons report rest ih =>
      rw [List.map_cons, List.sum_cons, ih, List.countP_cons]
      cases selects report
      · simp
      · simp only [if_true]
        rw [Nat.add_mul, Nat.one_mul, Nat.add_comm]

omit [Sha256] in
/-- The join of a supersession is keyed by the statement and by the event. -/
theorem supersessionMatches_iff {attestation : Attestation} {store : Store} :
    supersessionMatches attestation store = true ↔
      ∀ superseded ∈ attestation.supersession, ∃ report ∈ store.reports.rows,
        ∃ event ∈ store.signedEvents.rows, event.statementDigest = report.statementDigest ∧
          report.statementDigest = superseded.1 ∧ event.eventId = superseded.2 := by
  unfold supersessionMatches
  cases attestation.supersession with
  | none => simp
  | some superseded =>
      -- the inner count is the same for the superseded report and zero for every other one
      have inner : ∀ report : ReportRow, (store.signedEvents.rows.countP fun event =>
          event.statementDigest == report.statementDigest &&
            report.statementDigest == superseded.1 && event.eventId == superseded.2) =
          if report.statementDigest == superseded.1 then
            store.signedEvents.rows.countP fun event =>
              event.statementDigest == superseded.1 && event.eventId == superseded.2
          else 0 := by
        intro report
        by_cases same : report.statementDigest = superseded.1
        · simp [same]
        · simp [same]
      have reportKeyed : ∀ left right : ReportRow, (left.statementDigest == superseded.1) = true →
          (right.statementDigest == superseded.1) = true →
          attestationReports.clash left right = true := by
        intro left right leftMatches rightMatches
        simp only [beq_iff_eq] at leftMatches rightMatches
        simp [attestationReports, leftMatches, rightMatches]
      have eventKeyed : ∀ left right : SignedEventRow,
          (left.statementDigest == superseded.1 && left.eventId == superseded.2) = true →
          (right.statementDigest == superseded.1 && right.eventId == superseded.2) = true →
          signedAttestationEvents.clash left right = true := by
        intro left right leftMatches rightMatches
        simp only [Bool.and_eq_true, beq_iff_eq] at leftMatches rightMatches
        simp [signedAttestationEvents, leftMatches, rightMatches]
      have product : ∀ left right : Nat, left * right = 1 ↔ left = 1 ∧ right = 1 := by
        intro left right
        constructor
        · intro one
          exact ⟨Nat.eq_one_of_mul_eq_one_right one, Nat.eq_one_of_mul_eq_one_left one⟩
        · rintro ⟨rfl, rfl⟩
          rfl
      simp only [Option.all_some, inner, sum_map_ite]
      rw [beq_iff_eq, product, Table.countP_eq_one_iff reportKeyed,
        Table.countP_eq_one_iff eventKeyed]
      simp only [Bool.and_eq_true, beq_iff_eq, Option.mem_def, Option.some.injEq, forall_eq']
      constructor
      · rintro ⟨⟨report, reportMem, named⟩, event, eventMem, stated, identified⟩
        exact ⟨report, reportMem, event, eventMem, by rw [stated, named], named, identified⟩
      · rintro ⟨report, reportMem, event, eventMem, stated, named, identified⟩
        exact ⟨⟨report, reportMem, named⟩, event, eventMem, by rw [stated, named], identified⟩

theorem inventoryMatches_iff {attestation : Attestation} {store : Store} :
    inventoryMatches attestation store = true ↔
      (∃ row ∈ store.attempts.rows, row.attemptId = attestation.attemptId ∧
        row.sourceCount = attestation.sources.length) ∧
      (store.attemptSources.rows.countP fun row => row.attemptId == attestation.attemptId) =
        attestation.sources.length ∧
      ∀ entry ∈ attestation.sources.zipIdx,
        sourceMatches attestation.attemptId store entry.2 entry.1 = true := by
  unfold inventoryMatches
  have keyed : ∀ left right : AttemptRow,
      (left.attemptId == attestation.attemptId &&
        left.sourceCount == attestation.sources.length) = true →
      (right.attemptId == attestation.attemptId &&
        right.sourceCount == attestation.sources.length) = true →
      evidenceReconciliations.clash left right = true := by
    intro left right leftMatches rightMatches
    simp only [Bool.and_eq_true, beq_iff_eq] at leftMatches rightMatches
    simp [evidenceReconciliations, leftMatches, rightMatches]
  simp only [Bool.and_eq_true, beq_iff_eq, List.all_eq_true, and_assoc,
    Table.countP_eq_one_iff keyed]

omit [Sha256] in
theorem count_eq_one_iff {Row : Type} [DecidableEq Row] {schema : Schema Row}
    {table : Table schema} {row : Row} (reflexive : schema.clash row row = true) :
    table.rows.count row = 1 ↔ row ∈ table.rows := by
  unfold List.count
  rw [Table.countP_eq_one_iff]
  · simp
  · intro left right leftSame rightSame
    simp only [beq_iff_eq] at leftSame rightSame
    rw [leftSame, rightSame]
    exact reflexive

theorem rowsMatch_iff {record : FinalizationRecord} {store : Store} :
    rowsMatch record store = true ↔
      record.attestation.manifestRow ∈ store.manifests.rows ∧
      record.attestation.projectionRow ∈ store.projections.rows ∧
      record.attestation.reportRow ∈ store.reports.rows ∧
      record.attestation.signedEventRow ∈ store.signedEvents.rows ∧
      PublicationDurable record.attestation record.publication store := by
  unfold rowsMatch
  simp only [Bool.and_eq_true, beq_iff_eq, and_assoc, publicationMatches_iff]
  rw [count_eq_one_iff (by simp [evidenceManifests]), count_eq_one_iff (by simp [tradeProjections]),
    count_eq_one_iff (by simp [attestationReports]),
    count_eq_one_iff (by simp [signedAttestationEvents])]

omit [Sha256] in
theorem completed_iff {lease : Lease} {store : Store} :
    store.jobs.rows.countP lease.matchesCompleted = 1 ↔
      ∃ row ∈ store.jobs.rows, lease.matchesCompleted row = true := by
  apply Table.countP_eq_one_iff
  intro left right leftMatches rightMatches
  simp only [Lease.matchesCompleted, Bool.and_eq_true, beq_iff_eq] at leftMatches rightMatches
  rcases leftMatches with ⟨⟨⟨⟨⟨⟨⟨⟨⟨⟨⟨leftId, -⟩, -⟩, -⟩, -⟩, -⟩, -⟩, -⟩, -⟩, -⟩, -⟩, -⟩
  rcases rightMatches with ⟨⟨⟨⟨⟨⟨⟨⟨⟨⟨⟨rightId, -⟩, -⟩, -⟩, -⟩, -⟩, -⟩, -⟩, -⟩, -⟩, -⟩, -⟩
  simp [reconciliationJobs, leftId, rightId]

theorem footprint_of_manifest {attestation : Attestation} {store : Store}
    (stored : attestation.manifestRow ∈ store.manifests.rows) :
    footprint attestation store ≠ 0 := by
  have counted : 0 < store.manifests.rows.countP (fun row =>
      row.manifestDigest == attestation.manifestDigest || row.attemptId == attestation.attemptId) :=
    List.countP_pos_iff.mpr ⟨_, stored, by simp [Attestation.manifestRow]⟩
  unfold footprint
  omega

/-- `reconcile_existing` accepts the durable finalizations and no others. -/
theorem reconcileFinalization_iff {record : FinalizationRecord} {store : Store} :
    reconcileFinalization record store = .ok true ↔
      Durable record.attestation record.publication store := by
  unfold reconcileFinalization
  constructor
  · intro accepted
    split at accepted
    · cases accepted
    · split at accepted
      · rename_i matched
        simp only [bind_eq_ok, require_eq_ok, decide_eq_true_eq, beq_iff_eq, completed_iff,
          validateSourceInventory, validateSupersession, inventoryMatches_iff,
          supersessionMatches_iff, pure_eq_ok] at accepted
        rcases accepted with ⟨_, revision, _, completed, _, ⟨attempt, sourceCount, sources⟩, _,
          supersession, -⟩
        rcases rowsMatch_iff.mp matched with ⟨manifest, projection, report, signedEvent, published⟩
        exact ⟨manifest, projection, report, signedEvent, published, revision, completed, attempt,
          sourceCount, sources, supersession⟩
      · cases accepted
  · intro durable
    have matched : rowsMatch record store = true := rowsMatch_iff.mpr
      ⟨durable.manifest, durable.projection, durable.report, durable.signedEvent,
        durable.published⟩
    rw [if_neg (footprint_of_manifest durable.manifest), if_pos matched]
    simp only [bind_eq_ok, require_eq_ok, decide_eq_true_eq, beq_iff_eq, completed_iff,
      validateSourceInventory, validateSupersession, inventoryMatches_iff,
      supersessionMatches_iff, pure_eq_ok]
    exact ⟨(), durable.revision, (), durable.completed, (),
      ⟨durable.attempt, durable.sourceCount, durable.sources⟩, (), durable.supersession, trivial⟩

end Durable

section Kept

theorem RequiredPublication.matchesOutbox_of_same {required : RequiredPublication}
    {attestation : Attestation} {old new : OutboxRow} (same : old.SameIdentity new)
    (matched : required.matchesOutbox attestation old = true) :
    required.matchesOutbox attestation new = true := by
  unfold RequiredPublication.matchesOutbox at matched ⊢
  rcases same with ⟨id, event, digest, authority, targetSet, targetCount, requiredCount, attempts,
    initial, maximum, deadline, -⟩
  rw [id, event, digest, authority, targetSet, targetCount, requiredCount, attempts, initial,
    maximum, deadline]
  exact matched

theorem PublicationTarget.matchesRow_of_same {target : PublicationTarget} {outbox : Digest}
    {old new : TargetRow} (same : old.SameIdentity new)
    (matched : target.matchesRow outbox old = true) : target.matchesRow outbox new = true := by
  unfold PublicationTarget.matchesRow at matched ⊢
  rcases same with ⟨id, ordinal, relay, required⟩
  rw [id, ordinal, relay, required]
  exact matched

theorem PublicationDurable.kept {attestation : Attestation}
    {publication : Option RequiredPublication} {before after : Store}
    (persisted : Persisted before after)
    (signed : attestation.signedEventRow ∈ before.signedEvents.rows)
    (durable : PublicationDurable attestation publication before) :
    PublicationDurable attestation publication after := by
  cases publication with
  | none =>
      intro row rowMem same
      rcases persisted.outbox.origin rowMem with ⟨old, oldMem, kept⟩ | fresh
      · exact durable old oldMem (kept.2.1.symm.trans same)
      · exact fresh _ signed same.symm
  | some required =>
      rcases durable with ⟨⟨outbox, outboxMem, matched⟩, counted, targets⟩
      refine ⟨?_, ?_, ?_⟩
      · rcases persisted.outbox.successor outboxMem with ⟨next, nextMem, same⟩
        exact ⟨next, nextMem, RequiredPublication.matchesOutbox_of_same same matched⟩
      · rw [← counted]
        apply persisted.targets.countP_eq
        · intro old new same
          rw [same.1]
        · intro row fresh
          have apart := fresh outbox outboxMem
          simp only [RequiredPublication.matchesOutbox, Bool.and_eq_true, beq_iff_eq] at matched
          rcases matched with ⟨⟨⟨⟨⟨⟨⟨⟨⟨⟨id, -⟩, -⟩, -⟩, -⟩, -⟩, -⟩, -⟩, -⟩, -⟩, -⟩
          rw [id] at apart
          simpa using apart.symm
      · intro target targetMem
        rcases targets target targetMem with ⟨row, rowMem, rowMatched⟩
        rcases persisted.targets.successor rowMem with ⟨next, nextMem, same⟩
        exact ⟨next, nextMem, PublicationTarget.matchesRow_of_same same rowMatched⟩

variable [Sha256]

/-- A durable finalization stays durable. -/
theorem Durable.kept {attestation : Attestation} {publication : Option RequiredPublication}
    {before after : Store} (persisted : Persisted before after)
    (durable : Durable attestation publication before) :
    Durable attestation publication after := by
  rcases durable.attempt with ⟨attempt, attemptMem, named, counted⟩
  refine {
    manifest := persisted.manifests durable.manifest
    projection := persisted.projections durable.projection
    report := persisted.reports durable.report
    signedEvent := persisted.signedEvents durable.signedEvent
    published := durable.published.kept persisted durable.signedEvent
    revision := durable.revision, completed := ?_
    attempt := ⟨attempt, persisted.attempts attemptMem, named, counted⟩
    sourceCount := ?_, sources := ?_, supersession := ?_ }
  · rcases durable.completed with ⟨row, rowMem, matched⟩
    refine ⟨row, persisted.completed row rowMem ?_, matched⟩
    simp only [Lease.matchesCompleted, Bool.and_eq_true, beq_iff_eq] at matched
    exact matched.1.1.1.1.1.1.1.2
  · rw [← durable.sourceCount]
    apply persisted.attemptSources.countP_eq
    · rintro old _ rfl
      rfl
    · intro row fresh
      have apart := fresh attempt attemptMem
      rw [named] at apart
      simpa using apart.symm
  · intro entry entryMem
    rcases sourceMatches_iff.mp (durable.sources entry entryMem) with ⟨row, rowMem, columns⟩
    rcases persisted.attemptSources.successor rowMem with ⟨next, nextMem, rfl⟩
    exact sourceMatches_iff.mpr ⟨row, nextMem, columns⟩
  · intro superseded isSuperseded
    rcases durable.supersession superseded isSuperseded with
      ⟨report, reportMem, event, eventMem, columns⟩
    exact ⟨report, persisted.reports reportMem, event, persisted.signedEvents eventMem, columns⟩

end Kept

section Created

/-- Every target belongs to a stored outbox. -/
def TargetsReferenced (store : Store) : Prop :=
  ∀ target ∈ store.targets.rows, ∃ outbox ∈ store.outbox.rows, outbox.outboxId = target.outboxId

theorem RequiredPublication.matchesOutbox_outboxRow (required : RequiredPublication)
    (attestation : Attestation) (now : Nat) :
    required.matchesOutbox attestation (required.outboxRow attestation now) = true := by
  simp [RequiredPublication.matchesOutbox, RequiredPublication.outboxRow]

theorem PublicationTarget.matchesRow_row (target : PublicationTarget) (outbox : Digest)
    (now : Nat) : target.matchesRow outbox (target.row outbox now) = true := by
  simp [PublicationTarget.matchesRow, PublicationTarget.row]

variable [Sha256]

theorem footprint_outbox {attestation : Attestation} {store : Store}
    (absent : footprint attestation store = 0) :
    ∀ row ∈ store.outbox.rows, row.eventId ≠ attestation.eventId := by
  have counted : store.outbox.rows.countP (fun row => row.eventId == attestation.eventId) = 0 := by
    unfold footprint at absent
    omega
  intro row rowMem same
  exact List.countP_eq_zero.mp counted row rowMem (by simp [same])

theorem publicationDurable_of_inserted {record : FinalizationRecord} {before after : Store}
    (referenced : TargetsReferenced before)
    (absent : footprint record.attestation before = 0)
    (inserted : FinalizationInserted record before { after with jobs := before.jobs }) :
    PublicationDurable record.attestation record.publication after := by
  have outbox : after.outbox.rows = before.outbox.rows ++ outboxRows record := inserted.outbox
  have targets : after.targets.rows = before.targets.rows ++ targetRows record := inserted.targets
  have newOutbox := inserted.newOutbox
  unfold outboxRows at outbox
  unfold targetRows at targets
  cases publication : record.publication with
  | none =>
      simp only [publication, Option.toList_none, List.map_nil, List.append_nil] at outbox
      intro row rowMem
      rw [outbox] at rowMem
      exact footprint_outbox absent row rowMem
  | some required =>
      simp only [publication, Option.toList_some, List.map_cons, List.map_nil] at outbox
      simp only [publication, Option.toList_some, List.flatMap_cons, List.flatMap_nil,
        List.append_nil] at targets
      -- no stored target can carry the new identity: its outbox would have been there before
      have oldTargets : (before.targets.rows.countP fun row =>
          row.outboxId == required.outboxId) = 0 := by
        refine List.countP_eq_zero.mpr ?_
        intro row rowMem same
        rcases referenced row rowMem with ⟨stored, storedMem, named⟩
        exact newOutbox stored storedMem required publication (named.trans (by simpa using same))
      have newTargets : ((required.targets.map fun target =>
          target.row required.outboxId record.now.get).countP fun row =>
            row.outboxId == required.outboxId) = required.targets.length := by
        rw [List.countP_eq_length.mpr]
        · simp
        · intro row rowMem
          rcases List.mem_map.mp rowMem with ⟨target, -, rfl⟩
          simp [PublicationTarget.row]
      refine ⟨⟨_, ?_, required.matchesOutbox_outboxRow record.attestation record.now.get⟩, ?_, ?_⟩
      · rw [outbox]
        simp
      · rw [targets, List.countP_append, oldTargets, newTargets, Nat.zero_add]
      · intro target targetMem
        refine ⟨_, ?_, target.matchesRow_row required.outboxId record.now.get⟩
        rw [targets]
        exact List.mem_append_right _ (List.mem_map_of_mem targetMem)

theorem matchesCompleted_of_held {lease : Lease} {store : Store} {row : JobRow} (now : Nat)
    (current : lease.Current store) (rowMem : row ∈ store.jobs.rows)
    (held : row.heldBy lease = true) :
    lease.matchesCompleted ((completeJob now lease).write row) = true := by
  rcases current with ⟨stored, storedMem, read⟩
  have sameId : row.jobId = stored.jobId := by
    simp only [JobRow.heldBy, Bool.and_eq_true, beq_iff_eq] at held
    rw [held.1.1.1.1, read.jobId]
  have same := eq_of_jobId_eq rowMem storedMem sameId
  rw [same, ← toRow_of_decodeJob read.decoded]
  simp [Lease.matchesCompleted, completeJob, Job.toRow]

/-- A created finalization is durable. -/
theorem durable_of_created {record : FinalizationRecord} {before after : Store}
    (referenced : TargetsReferenced before)
    (absent : footprint record.attestation before = 0)
    (created : FinalizationCreated record before after) :
    Durable record.attestation record.publication after := by
  have inserted := created.inserted
  rcases created.held with ⟨row, rowMem, held, written⟩
  have completed := matchesCompleted_of_held record.now.get created.fenced.current rowMem held
  have only := inserted.only
  have sameAttempts : after.attempts = before.attempts := by
    simpa using congrArg Store.attempts only
  have sameSources : after.attemptSources = before.attemptSources := by
    simpa using congrArg Store.attemptSources only
  rcases inventoryMatches_iff.mp created.matched with ⟨attempt, sourceCount, sources⟩
  refine {
    manifest := by rw [inserted.manifests]; simp
    projection := by rw [inserted.projections]; simp
    report := by rw [inserted.reports]; simp
    signedEvent := by rw [inserted.signedEvents]; simp
    published := publicationDurable_of_inserted referenced absent inserted
    revision := ?_
    completed := ⟨_, written, completed⟩
    attempt := by rw [sameAttempts]; exact attempt
    sourceCount := by rw [sameSources]; exact sourceCount
    sources := ?_
    supersession := ?_ }
  · have checked := (JobRow.check_iff.mp (after.jobs.checked _ written)).1
    simp only [Lease.matchesCompleted, Bool.and_eq_true, beq_iff_eq] at completed
    rw [← completed.1.1.1.1.1.1.2]
    exact checked.2.1.2
  · intro entry entryMem
    have matched := sources entry entryMem
    unfold sourceMatches at matched ⊢
    rw [sameSources]
    exact matched
  · intro superseded isSuperseded
    rcases supersessionMatches_iff.mp created.supersession superseded isSuperseded with
      ⟨report, reportMem, event, eventMem, columns⟩
    refine ⟨report, ?_, event, ?_, columns⟩
    · rw [inserted.reports]
      exact List.mem_append_left _ reportMem
    · rw [inserted.signedEvents]
      exact List.mem_append_left _ eventMem

end Created

end Rhi
