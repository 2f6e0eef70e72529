import Rhi.Evidence.Checkpoints

/-!
# Repeating the commit of an attempt

A committed attempt is recognised by its rows: the attempt, one result for each source, and the
checkpoints it moved.  No call takes these away or moves a checkpoint back, so that the same commit
is found again however the store went on, and a commit that differs in any column is a conflict.
-/

namespace Rhi

open Relational Transactional

section Attempts

variable [Sha256]

section Durable

/-- Everything `reconcile_existing` asks for is stored. -/
structure AttemptDurable (plan : AttemptPlan) (replays : List SourceReplay) (store : Store) :
    Prop where
  attempt : ∃ row, plan.row = some row ∧ row ∈ store.attempts.rows
  sources : (store.attemptSources.rows.countP fun row => row.attemptId == plan.id) =
    replays.length
  results : ∀ entry ∈ replays.zipIdx, entry.1.row plan.id entry.2 ∈ store.attemptSources.rows
  reached : ∀ replay ∈ replays, checkpointReached plan replay store = true

omit [Sha256] in
theorem representable_of_attempt {row : AttemptRow}
    (checked : evidenceReconciliations.check row = true) : row.representable = true := by
  simp only [evidenceReconciliations, decide_eq_true_eq] at checked
  simp only [AttemptRow.representable, decide_eq_true_eq]
  omega

omit [Sha256] in
theorem representable_of_source {row : AttemptSourceRow}
    (checked : evidenceReconciliationSources.check row = true) : row.representable = true := by
  simp only [evidenceReconciliationSources, decide_eq_true_eq] at checked
  rcases checked with ⟨-, ordered, finished, -, bytes, -, -, prior, -, overlap, since, candidate, -⟩
  simp only [AttemptSourceRow.representable, decide_eq_true_eq]
  refine ⟨by omega, finished, ?_, prior, ?_, since, candidate⟩
  · exact bytes.trans (by decide)
  · exact overlap.trans (by decide)

theorem matchSourceResults_eq_ok {plan : AttemptPlan} {store : Store}
    {replays : List SourceReplay} {ordinal : Nat} {done : Unit} :
    matchSourceResults plan store replays ordinal = .ok done ↔
      (∀ entry ∈ replays.zipIdx ordinal,
        (entry.1.row plan.id entry.2).representable = true ∧
          store.attemptSources.rows.count (entry.1.row plan.id entry.2) = 1) ∧
      ∀ replay ∈ replays, checkpointReached plan replay store = true := by
  induction replays generalizing ordinal with
  | nil => simp [matchSourceResults]
  | cons replay rest ih =>
      simp only [matchSourceResults, bind_eq_ok, require_eq_ok, beq_iff_eq, ih, List.zipIdx_cons,
        List.forall_mem_cons, exists_const]
      constructor
      · rintro ⟨fits, stored, reached, others, reachedOthers⟩
        exact ⟨⟨⟨fits, stored⟩, others⟩, reached, reachedOthers⟩
      · rintro ⟨⟨⟨fits, stored⟩, others⟩, reached, reachedOthers⟩
        exact ⟨fits, stored, reached, others, reachedOthers⟩

theorem reconcileAttempt_eq_true_iff {plan : AttemptPlan} {replays : List SourceReplay}
    {store : Store} :
    reconcileAttempt plan replays store = .ok true ↔ AttemptDurable plan replays store := by
  constructor
  · intro reconciled
    unfold reconcileAttempt at reconciled
    split at reconciled
    · cases reconciled
    · simp only [bind_eq_ok, orError_eq_ok, require_eq_ok, beq_iff_eq] at reconciled
      rcases reconciled with ⟨row, made, -, -, -, single, -, counted, _, matched, -⟩
      rw [matchSourceResults_eq_ok] at matched
      refine ⟨⟨row, made, List.count_pos_iff.mp (by omega)⟩, counted, ?_, matched.2⟩
      intro entry entryMem
      exact List.count_pos_iff.mp (by rw [(matched.1 entry entryMem).2]; exact Nat.one_pos)
  · rintro ⟨⟨row, made, rowMem⟩, counted, results, reached⟩
    have present : store.attempts.rows.countP (fun row => row.attemptId == plan.id) ≠ 0 := by
      intro absent
      have other := List.countP_eq_zero.mp absent row rowMem
      simp [attemptId_of_row made] at other
    unfold reconcileAttempt
    rw [if_neg present]
    simp only [bind_eq_ok, orError_eq_ok, require_eq_ok, beq_iff_eq, matchSourceResults_eq_ok]
    refine ⟨row, made, (), representable_of_attempt (store.attempts.checked row rowMem), (),
      Table.count_eq_one (by simp [evidenceReconciliations]) rowMem, (), counted, (),
      ⟨?_, reached⟩, rfl⟩
    intro entry entryMem
    have stored := results entry entryMem
    exact ⟨representable_of_source (store.attemptSources.checked _ stored),
      Table.count_eq_one (by simp [evidenceReconciliationSources]) stored⟩

end Durable

section Checkpoints

/-- No checkpoint is taken away or moved back. -/
def CheckpointsKept (before after : Store) : Prop :=
  ∀ source policy trade, ∀ row ∈ readCheckpoint before source policy trade,
    ∃ next ∈ readCheckpoint after source policy trade,
      next = row ∨ row.cursor.lt next.cursor = true

omit [Sha256] in
theorem CheckpointsKept.of_same {before after : Store}
    (same : after.checkpoints = before.checkpoints) : CheckpointsKept before after := by
  intro source policy trade row rowMem
  refine ⟨row, ?_, .inl rfl⟩
  unfold readCheckpoint at rowMem ⊢
  rwa [same]

omit [Sha256] in
/-- A checkpoint that follows by moves of one revision each is kept. -/
theorem CheckpointsKept.of_moves {before after : Store}
    (moves : ∀ source policy trade,
      readCheckpoint after source policy trade = readCheckpoint before source policy trade ∨
        ∃ new, readCheckpoint after source policy trade = some new ∧
          new.Succeeds (readCheckpoint before source policy trade)) :
    CheckpointsKept before after := by
  intro source policy trade row rowMem
  rcases moves source policy trade with same | ⟨new, read, succeeds⟩
  · exact ⟨row, by rwa [same], .inl rfl⟩
  · rw [Option.mem_def.mp rowMem] at succeeds
    exact ⟨new, read, .inr (compareCursor_eq_lt.mp succeeds.1)⟩

omit [Sha256] in
theorem checkpointReached_of_kept {plan : AttemptPlan} {replay : SourceReplay}
    {before after : Store} (kept : CheckpointsKept before after)
    (reached : checkpointReached plan replay before = true) :
    checkpointReached plan replay after = true := by
  unfold checkpointReached at reached ⊢
  cases eligible : replay.eligibleCursor with
  | none => rfl
  | some cursor =>
      rw [eligible, Option.all_some, Option.any_eq_true] at reached
      rw [Option.all_some, Option.any_eq_true]
      rcases reached with ⟨row, read, notBefore⟩
      rcases kept _ _ _ row read with ⟨next, readNext, rfl | beyond⟩
      · exact ⟨next, readNext, notBefore⟩
      · refine ⟨next, readNext, ?_⟩
        simp only [Bool.not_eq_true'] at notBefore ⊢
        exact SourceCursor.not_lt_of_lt beyond notBefore

omit [Sha256] in
theorem SourceCursor.lt_trans {first second third : SourceCursor}
    (left : first.lt second = true) (right : second.lt third = true) : first.lt third = true := by
  rw [SourceCursor.lt_iff] at left right ⊢
  rcases left with earlier | ⟨same, smaller⟩
  · rcases right with later | ⟨sameThen, -⟩
    · exact .inl (earlier.trans later)
    · exact .inl (sameThen ▸ earlier)
  · rcases right with later | ⟨sameThen, larger⟩
    · exact .inl (same ▸ later)
    · exact .inr ⟨same.trans sameThen, BitVec.lt_trans smaller larger⟩

omit [Sha256] in
theorem CheckpointsKept.trans {first second third : Store} (left : CheckpointsKept first second)
    (right : CheckpointsKept second third) : CheckpointsKept first third := by
  intro source policy trade row rowMem
  rcases left source policy trade row rowMem with ⟨middle, middleMem, earlier⟩
  rcases right source policy trade middle middleMem with ⟨last, lastMem, later⟩
  refine ⟨last, lastMem, ?_⟩
  rcases earlier with rfl | beyond
  · exact later
  · rcases later with rfl | further
    · exact .inr beyond
    · exact .inr (SourceCursor.lt_trans beyond further)

omit [Sha256] in
theorem kept_moveCheckpoint {plan : AttemptPlan} {replay : SourceReplay}
    {checkpoint : Option CheckpointRow} {store next : Store}
    (done : moveCheckpoint plan replay checkpoint store = .ok next) :
    CheckpointsKept store next ∧ next.attemptSources = store.attemptSources ∧
      checkpointReached plan replay next = true := by
  have only : next = { store with checkpoints := next.checkpoints } :=
    (moveCheckpoint_spec done).1
  have sources : next.attemptSources = store.attemptSources := by rw [only]
  unfold moveCheckpoint at done
  split at done
  · rename_i ineligible
    cases done
    refine ⟨.of_same rfl, rfl, ?_⟩
    simp [checkpointReached, ineligible]
  · rename_i cursor eligible
    simp only [mapError_eq_ok] at done
    rcases writeCheckpoint_succeeds done with ⟨new, read, isCursor, succeeds, -, -⟩
    refine ⟨.of_moves ?_, sources, ?_⟩
    · intro source policy trade
      by_cases scope : (source, policy, trade) =
          (replay.plan.sourceId, plan.policyDigest, replay.plan.tradeId)
      · simp only [Prod.mk.injEq] at scope
        rcases scope with ⟨rfl, rfl, rfl⟩
        exact .inr ⟨new, read, succeeds⟩
      · exact .inl ((writeCheckpoint_spec done).2.2.2.2 source policy trade scope)
    · simp [checkpointReached, eligible, read, isCursor, SourceCursor.lt_irrefl]

theorem kept_commitSources {plan : AttemptPlan}
    {entries : List (SourceReplay × Option CheckpointRow)} {ordinal : Nat} {store next : Store}
    (done : commitSources plan entries ordinal store = .ok next) :
    CheckpointsKept store next ∧ next.attemptSources.rows = store.attemptSources.rows ++
        ((entries.map (·.1)).zipIdx ordinal).map (fun entry => entry.1.row plan.id entry.2) ∧
      ∀ replay ∈ entries.map (·.1), checkpointReached plan replay next = true := by
  induction entries generalizing ordinal store with
  | nil =>
      simp only [commitSources, Except.ok.injEq] at done
      rw [done]
      exact ⟨.of_same rfl, by simp, by simp⟩
  | cons entry rest ih =>
      rcases entry with ⟨replay, checkpoint⟩
      simp only [commitSources, bind_eq_ok] at done
      rcases done with ⟨moved, moving, inserted, inserting, done⟩
      rcases insertSourceResult_spec inserting with ⟨insertedOnly, insertedRows⟩
      rcases ih done with ⟨kept, rows, reached⟩
      rcases kept_moveCheckpoint moving with ⟨keptMoved, sources, reachedMoved⟩
      have insertedKept : CheckpointsKept moved next := by
        refine CheckpointsKept.trans (.of_same ?_) kept
        rw [insertedOnly]
      refine ⟨keptMoved.trans insertedKept, ?_, ?_⟩
      · rw [rows, insertedRows, sources]
        simp [List.zipIdx_cons]
      · intro other otherMem
        rw [List.map_cons] at otherMem
        rcases List.mem_cons.mp otherMem with rfl | later
        · exact checkpointReached_of_kept insertedKept reachedMoved
        · exact reached other later

end Checkpoints

section Service

/-- Results of sources belong to stored attempts. -/
def SourcesReferenced (store : Store) : Prop :=
  ∀ row ∈ store.attemptSources.rows, ∃ attempt ∈ store.attempts.rows,
    attempt.attemptId = row.attemptId

/-- A commit that creates its attempt makes it durable. -/
theorem durable_of_createAttempt {lease : Lease} {plan : AttemptPlan}
    {replays : List SourceReplay} {store next : Store} {outcome : RawCommitOutcome}
    (referenced : SourcesReferenced store)
    (absent : ∀ row ∈ store.attempts.rows, row.attemptId ≠ plan.id)
    (done : createAttempt lease plan replays store = .ok (outcome, next)) :
    AttemptDurable plan replays next := by
  simp only [createAttempt, bind_eq_ok, orError_eq_ok, mapError_eq_ok] at done
  rcases done with ⟨-, -, dirty, -, checkpoints, read, attempted, inserting,
    ⟨inserted, persisted⟩, persisting, ⟨generation, advanced⟩, marking, last, committing, finished⟩
  simp only [pure_eq_ok, Prod.mk.injEq] at finished
  rcases finished with ⟨-, rfl⟩
  rcases insertAttempt_spec inserting with ⟨attemptedOnly, row, made, attemptRows⟩
  have advancedOnly : advanced = { persisted with dirty := advanced.dirty } :=
    markDirty_only marking
  have persistedOnly := persistAll_only persisting
  have lastOnly := (commitSources_spec committing).only
  rcases kept_commitSources committing with ⟨-, rows, reached⟩
  have entries : (replays.zip checkpoints).map (·.1) = replays :=
    List.map_fst_zip (length_readCheckpoints read).ge
  rw [entries] at rows reached
  have sources : advanced.attemptSources = store.attemptSources := by
    rw [advancedOnly, persistedOnly, attemptedOnly]
  rw [sources] at rows
  have fresh : (store.attemptSources.rows.countP fun row => row.attemptId == plan.id) = 0 := by
    refine List.countP_eq_zero.mpr ?_
    intro result resultMem
    rcases referenced result resultMem with ⟨attempt, attemptMem, same⟩
    rw [← same]
    simpa using absent attempt attemptMem
  refine ⟨⟨row, made, ?_⟩, ?_, ?_, reached⟩
  · rw [lastOnly, advancedOnly, persistedOnly]
    simp [attemptRows]
  · rw [rows, List.countP_append, fresh, List.countP_map, Nat.zero_add]
    have all : ∀ entry ∈ replays.zipIdx, ((fun row : AttemptSourceRow => row.attemptId == plan.id) ∘
        fun entry : SourceReplay × Nat => entry.1.row plan.id entry.2) entry = true := by
      intro entry _
      simp [SourceReplay.row]
    rw [List.countP_eq_length.mpr all, List.length_zipIdx]
  · intro entry entryMem
    rw [rows]
    exact List.mem_append_right _ (List.mem_map_of_mem entryMem)

theorem durable_of_commitAttempt {lease : Lease} {plan : AttemptPlan}
    {replays : List SourceReplay} {store next : Store} {outcome : RawCommitOutcome}
    (referenced : SourcesReferenced store)
    (done : commitAttempt lease plan replays store = .ok (outcome, next)) :
    AttemptDurable plan replays next ∧ ∃ created advanced,
      outcome = rawOutcome created advanced replays := by
  simp only [commitAttempt, bind_eq_ok] at done
  rcases done with ⟨existing, reconciled, done⟩
  cases existing with
  | true =>
      simp only [if_true, pure_eq_ok, Prod.mk.injEq] at done
      rcases done with ⟨rfl, rfl⟩
      exact ⟨reconcileAttempt_eq_true_iff.mp reconciled, _, _, rfl⟩
  | false =>
      simp only [Bool.false_eq_true, if_false] at done
      refine ⟨durable_of_createAttempt referenced (reconcileAttempt_absent reconciled) done, ?_⟩
      simp only [createAttempt, bind_eq_ok, pure_eq_ok, Prod.mk.injEq] at done
      rcases done with ⟨-, -, _, -, _, -, _, -, ⟨inserted, _⟩, -, _, -, _, -, rfl, -⟩
      exact ⟨_, _, rfl⟩

/-- Only the two commits of evidence touch checkpoints. -/
theorem checkpoints_of_effect {host : Host} {before after : Store} {operation : Operation}
    (effect : Effect host before operation after) :
    after.checkpoints = before.checkpoints ∨
      (∃ disposition source trade observedAt initial fetched,
        operation = .commitSourceResult disposition source trade observedAt initial fetched) ∨
      ∃ disposition lease plan replays,
        operation = .commitSourceReplays disposition lease plan replays := by
  cases effect with
  | unchanged => exact .inl rfl
  | scheduled read scheduled => exact .inl (by rw [scheduled.only])
  | claimed only rewritten => exact .inl (by rw [only])
  | renewed only rewritten => exact .inl (by rw [only])
  | failed only rewritten => exact .inl (by rw [only])
  | ingested parts => exact .inr (.inl ⟨_, _, _, _, _, _, rfl⟩)
  | committed created => exact .inr (.inr ⟨_, _, _, _, rfl⟩)
  | finalized made absent created =>
      exact .inl (by simpa using congrArg Store.checkpoints created.inserted.only)
  | outboxProgressed updated => exact .inl rfl
  | targetsProgressed updated => exact .inl rfl

/-- Attempts come with their rows, and results only with their attempts. -/
theorem referenced_of_effect {host : Host} {before after : Store} {operation : Operation}
    (effect : Effect host before operation after) (referenced : SourcesReferenced before) :
    SourcesReferenced after := by
  have framed : after.attempts = before.attempts → after.attemptSources = before.attemptSources →
      SourcesReferenced after := by
    intro sameAttempts sameSources row rowMem
    rw [sameSources] at rowMem
    rw [sameAttempts]
    exact referenced row rowMem
  cases effect with
  | unchanged => exact referenced
  | scheduled read scheduled => exact framed (by rw [scheduled.only]) (by rw [scheduled.only])
  | claimed only rewritten => exact framed (by rw [only]) (by rw [only])
  | renewed only rewritten => exact framed (by rw [only]) (by rw [only])
  | failed only rewritten => exact framed (by rw [only]) (by rw [only])
  | ingested parts => exact framed (by rw [parts.evidenceOnly]) (by rw [parts.evidenceOnly])
  | committed created =>
      rcases created.attempt with ⟨attempt, made, attempts⟩
      rcases created.results with ⟨added, sources, named⟩
      intro row rowMem
      rw [sources] at rowMem
      rw [attempts]
      rcases List.mem_append.mp rowMem with old | new
      · rcases referenced row old with ⟨stored, storedMem, same⟩
        exact ⟨stored, List.mem_append_left _ storedMem, same⟩
      · refine ⟨attempt, by simp, ?_⟩
        rw [attemptId_of_row made, named row new]
  | finalized made absent created =>
      exact framed (by simpa using congrArg Store.attempts created.inserted.only)
        (by simpa using congrArg Store.attemptSources created.inserted.only)
  | outboxProgressed updated => exact referenced
  | targetsProgressed updated => exact referenced

variable [TradeEvidence]

theorem kept_run (operation : Operation) (host : Host) (store : Store) :
    CheckpointsKept store (operation.run host store) := by
  rcases checkpoints_of_effect (run_effect operation host store) with
    same | ⟨disposition, source, trade, observedAt, initial, fetched, rfl⟩ |
      ⟨disposition, lease, plan, replays, rfl⟩
  · exact .of_same same
  · simp only [Operation.run]
    split
    · unfold commitSourceResult
      rcases transaction_store mapIngestError disposition (commitSource source
        host.binding.evidencePolicy observedAt initial fetched) store with
        same | ⟨outcome, next, done, same⟩
      · rw [same]
        exact .of_same rfl
      · rw [same]
        refine .of_moves ?_
        intro source policy trade
        rcases commitSource_moves done source policy trade with
          kept | ⟨-, -, -, -, new, read, -, succeeds⟩
        · exact .inl kept
        · exact .inr ⟨new, read, succeeds⟩
    · exact .of_same rfl
  · refine .of_moves ?_
    intro source policy trade
    rcases commitSourceReplays_moves host.mode disposition lease plan replays store source policy
      trade with kept | ⟨-, -, -, -, -, new, read, -, succeeds⟩
    · exact .inl kept
    · exact .inr ⟨new, read, succeeds⟩

theorem kept_apply (call : Call) (service : Service) :
    CheckpointsKept service.store (service.apply call).store := by
  rcases apply_cases call service with ⟨operation, host, -, -, applied⟩ | only
  · rw [applied]
    exact kept_run operation host service.store
  · exact .of_same (by rw [only])

theorem referenced_apply (call : Call) {service : Service}
    (referenced : SourcesReferenced service.store) :
    SourcesReferenced (service.apply call).store := by
  rcases apply_cases call service with ⟨operation, host, -, -, applied⟩ | only
  · rw [applied]
    exact referenced_of_effect (run_effect operation host service.store) referenced
  · rw [only]
    exact referenced

/-- A durable attempt stays durable. -/
theorem durable_apply (call : Call) {service : Service} {plan : AttemptPlan}
    {replays : List SourceReplay} (durable : AttemptDurable plan replays service.store) :
    AttemptDurable plan replays (service.apply call).store := by
  have persisted := persisted_apply call service
  have kept := kept_apply call service
  rcases durable.attempt with ⟨row, made, rowMem⟩
  refine ⟨⟨row, made, persisted.attempts rowMem⟩, ?_, ?_, ?_⟩
  · rw [← durable.sources]
    refine persisted.attemptSources.countP_eq ?_ ?_
    · rintro old new rfl
      rfl
    · intro fresh isFresh
      have other := isFresh row rowMem
      rw [attemptId_of_row made] at other
      simpa using other.symm
  · intro entry entryMem
    rcases persisted.attemptSources.successor (durable.results entry entryMem) with
      ⟨next, nextMem, rfl⟩
    exact nextMem
  · intro replay replayMem
    exact checkpointReached_of_kept kept (durable.reached replay replayMem)

theorem attemptDurable_exec (calls : List Call) {service : Service} {plan : AttemptPlan}
    {replays : List SourceReplay} (durable : AttemptDurable plan replays service.store) :
    AttemptDurable plan replays (service.exec calls).store :=
  Transition.exec_invariant (fun service : Service => AttemptDurable plan replays service.store)
    (fun call _ kept => durable_apply call kept) calls durable

end Service

section Conflicts

/-- The numbers of a replay fit the columns they are bound to. -/
def SourceReplay.Bounded (replay : SourceReplay) : Prop :=
  replay.result.startedAt ≤ maxInteger ∧ replay.result.finishedAt ≤ maxInteger ∧
    replay.result.acceptedEventBytes ≤ maxInteger ∧
    (∀ cursor ∈ replay.plan.priorCursor, cursor.createdAt ≤ maxInteger) ∧
    replay.plan.overlapSeconds ≤ maxInteger ∧ replay.plan.since ≤ maxInteger ∧
    ∀ cursor ∈ replay.cursorCandidate, cursor.createdAt ≤ maxInteger

/-- An attempt as planning and replaying seal it: it asks a source, its generation was read from the
store, and its instants, sizes and cursors are bounded by their types. -/
structure SealedAttempt where
  plan : AttemptPlan
  sealed : List SealedReplay
  requested : plan.requests ≠ []
  generation_le : plan.inputGeneration ≤ maxInteger
  started_le : plan.attemptStartedAt ≤ maxInteger
  deadline_le : plan.deadline ≤ maxInteger
  bounded : ∀ entry ∈ sealed, entry.replay.Bounded

def SealedAttempt.replays (attempt : SealedAttempt) : List SourceReplay :=
  attempt.sealed.map (·.replay)

/-- Two attempts differ in a column of the attempt, in the number of sources, or in a column of one
of their results. -/
def SealedAttempt.Differs (left : SealedAttempt) (plan : AttemptPlan)
    (replays : List SourceReplay) : Prop :=
  left.plan.row ≠ plan.row ∨ left.replays.length ≠ replays.length ∨
    ∃ (index : Nat) (mine other : SourceReplay), left.replays[index]? = some mine ∧
      replays[index]? = some other ∧ mine.row plan.id index ≠ other.row plan.id index

variable {plan : AttemptPlan} {replays : List SourceReplay} {store : Store}

theorem matchSourceResults_error {ordinal : Nat} {failure : CommitOperationError}
    (bounded : ∀ replay ∈ replays, replay.Bounded)
    (failed : matchSourceResults plan store replays ordinal = .error failure) :
    failure = .conflict := by
  induction replays generalizing ordinal with
  | nil => cases failed
  | cons replay rest ih =>
      have fits : (replay.row plan.id ordinal).representable = true := by
        have here := bounded replay (by simp)
        simpa [AttemptSourceRow.representable, SourceReplay.row, SourceReplay.Bounded] using here
      simp only [matchSourceResults, bind_eq_error, require_eq_error, fits, Bool.true_eq_false,
        false_and, false_or, require_eq_ok] at failed
      rcases failed with ⟨-, -, ⟨-, rfl⟩ | ⟨-, -, ⟨-, rfl⟩ | ⟨-, -, failed⟩⟩⟩
      · rfl
      · rfl
      · exact ih (fun other otherMem => bounded other (by simp [otherMem])) failed

theorem reconcileAttempt_error (attempt : SealedAttempt) {failure : CommitOperationError}
    (failed : reconcileAttempt attempt.plan attempt.replays store = .error failure) :
    failure = .conflict := by
  have bounded : ∀ replay ∈ attempt.replays, replay.Bounded := by
    intro replay replayMem
    rcases List.mem_map.mp replayMem with ⟨entry, entryMem, rfl⟩
    exact attempt.bounded entry entryMem
  have requested := attempt.requested
  unfold reconcileAttempt at failed
  split at failed
  · cases failed
  · cases requests : attempt.plan.requests with
    | nil => exact absurd requests requested
    | cons request rest =>
        simp only [AttemptPlan.row, requests, List.head?_cons, Option.map_some, orError,
          bind_eq_error, require_eq_error, require_eq_ok, AttemptRow.representable,
          decide_eq_false_iff_not, reduceCtorEq, false_or, Except.ok.injEq, exists_eq_left',
          attempt.generation_le, attempt.started_le, attempt.deadline_le, and_self,
          not_true_eq_false, false_and, decide_true, true_and] at failed
        rcases failed with ⟨_, failed⟩
        rcases failed with ⟨-, rfl⟩ | ⟨_, -, ⟨-, rfl⟩ | ⟨_, -, failed | ⟨_, -, impossible⟩⟩⟩
        · rfl
        · rfl
        · exact matchSourceResults_error bounded failed
        · exact absurd impossible pure_ne_error

/-- One attempt identity has one durable attempt. -/
theorem not_differs_of_durable {attempt : SealedAttempt} (sameId : attempt.plan.id = plan.id)
    (left : AttemptDurable attempt.plan attempt.replays store)
    (right : AttemptDurable plan replays store) : ¬attempt.Differs plan replays := by
  rintro (rows | lengths | ⟨index, mine, other, mineMem, otherMem, different⟩)
  · rcases left.attempt with ⟨leftRow, leftMade, leftMem⟩
    rcases right.attempt with ⟨rightRow, rightMade, rightMem⟩
    apply rows
    rw [leftMade, rightMade, eq_of_attemptId_eq leftMem rightMem]
    rw [attemptId_of_row leftMade, attemptId_of_row rightMade, sameId]
  · apply lengths
    rw [← left.sources, ← right.sources, sameId]
  · have leftMem := left.results (mine, index) (List.mk_mem_zipIdx_iff_getElem?.mpr mineMem)
    have rightMem := right.results (other, index) (List.mk_mem_zipIdx_iff_getElem?.mpr otherMem)
    rw [sameId] at leftMem
    refine different (Table.eq_of_clash ?_ leftMem rightMem ?_)
    · intro first second
      simp [evidenceReconciliationSources, Bool.beq_comm]
    · simp [evidenceReconciliationSources, SourceReplay.row]

theorem reconcileAttempt_conflict {attempt : SealedAttempt} (sameId : attempt.plan.id = plan.id)
    (durable : AttemptDurable plan replays store) (differs : attempt.Differs plan replays) :
    reconcileAttempt attempt.plan attempt.replays store = .error .conflict := by
  cases reconciled : reconcileAttempt attempt.plan attempt.replays store with
  | error failure => rw [reconcileAttempt_error attempt reconciled]
  | ok existing =>
      cases existing with
      | true =>
          exact absurd differs
            (not_differs_of_durable sameId (reconcileAttempt_eq_true_iff.mp reconciled) durable)
      | false =>
          rcases durable.attempt with ⟨row, made, rowMem⟩
          have other := reconcileAttempt_absent reconciled row rowMem
          rw [attemptId_of_row made, sameId] at other
          exact absurd rfl other

end Conflicts

section Runs

variable [TradeEvidence]

/-- The outcome a commit reports for a raw one. -/
def RawCommitOutcome.outcome (raw : RawCommitOutcome) (material : ManifestMaterial) :
    SourceCommitOutcome where
  created := raw.created
  sourceResultCount := raw.sourceResultCount
  checkpointAdvanceCount := raw.cursorScopes.length
  dirtyGenerationAdvanced := raw.dirtyGenerationAdvanced
  committedCursors := raw.cursorScopes
  manifestMaterial := material

theorem commitSourceReplays_of_admitted {disposition : Disposition} {lease : Lease}
    {plan : AttemptPlan} {sealed : List SealedReplay} {store : Store} {material : ManifestMaterial}
    (admitted : admitsReplays lease plan (sealed.map (·.replay)) = true)
    (made : committedManifestMaterial plan (sealed.map (·.replay)) = some material) :
    commitSourceReplays .readWriteExisting disposition lease plan sealed store =
      (((transaction mapCommitError disposition (commitAttempt lease plan (sealed.map (·.replay)))
        store).1.map (·.outcome material)),
        (transaction mapCommitError disposition (commitAttempt lease plan (sealed.map (·.replay)))
          store).2) := by
  simp only [commitSourceReplays, ne_eq, not_true_eq_false, if_false, admitted, if_true, made]
  rfl

theorem commitSourceReplays_ok {mode : HostMode} {disposition : Disposition} {lease : Lease}
    {plan : AttemptPlan} {sealed : List SealedReplay} {store next : Store}
    {outcome : SourceCommitOutcome}
    (done : commitSourceReplays mode disposition lease plan sealed store = (.ok outcome, next)) :
    admitsReplays lease plan (sealed.map (·.replay)) = true ∧ ∃ raw material,
      committedManifestMaterial plan (sealed.map (·.replay)) = some material ∧
      outcome = raw.outcome material ∧
      commitAttempt lease plan (sealed.map (·.replay)) store = .ok (raw, next) := by
  cases mode with
  | readOnlyInspection => simp [commitSourceReplays] at done
  | readWriteExisting =>
      by_cases admitted : admitsReplays lease plan (sealed.map (·.replay)) = true
      · refine ⟨admitted, ?_⟩
        cases made : committedManifestMaterial plan (sealed.map (·.replay)) with
        | none => simp [commitSourceReplays, admitted, made] at done
        | some material =>
            rw [commitSourceReplays_of_admitted admitted made, Prod.mk.injEq] at done
            rcases done with ⟨returned, rfl⟩
            cases result : (transaction mapCommitError disposition
              (commitAttempt lease plan (sealed.map (·.replay))) store).1 with
            | error error => simp [result, Except.map] at returned
            | ok raw =>
                rw [result] at returned
                exact ⟨raw, material, rfl, (Except.ok.inj returned).symm, transaction_ok result⟩
      · simp [commitSourceReplays, admitted] at done

/-- How the commits of attempts behave from a service on. -/
structure CommitIdempotent (service : Service) : Prop where
  /-- Whatever follows a commit that succeeded, the same commit finds it and changes nothing. -/
  repeats : ∀ (host later : Host) (disposition : Disposition) (lease : Lease) (plan : AttemptPlan)
    (sealed : List SealedReplay) (outcome : SourceCommitOutcome) (next : Store)
    (calls : List Call), service.host = some host →
    commitSourceReplays host.mode disposition lease plan sealed service.store =
      (.ok outcome, next) →
    (Service.exec calls ⟨next, some host⟩).host = some later → later.mode = .readWriteExisting →
    commitSourceReplays later.mode .acknowledged lease plan sealed
        (Service.exec calls ⟨next, some host⟩).store =
      (.ok { outcome with created := false, dirtyGenerationAdvanced := false },
        (Service.exec calls ⟨next, some host⟩).store) ∧
    ∀ again, (commitSourceReplays later.mode again lease plan sealed
      (Service.exec calls ⟨next, some host⟩).store).2 = (Service.exec calls ⟨next, some host⟩).store
  /-- An admitted commit of the same attempt identity that differs is a conflict. -/
  conflicts : ∀ (host later : Host) (disposition again : Disposition) (lease other : Lease)
    (plan : AttemptPlan) (sealed : List SealedReplay) (attempt : SealedAttempt)
    (outcome : SourceCommitOutcome) (next : Store) (calls : List Call),
    service.host = some host →
    commitSourceReplays host.mode disposition lease plan sealed service.store =
      (.ok outcome, next) →
    (Service.exec calls ⟨next, some host⟩).host = some later → later.mode = .readWriteExisting →
    attempt.plan.id = plan.id → attempt.Differs plan (sealed.map (·.replay)) →
    admitsReplays other attempt.plan attempt.replays = true →
    committedManifestMaterial attempt.plan attempt.replays ≠ none →
    (commitSourceReplays later.mode again other attempt.plan attempt.sealed
      (Service.exec calls ⟨next, some host⟩).store).2 =
        (Service.exec calls ⟨next, some host⟩).store ∧
    (again ≠ .aborted → (commitSourceReplays later.mode again other attempt.plan attempt.sealed
      (Service.exec calls ⟨next, some host⟩).store).1 = .error .conflict)
  /-- A failed commit whose outcome is known changes nothing. -/
  failures : ∀ (mode : HostMode) (disposition : Disposition) (lease : Lease) (plan : AttemptPlan)
    (sealed : List SealedReplay) (error : CommitErrorKind),
    (commitSourceReplays mode disposition lease plan sealed service.store).1 = .error error →
    error ≠ .commitOutcomeUnknown →
    (commitSourceReplays mode disposition lease plan sealed service.store).2 = service.store

/-- In every reachable service the commit of an attempt is idempotent and atomic. -/
theorem source_replay_commit_idempotent (before : List Call) :
    CommitIdempotent (Service.initial.exec before) := by
  have referenced : SourcesReferenced (Service.initial.exec before).store :=
    Transition.exec_invariant (fun service : Service => SourcesReferenced service.store)
      (fun call _ kept => referenced_apply call kept) before (by
        intro row rowMem
        cases rowMem)
  refine ⟨?_, ?_, ?_⟩
  · intro host later disposition lease plan sealed outcome next calls opened done reopened writable
    rcases commitSourceReplays_ok done with ⟨admitted, raw, material, made, rfl, committed⟩
    rcases durable_of_commitAttempt referenced committed with ⟨durable, created, advanced, rfl⟩
    have lasting : AttemptDurable plan (sealed.map (·.replay))
        (Service.exec calls ⟨next, some host⟩).store := attemptDurable_exec calls durable
    have found : commitAttempt lease plan (sealed.map (·.replay))
        (Service.exec calls ⟨next, some host⟩).store =
          .ok (rawOutcome false false (sealed.map (·.replay)),
            (Service.exec calls ⟨next, some host⟩).store) := by
      simp only [commitAttempt, bind_eq_ok]
      exact ⟨true, reconcileAttempt_eq_true_iff.mpr lasting, rfl⟩
    rw [writable]
    refine ⟨?_, ?_⟩
    · rw [commitSourceReplays_of_admitted admitted made, transaction_acknowledged found]
      rfl
    · intro again
      rw [commitSourceReplays_of_admitted admitted made]
      rcases transaction_store mapCommitError again (commitAttempt lease plan
        (sealed.map (·.replay))) (Service.exec calls ⟨next, some host⟩).store with
        same | ⟨value, last, redone, same⟩
      · exact same
      · rw [found] at redone
        cases redone
        exact same
  · intro host later disposition again lease other plan sealed attempt outcome next calls
      opened done
      reopened writable sameId differs admits material
    rcases commitSourceReplays_ok done with ⟨-, raw, -, -, -, committed⟩
    rcases durable_of_commitAttempt referenced committed with ⟨durable, -⟩
    have lasting : AttemptDurable plan (sealed.map (·.replay))
        (Service.exec calls ⟨next, some host⟩).store := attemptDurable_exec calls durable
    have conflict : commitAttempt other attempt.plan attempt.replays
        (Service.exec calls ⟨next, some host⟩).store = .error .conflict := by
      simp only [commitAttempt, bind_eq_error]
      exact .inl (reconcileAttempt_conflict sameId lasting differs)
    rcases Option.ne_none_iff_exists'.mp material with ⟨sealing, made⟩
    rw [writable, commitSourceReplays_of_admitted admits made]
    have sameReplays : attempt.sealed.map (·.replay) = attempt.replays := rfl
    rw [sameReplays]
    refine ⟨(transaction_of_error conflict).2, ?_⟩
    intro reached
    cases again with
    | aborted => exact absurd rfl reached
    | acknowledged => simp [transaction, conflict, Except.map, mapCommitError]
    | unacknowledged applied => simp [transaction, conflict, Except.map, mapCommitError]
  · intro mode disposition lease plan sealed error failed known
    exact commitSourceReplays_of_error failed known

end Runs

end Attempts

section Exceptions

namespace Sample.Idempotence

/-- The hash function the service is built with. -/
local instance : Sha256 := ⟨Hashing.sha256⟩

/-- The shared library accepts the source of the samples. -/
local instance : TradeEvidence where
  Mutation := Unit
  mutationId _ := none
  tradeId _ := trade
  acceptsSourceId _ := true
  acceptsSourceResult _ _ _ := true
  manifest _ := none
  decode _ := none
  reduce _ _ _ _ := ⟨none, none, .missing, 0, [], [], [], [], false⟩

/-- A delivered proposal, its scheduled job and the claim of its first attempt. -/
def claimed : List Call := [
  .openReadWrite .acknowledged configuration.binding 1,
  .operation (.commitSourceResult .acknowledged source trade proposal.observedAt ⟨none, none⟩
    (subscribedResult proposal)),
  .operation (.scheduleTrade .acknowledged trade jobPolicy scheduledAt),
  .operation (.claimNext .acknowledged owner claimedAt)]

/-- The commit of the attempt whose acknowledgement is lost fails and has stored the attempt.  The
same attempt with a deadline beyond its lease is refused before it is compared. -/
theorem unacknowledged_commit_stores_attempt :
    (commitSourceReplays .readWriteExisting (.unacknowledged true) lease plan
      [⟨replay, by simp [replay]⟩] (Service.exec claimed .initial).store).1 =
        .error .commitOutcomeUnknown ∧
    (Service.exec claimed .initial).store.attempts.rows = [] ∧
    (commitSourceReplays .readWriteExisting (.unacknowledged true) lease plan
      [⟨replay, by simp [replay]⟩] (Service.exec claimed .initial).store).2.attempts.rows =
        plan.row.toList ∧
    (commitSourceReplays .readWriteExisting .acknowledged lease
      { plan with deadline := 1000061001 } [⟨replay, by simp [replay]⟩]
      (commitSourceReplays .readWriteExisting .acknowledged lease plan
        [⟨replay, by simp [replay]⟩] (Service.exec claimed .initial).store).2).1 =
          .error .invalidInput := by
  decide +kernel

end Sample.Idempotence

end Exceptions

end Rhi
