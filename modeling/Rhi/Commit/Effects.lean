import Rhi.Commit
import Rhi.Evidence.Effects
import Rhi.Job.Effects

/-!
# Effects of an attempt commit

A commit that creates its attempt has passed the fence of its lease, of the dirty generation and of
every checkpoint it resumed from.  It leaves the job table alone.
-/

namespace Rhi

open Relational Transactional

/-- The dirty rows follow the evidence: a step that inserted evidence of a trade moved its
generation by one, and any other step left its row alone. -/
def EvidenceCounted (policy : EvidencePolicyDigest) (before after : Store) : Prop :=
  ∀ trade,
    (insertedEvidence trade before after = false → readDirty after trade = readDirty before trade) ∧
    (insertedEvidence trade before after = true → ∃ row, readDirty after trade = some row ∧
      row.generation = ((readDirty before trade).map (·.generation)).getD 0 + 1 ∧
      row.evidencePolicy = policy ∧ ∀ current ∈ readDirty before trade,
        current.evidencePolicy = policy ∧ current.updatedAt ≤ row.updatedAt)

/-- Persistence of the evidence of one trade followed by the marking of that trade. -/
theorem evidenceCounted_of_marked {policy : EvidencePolicyDigest} {trade : TradeId}
    {updatedAt mutations events : Nat} {before persisted advanced after : Store}
    (appended : EvidenceAppended trade before persisted mutations events)
    (advances : (mutations != 0 || events != 0) = true →
      DirtyAdvanced trade policy updatedAt persisted advanced)
    (keeps : (mutations != 0 || events != 0) = false → advanced.dirty = persisted.dirty)
    (sameMutations : after.mutations = persisted.mutations)
    (sameEvents : after.events = persisted.events) (sameDirty : after.dirty = advanced.dirty) :
    EvidenceCounted policy before after := by
  have sameBefore : ∀ other, readDirty persisted other = readDirty before other := by
    intro other
    rw [appended.only]
    rfl
  have sameAfter : ∀ other, readDirty after other = readDirty advanced other := by
    intro other
    unfold readDirty
    rw [sameDirty]
  have inserted : ∀ other, insertedEvidence other before after =
      (other == trade && (mutations != 0 || events != 0)) := by
    intro other
    rw [← insertedEvidence_of_appended appended]
    unfold insertedEvidence
    rw [sameMutations, sameEvents]
  intro other
  rw [inserted, sameAfter, ← sameBefore]
  cases relevant : (mutations != 0 || events != 0) with
  | false =>
      refine ⟨fun _ => ?_, by simp⟩
      unfold readDirty
      rw [keeps relevant]
  | true =>
      have advance := advances relevant
      by_cases same : other = trade
      · subst same
        refine ⟨by simp, fun _ => ⟨_, advance.generation, rfl, rfl, advance.ordered⟩⟩
      · refine ⟨fun _ => advance.others other same, ?_⟩
        simp [same]

theorem SourceCommitted.evidenceCounted {source : SourceId} {policy : EvidencePolicyDigest}
    {trade : TradeId} {observedAt : ObservedAt} {initial : InitialState}
    {fetched : FetchedSource trade} {before after persisted advanced : Store}
    {outcome : IngestOutcome} {mutations events : Nat}
    (parts : SourceCommitted source policy observedAt initial fetched before after outcome
      persisted advanced mutations events) : EvidenceCounted policy before after := by
  rcases parts.marked_spec with ⟨dirtyOnly, advances, keeps⟩
  rw [parts.relevant] at advances keeps
  have moved : after = { advanced with checkpoints := after.checkpoints } := parts.checkpointsOnly
  have marked : advanced = { persisted with dirty := advanced.dirty } := dirtyOnly
  refine evidenceCounted_of_marked parts.appended advances ?_ ?_ ?_ ?_
  · intro still
    rw [keeps still]
  · rw [moved, marked]
  · rw [moved, marked]
  · rw [moved]

theorem SourceCommitted.nothing_inserted {source : SourceId} {policy : EvidencePolicyDigest}
    {trade : TradeId} {observedAt : ObservedAt} {initial : InitialState}
    {fetched : FetchedSource trade} {before after persisted advanced : Store}
    {outcome : IngestOutcome} {mutations events : Nat}
    (parts : SourceCommitted source policy observedAt initial fetched before after outcome
      persisted advanced mutations events)
    (known : ∀ event ∈ fetched.admitted, event.event.record.Stored before) (other : TradeId) :
    insertedEvidence other before after = false := by
  rcases parts.known known with ⟨noMutation, noEvent⟩
  have inserted : insertedEvidence other before persisted =
      (other == trade && (mutations != 0 || events != 0)) :=
    insertedEvidence_of_appended parts.appended
  have moved : after = { advanced with checkpoints := after.checkpoints } := parts.checkpointsOnly
  have marked : advanced = { persisted with dirty := advanced.dirty } := parts.marked_spec.1
  rw [noMutation, noEvent] at inserted
  unfold insertedEvidence at inserted ⊢
  rw [moved, marked]
  rw [inserted]
  simp

section Lease

variable [Sha256]

/-- A lease value is the current leased row of its job. -/
def Lease.Current (lease : Lease) (store : Store) : Prop :=
  ∃ row ∈ store.jobs.rows, lease.ReadFrom row

theorem validateExactLease_spec {Error : Type} {lost storage : Error} {lease : Lease}
    {store : Store} {done : Unit}
    (valid : validateExactLease lost storage lease store = .ok done) : lease.Current store := by
  simp only [validateExactLease, bind_eq_ok, mapError_eq_ok, require_eq_ok, Bool.and_eq_true,
    beq_iff_eq] at valid
  rcases valid with ⟨current, read, ⟨same, leased⟩, expires⟩
  rw [same] at read
  rcases readJob_eq_some read with ⟨row, rowMem, -, decoded⟩
  exact ⟨row, rowMem, decoded, leased, expires⟩

/-- The row of a current lease is held by it, provided the lease carries the owner of the row. -/
theorem Lease.ReadFrom.jobId {lease : Lease} {row : JobRow} (read : lease.ReadFrom row) :
    row.jobId = lease.job.id := by
  rw [← toRow_of_decodeJob read.decoded]
  rfl

end Lease

section Sources

variable [Sha256]

/-- What the loop over the sources of an attempt leaves behind. -/
structure SourcesCommitted (plan : AttemptPlan) (replays : List SourceReplay)
    (before after : Store) : Prop where
  only : after = { before with
    checkpoints := after.checkpoints, attemptSources := after.attemptSources }
  results : ∃ added, after.attemptSources.rows = before.attemptSources.rows ++ added ∧
    ∀ row ∈ added, row.attemptId = plan.id
  checkpoints : ∀ source policy trade,
    readCheckpoint after source policy trade = readCheckpoint before source policy trade ∨
      ∃ replay ∈ replays, replay.plan.sourceId = source ∧ plan.policyDigest = policy ∧
        replay.plan.tradeId = trade ∧ ∃ cursor, replay.eligibleCursor = some cursor ∧
          (readCheckpoint after source policy trade).map (·.cursor) = some cursor

theorem insertSourceResult_spec {attempt : AttemptId} {ordinal : Nat} {replay : SourceReplay}
    {store next : Store} (done : insertSourceResult attempt ordinal replay store = .ok next) :
    next = { store with attemptSources := next.attemptSources } ∧
      next.attemptSources.rows = store.attemptSources.rows ++ [replay.row attempt ordinal] := by
  simp only [insertSourceResult, bind_eq_ok, require_eq_ok, orError_eq_ok, pure_eq_ok] at done
  rcases done with ⟨-, -, sources, added, rfl⟩
  exact ⟨rfl, (Table.insert_spec added).1⟩

omit [Sha256] in
theorem moveCheckpoint_spec {plan : AttemptPlan} {replay : SourceReplay}
    {checkpoint : Option CheckpointRow} {store next : Store}
    (done : moveCheckpoint plan replay checkpoint store = .ok next) :
    CheckpointsOnly store next ∧ ∀ source policy trade,
      readCheckpoint next source policy trade = readCheckpoint store source policy trade ∨
        (replay.plan.sourceId = source ∧ plan.policyDigest = policy ∧
          replay.plan.tradeId = trade ∧ ∃ cursor, replay.eligibleCursor = some cursor ∧
            (readCheckpoint next source policy trade).map (·.cursor) = some cursor) := by
  unfold moveCheckpoint at done
  split at done
  · cases done
    exact ⟨rfl, fun _ _ _ => .inl rfl⟩
  · rename_i cursor eligible
    simp only [mapError_eq_ok] at done
    rcases writeCheckpoint_spec done with ⟨only, ⟨row, here, rowCursor, -⟩, -, -, elsewhere⟩
    refine ⟨only, ?_⟩
    intro source policy trade
    by_cases scope : (source, policy, trade) =
        (replay.plan.sourceId, plan.policyDigest, replay.plan.tradeId)
    · simp only [Prod.mk.injEq] at scope
      rcases scope with ⟨rfl, rfl, rfl⟩
      refine .inr ⟨rfl, rfl, rfl, cursor, eligible, ?_⟩
      rw [here, Option.map_some, rowCursor]
    · exact .inl (elsewhere source policy trade scope)

theorem commitSources_spec {plan : AttemptPlan}
    {entries : List (SourceReplay × Option CheckpointRow)} {ordinal : Nat} {store next : Store}
    (done : commitSources plan entries ordinal store = .ok next) :
    SourcesCommitted plan (entries.map (·.1)) store next := by
  induction entries generalizing ordinal store with
  | nil =>
      simp only [commitSources, Except.ok.injEq] at done
      subst done
      exact ⟨rfl, ⟨[], by simp, by simp⟩, fun _ _ _ => .inl rfl⟩
  | cons entry rest ih =>
      rcases entry with ⟨replay, checkpoint⟩
      simp only [commitSources, bind_eq_ok] at done
      rcases done with ⟨moved, moving, inserted, inserting, done⟩
      rcases insertSourceResult_spec inserting with ⟨insertedOnly, insertedRows⟩
      have tail := ih done
      rcases moveCheckpoint_spec moving with ⟨movedOnly, movedScopes⟩
      have movedStore : moved = { store with checkpoints := moved.checkpoints } := movedOnly
      refine ⟨?_, ?_, ?_⟩
      · rw [tail.only, insertedOnly, movedStore]
      · rcases tail.results with ⟨added, rows, ids⟩
        refine ⟨replay.row plan.id ordinal :: added, ?_, ?_⟩
        · rw [rows, insertedRows, movedStore]
          simp
        · intro row rowMem
          rcases List.mem_cons.mp rowMem with rfl | later
          · rfl
          · exact ids row later
      · intro source policy trade
        have sameInserted : readCheckpoint inserted source policy trade =
            readCheckpoint moved source policy trade := by
          rw [insertedOnly]
          rfl
        rcases tail.checkpoints source policy trade with unchanged | ⟨other, otherMem, written⟩
        · rw [unchanged, sameInserted]
          rcases movedScopes source policy trade with same | written
          · exact .inl same
          · exact .inr ⟨replay, by simp, written⟩
        · exact .inr ⟨other, by simp [otherMem], written⟩

omit [Sha256] in
theorem length_readCheckpoints {plan : AttemptPlan} {store : Store} {replays : List SourceReplay}
    {checkpoints : List (Option CheckpointRow)}
    (read : readCheckpoints plan store replays = .ok checkpoints) :
    checkpoints.length = replays.length := by
  induction replays generalizing checkpoints with
  | nil =>
      simp only [readCheckpoints, Except.ok.injEq] at read
      simp [← read]
  | cons replay rest ih =>
      simp only [readCheckpoints, bind_eq_ok, pure_eq_ok] at read
      rcases read with ⟨-, -, tail, tailRead, rfl⟩
      simp [ih tailRead]

omit [Sha256] in
/-- No checkpoint an attempt resumed from has moved. -/
theorem readCheckpoints_spec {plan : AttemptPlan} {store : Store} {replays : List SourceReplay}
    {checkpoints : List (Option CheckpointRow)}
    (read : readCheckpoints plan store replays = .ok checkpoints) :
    ∀ replay ∈ replays, (readCheckpoint store replay.plan.sourceId plan.policyDigest
      replay.plan.tradeId).map (·.cursor) = replay.plan.priorCursor := by
  induction replays generalizing checkpoints with
  | nil => simp
  | cons replay rest ih =>
      simp only [readCheckpoints, bind_eq_ok, require_eq_ok, beq_iff_eq, pure_eq_ok] at read
      rcases read with ⟨-, unmoved, tail, tailRead, rfl⟩
      intro other otherMem
      rcases List.mem_cons.mp otherMem with rfl | later
      · exact unmoved
      · exact ih tailRead other later

end Sources

section Attempt

variable [Sha256]

/-- Everything a commit that creates its attempt has checked and done. -/
structure AttemptCreated (lease : Lease) (plan : AttemptPlan) (replays : List SourceReplay)
    (outcome : RawCommitOutcome) (before after : Store) : Prop where
  current : lease.Current before
  dirty : ∃ row, readDirty before lease.job.tradeId = some row ∧
    row.generation = plan.inputGeneration ∧ row.evidencePolicy = plan.policyDigest
  unmoved : ∀ replay ∈ replays, (readCheckpoint before replay.plan.sourceId plan.policyDigest
    replay.plan.tradeId).map (·.cursor) = replay.plan.priorCursor
  only : after = { before with
    mutations := after.mutations, events := after.events, observations := after.observations,
    checkpoints := after.checkpoints, dirty := after.dirty, attempts := after.attempts,
    attemptSources := after.attemptSources }
  attempt : ∃ row, plan.row = some row ∧ after.attempts.rows = before.attempts.rows ++ [row]
  fresh : ∀ row ∈ before.attempts.rows, row.attemptId ≠ plan.id
  results : ∃ added, after.attemptSources.rows = before.attemptSources.rows ++ added ∧
    ∀ row ∈ added, row.attemptId = plan.id
  mutations_kept : before.mutations.rows ⊆ after.mutations.rows
  events_kept : before.events.rows ⊆ after.events.rows
  origin : EvidenceFrom (replays.flatMap fun replay => replay.facts.map (·.record)) before after
  stored : ∀ replay ∈ replays, ∀ fact ∈ replay.facts, fact.record.Stored after
  known : (∀ replay ∈ replays, ∀ fact ∈ replay.facts, fact.record.Stored before) →
    ∀ trade, insertedEvidence trade before after = false
  counted : EvidenceCounted plan.policyDigest before after
  advanced : outcome.dirtyGenerationAdvanced = insertedEvidence lease.job.tradeId before after
  checkpoints : ∀ source policy trade,
    readCheckpoint after source policy trade = readCheckpoint before source policy trade ∨
      ∃ replay ∈ replays, replay.plan.sourceId = source ∧ plan.policyDigest = policy ∧
        replay.plan.tradeId = trade ∧ ∃ cursor, replay.eligibleCursor = some cursor ∧
          (readCheckpoint after source policy trade).map (·.cursor) = some cursor

omit [Sha256] in
theorem insertAttempt_spec {plan : AttemptPlan} {store next : Store}
    (done : insertAttempt plan store = .ok next) :
    next = { store with attempts := next.attempts } ∧
      ∃ row, plan.row = some row ∧ next.attempts.rows = store.attempts.rows ++ [row] := by
  simp only [insertAttempt, bind_eq_ok, require_eq_ok, orError_eq_ok, pure_eq_ok] at done
  rcases done with ⟨row, made, -, -, attempts, added, rfl⟩
  exact ⟨rfl, row, made, (Table.insert_spec added).1⟩

omit [Sha256] in
theorem attemptId_of_row {plan : AttemptPlan} {row : AttemptRow} (made : plan.row = some row) :
    row.attemptId = plan.id := by
  simp only [AttemptPlan.row, Option.map_eq_some_iff] at made
  rcases made with ⟨request, -, rfl⟩
  rfl

theorem reconcileAttempt_absent {plan : AttemptPlan} {replays : List SourceReplay} {store : Store}
    (absent : reconcileAttempt plan replays store = .ok false) :
    ∀ row ∈ store.attempts.rows, row.attemptId ≠ plan.id := by
  unfold reconcileAttempt at absent
  split at absent
  · rename_i none
    intro row rowMem
    simpa using List.countP_eq_zero.mp none row rowMem
  · simp only [bind_eq_ok, pure_eq_ok] at absent
    rcases absent with ⟨-, -, -, -, -, -, -, -, -, -, impossible⟩
    cases impossible

/-- An attempt is created only while its lease is the current one. -/
theorem createAttempt_spec {lease : Lease} {plan : AttemptPlan} {replays : List SourceReplay}
    {store next : Store} {outcome : RawCommitOutcome}
    (sameTrade : ∀ replay ∈ replays, ∀ fact ∈ replay.facts,
      fact.record.tradeId = lease.job.tradeId)
    (absent : ∀ row ∈ store.attempts.rows, row.attemptId ≠ plan.id)
    (done : createAttempt lease plan replays store = .ok (outcome, next)) :
    AttemptCreated lease plan replays outcome store next := by
  simp only [createAttempt, bind_eq_ok, orError_eq_ok, mapError_eq_ok] at done
  rcases done with ⟨checked, valid, dirty, fenced, checkpoints, read, attempted, inserting,
    ⟨inserted, persisted⟩, persisting, ⟨generation, advanced⟩, marking, last, committing, finished⟩
  simp only [pure_eq_ok, Prod.mk.injEq] at finished
  rcases finished with ⟨rfl, rfl⟩
  rcases Option.filter_eq_some_iff.mp fenced with ⟨dirtyRead, dirtyMatch⟩
  simp only [Bool.and_eq_true, beq_iff_eq] at dirtyMatch
  rcases insertAttempt_spec inserting with ⟨attemptedOnly, attemptRow⟩
  have recordsTrade : ∀ entry ∈ replayRecords plan.policyDigest replays,
      entry.1.tradeId = lease.job.tradeId := by
    intro entry entryMem
    simp only [replayRecords, List.mem_flatMap, List.mem_map] at entryMem
    rcases entryMem with ⟨replay, replayMem, fact, factMem, rfl⟩
    exact sameTrade replay replayMem fact factMem
  rcases persistAll_spec recordsTrade persisting with
    ⟨mutations, events, mutationTotal, eventTotal, appended, stored, known⟩
  have relevant : inserted.relevant = (mutations != 0 || events != 0) := by
    simp [InsertedCounts.relevant, mutationTotal, eventTotal, InsertedCounts.zero]
  have persistedDirty : readDirty persisted lease.job.tradeId = some dirty := by
    rw [appended.only, attemptedOnly]
    exact dirtyRead
  rcases markDirty_spec persistedDirty marking with ⟨dirtyOnly, advances, keeps⟩
  rw [relevant] at advances keeps
  have sources := commitSources_spec committing
  have entries : (replays.zip checkpoints).map (·.1) = replays :=
    List.map_fst_zip (length_readCheckpoints read).ge
  rw [entries] at sources
  have lastOnly := sources.only
  have advancedOnly : advanced = { persisted with dirty := advanced.dirty } := dirtyOnly
  have persistedOnly := appended.only
  have countedAttempted : EvidenceCounted plan.policyDigest attempted last := by
    refine evidenceCounted_of_marked appended advances ?_ ?_ ?_ ?_
    · intro still
      rw [keeps still]
    · rw [lastOnly, advancedOnly]
    · rw [lastOnly, advancedOnly]
    · rw [lastOnly]
  have attemptedMutations : attempted.mutations = store.mutations := by rw [attemptedOnly]
  have attemptedEvents : attempted.events = store.events := by rw [attemptedOnly]
  have attemptedDirty : attempted.dirty = store.dirty := by rw [attemptedOnly]
  have lastMutations : last.mutations = persisted.mutations := by rw [lastOnly, advancedOnly]
  have lastEvents : last.events = persisted.events := by rw [lastOnly, advancedOnly]
  have sameInserted : ∀ trade, insertedEvidence trade attempted last =
      insertedEvidence trade store last := by
    intro trade
    unfold insertedEvidence
    rw [attemptedMutations, attemptedEvents]
  refine {
    current := validateExactLease_spec valid
    dirty := ⟨dirty, dirtyRead, dirtyMatch.1, dirtyMatch.2⟩
    unmoved := readCheckpoints_spec read
    only := ?_, attempt := ?_, fresh := absent, results := ?_, mutations_kept := ?_
    events_kept := ?_, origin := ?_, stored := ?_, known := ?_, counted := ?_, advanced := ?_,
      checkpoints := ?_ }
  · rw [lastOnly, advancedOnly, persistedOnly, attemptedOnly]
  · rcases attemptRow with ⟨row, made, rows⟩
    refine ⟨row, made, ?_⟩
    rw [lastOnly, advancedOnly, persistedOnly]
    exact rows
  · rcases sources.results with ⟨added, rows, ids⟩
    refine ⟨added, ?_, ids⟩
    rw [rows, advancedOnly, persistedOnly, attemptedOnly]
  · rw [lastMutations, ← attemptedMutations]
    exact appended.mutations_subset
  · rw [lastEvents, ← attemptedEvents]
    exact appended.events_subset
  · have origin := persistAll_from persisting
    simp only [replayRecords, List.map_flatMap, List.map_map, Function.comp_def] at origin
    exact origin.congr attemptedMutations attemptedEvents lastMutations lastEvents
  · intro replay replayMem fact factMem
    unfold PersistenceRecord.Stored
    rw [lastMutations, lastEvents]
    refine stored (fact.record, fact.record.observation replay.plan.sourceId plan.policyDigest
      fact.observedAt) ?_
    simp only [replayRecords, List.mem_flatMap, List.mem_map]
    exact ⟨replay, replayMem, fact, factMem, rfl⟩
  · intro allKnown trade
    have nothing : mutations = 0 ∧ events = 0 := by
      apply known
      intro entry entryMem
      simp only [replayRecords, List.mem_flatMap, List.mem_map] at entryMem
      rcases entryMem with ⟨replay, replayMem, fact, factMem, rfl⟩
      unfold PersistenceRecord.Stored
      rw [attemptedMutations, attemptedEvents]
      exact allKnown replay replayMem fact factMem
    have inserted : insertedEvidence trade attempted persisted =
        (trade == lease.job.tradeId && (mutations != 0 || events != 0)) :=
      insertedEvidence_of_appended appended
    rw [nothing.1, nothing.2] at inserted
    rw [← sameInserted]
    unfold insertedEvidence at inserted ⊢
    rw [lastMutations, lastEvents, inserted]
    simp
  · intro trade
    have counted := countedAttempted trade
    have sameDirty : readDirty attempted trade = readDirty store trade := by
      unfold readDirty
      rw [attemptedDirty]
    rw [sameInserted, sameDirty] at counted
    exact counted
  · rw [← sameInserted]
    have inserted : insertedEvidence lease.job.tradeId attempted persisted =
        (lease.job.tradeId == lease.job.tradeId && (mutations != 0 || events != 0)) :=
      insertedEvidence_of_appended appended
    simp only [beq_self_eq_true, Bool.true_and] at inserted
    simp only [rawOutcome, relevant, ← inserted]
    unfold insertedEvidence
    rw [lastMutations, lastEvents]
  · intro source policy trade
    have same : readCheckpoint advanced source policy trade =
        readCheckpoint store source policy trade := by
      rw [advancedOnly, persistedOnly, attemptedOnly]
      rfl
    rw [← same]
    exact sources.checkpoints source policy trade

/-- A commit found its attempt already durable, or created it. -/
theorem commitAttempt_spec {lease : Lease} {plan : AttemptPlan} {replays : List SourceReplay}
    {store next : Store} {outcome : RawCommitOutcome}
    (sameTrade : ∀ replay ∈ replays, ∀ fact ∈ replay.facts,
      fact.record.tradeId = lease.job.tradeId)
    (done : commitAttempt lease plan replays store = .ok (outcome, next)) :
    (outcome.created = false ∧ next = store ∧
        ∃ row ∈ store.attempts.rows, row.attemptId = plan.id) ∨
      (outcome.created = true ∧ AttemptCreated lease plan replays outcome store next) := by
  simp only [commitAttempt, bind_eq_ok] at done
  rcases done with ⟨existing, reconciled, done⟩
  cases existing with
  | true =>
      simp only [if_true, pure_eq_ok, Prod.mk.injEq] at done
      rcases done with ⟨rfl, rfl⟩
      refine .inl ⟨rfl, rfl, ?_⟩
      unfold reconcileAttempt at reconciled
      split at reconciled
      · simp at reconciled
      · rename_i present
        have positive : 0 < store.attempts.rows.countP fun row => row.attemptId == plan.id := by
          omega
        simpa using List.countP_pos_iff.mp positive
  | false =>
      simp only [Bool.false_eq_true, if_false] at done
      refine .inr ⟨?_, createAttempt_spec sameTrade (reconcileAttempt_absent reconciled) done⟩
      simp only [createAttempt, bind_eq_ok, pure_eq_ok, Prod.mk.injEq] at done
      rcases done with ⟨-, -, -, -, -, -, -, -, -, -, -, -, -, -, rfl, -⟩
      rfl

end Attempt

end Rhi
