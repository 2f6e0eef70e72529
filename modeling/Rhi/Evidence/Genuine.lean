import Rhi.Evidence.Effects

/-!
# Genuine evidence

Verification gives identities their meaning: two events it accepts never contradict each other.  A
store that holds only accepted events therefore takes in every further one, and a delivered event
is refused only by the optimistic checks of its transaction.
-/

namespace Rhi

open Relational Transactional

section Verification

/-- Records that do not contradict each other: a signed event is determined by its identity, and a
mutation by its own. -/
structure PersistenceRecord.Agrees (left right : PersistenceRecord) : Prop where
  event : left.eventId = right.eventId → left.eventSignature = right.eventSignature → left = right
  mutation : left.mutationId = right.mutationId → left.mutationRow = right.mutationRow

/-- The events that verification accepts.  Their identifiers are digests of what they name, so no
two of them contradict each other. -/
structure Verification where
  accepts : VerifiedEvent → Prop
  agrees : ∀ left right, accepts left → accepts right → left.record.Agrees right.record

/-- The record of an accepted event. -/
def Verification.Genuine (verification : Verification) (record : PersistenceRecord) : Prop :=
  ∃ event, verification.accepts event ∧ record = event.record

/-- Every stored mutation and event is one verification accepted. -/
structure EvidenceGenuine (verification : Verification) (store : Store) : Prop where
  mutations : ∀ row ∈ store.mutations.rows,
    ∃ record, verification.Genuine record ∧ row = record.mutationRow
  events : ∀ row ∈ store.events.rows,
    ∃ record, verification.Genuine record ∧ row = record.eventRow

theorem Verification.Genuine.agrees {verification : Verification} {left right : PersistenceRecord}
    (leftGenuine : verification.Genuine left) (rightGenuine : verification.Genuine right) :
    left.Agrees right := by
  rcases leftGenuine with ⟨first, firstAccepted, rfl⟩
  rcases rightGenuine with ⟨second, secondAccepted, rfl⟩
  exact verification.agrees first second firstAccepted secondAccepted

end Verification

section Origins

variable {verification : Verification}

/-- Evidence that comes from accepted records keeps a genuine store genuine. -/
theorem EvidenceGenuine.of_from {records : List PersistenceRecord} {before after : Store}
    (genuine : EvidenceGenuine verification before) (origin : EvidenceFrom records before after)
    (accepted : ∀ record ∈ records, verification.Genuine record) :
    EvidenceGenuine verification after := by
  refine ⟨?_, ?_⟩
  · intro row rowMem
    rcases origin.mutations row rowMem with old | ⟨record, recordMem, same⟩
    · exact genuine.mutations row old
    · exact ⟨record, accepted record recordMem, same⟩
  · intro row rowMem
    rcases origin.events row rowMem with old | ⟨record, recordMem, same⟩
    · exact genuine.events row old
    · exact ⟨record, accepted record recordMem, same⟩

theorem EvidenceGenuine.of_same {before after : Store}
    (genuine : EvidenceGenuine verification before) (mutations : after.mutations = before.mutations)
    (events : after.events = before.events) : EvidenceGenuine verification after :=
  genuine.of_from (.of_same [] mutations events) (by simp)

end Origins

section Totality

variable {verification : Verification} {store : Store}

/-- A stored mutation of the same identity is the mutation of the record. -/
theorem EvidenceGenuine.mutation_eq {record : PersistenceRecord}
    (genuine : EvidenceGenuine verification store) (accepted : verification.Genuine record)
    {row : MutationRow} (rowMem : row ∈ store.mutations.rows)
    (same : row.mutationId = record.mutationId) : row = record.mutationRow := by
  rcases genuine.mutations row rowMem with ⟨other, otherAccepted, rfl⟩
  exact (otherAccepted.agrees accepted).mutation same

/-- A stored event of the same identity is the event of the record. -/
theorem EvidenceGenuine.event_eq {record : PersistenceRecord}
    (genuine : EvidenceGenuine verification store) (accepted : verification.Genuine record)
    {row : EventRow} (rowMem : row ∈ store.events.rows) (sameId : row.eventId = record.eventId)
    (sameSignature : row.eventSignature = record.eventSignature) : row = record.eventRow := by
  rcases genuine.events row rowMem with ⟨other, otherAccepted, rfl⟩
  rw [(otherAccepted.agrees accepted).event sameId sameSignature]

theorem insertMutation_total {record : PersistenceRecord}
    (genuine : EvidenceGenuine verification store) (accepted : verification.Genuine record)
    (checked : tradeMutations.check record.mutationRow = true) :
    ∃ inserted next, insertMutation record store = .ok (inserted, next) := by
  rcases @Table.insertIfAbsent_total _ _ store.mutations _ checked rfl with
    ⟨kept, stored, storedMem, clashing⟩ | ⟨next, added, -⟩
  · have identified : stored.mutationId = record.mutationId := by
      simpa [tradeMutations, PersistenceRecord.mutationRow] using clashing
    have known : (store.mutations.rows.find? fun row =>
        row.mutationId == record.mutationId) = some record.mutationRow := by
      cases found : store.mutations.rows.find? fun row => row.mutationId == record.mutationId with
      | none =>
          have missed := List.find?_eq_none.mp found stored storedMem
          simp [identified] at missed
      | some row =>
          have same := List.find?_some found
          rw [genuine.mutation_eq accepted (List.mem_of_find?_eq_some found) (by simpa using same)]
    refine ⟨false, store, ?_⟩
    simp only [insertMutation, bind_eq_ok, orError_eq_ok, require_eq_ok, pure_eq_ok]
    exact ⟨_, kept, (), by simp [known], rfl⟩
  · refine ⟨true, { store with mutations := next }, ?_⟩
    simp only [insertMutation, bind_eq_ok, orError_eq_ok, require_eq_ok, pure_eq_ok]
    exact ⟨_, added, (), rfl, rfl⟩

theorem insertEvent_total {record : PersistenceRecord}
    (genuine : EvidenceGenuine verification store) (accepted : verification.Genuine record)
    (stored : record.mutationRow ∈ store.mutations.rows)
    (checked : nostrEvents.check record.eventRow = true) :
    ∃ inserted next, insertEvent record store = .ok (inserted, next) := by
  have referenced : (store.mutations.rows.any fun row => row.mutationId == record.mutationId) =
      true :=
    List.any_eq_true.mpr ⟨record.mutationRow, stored, by simp [PersistenceRecord.mutationRow]⟩
  rcases @Table.insertIfAbsent_total _ _ store.events _ checked rfl with
    ⟨kept, clashed, clashedMem, clashing⟩ | ⟨next, added, -⟩
  · have identified : clashed.eventId = record.eventId ∧
        clashed.eventSignature = record.eventSignature := by
      simpa [nostrEvents, PersistenceRecord.eventRow] using clashing
    have known : (store.events.rows.find? fun row => row.eventId == record.eventId &&
        row.eventSignature == record.eventSignature) = some record.eventRow := by
      cases found : store.events.rows.find? fun row => row.eventId == record.eventId &&
          row.eventSignature == record.eventSignature with
      | none =>
          have missed := List.find?_eq_none.mp found clashed clashedMem
          simp [identified] at missed
      | some row =>
          have same := List.find?_some found
          simp only [Bool.and_eq_true, beq_iff_eq] at same
          rw [genuine.event_eq accepted (List.mem_of_find?_eq_some found) same.1 same.2]
    refine ⟨false, store, ?_⟩
    simp only [insertEvent, bind_eq_ok, orError_eq_ok, require_eq_ok, pure_eq_ok]
    exact ⟨_, kept, (), rfl, (), by simp [known], rfl⟩
  · refine ⟨true, { store with events := next }, ?_⟩
    simp only [insertEvent, bind_eq_ok, orError_eq_ok, require_eq_ok, pure_eq_ok]
    exact ⟨_, added, (), by simp [referenced], (), rfl, rfl⟩

theorem insertObservation_total {record : PersistenceRecord} (source : SourceId)
    (policy : EvidencePolicyDigest) (observedAt : ObservedAt)
    (stored : record.eventRow ∈ store.events.rows) :
    ∃ inserted next, insertObservation (record.observation source policy observedAt) store =
      .ok (inserted, next) := by
  have checked : relayObservations.check (record.observation source policy observedAt) = true := by
    simp only [relayObservations, PersistenceRecord.observation, decide_eq_true_eq]
    exact ⟨observedAt.positive, observedAt.bounded⟩
  have referenced : (store.events.rows.any fun row =>
      row.eventId == (record.observation source policy observedAt).eventId &&
        row.eventSignature == (record.observation source policy observedAt).eventSignature) =
      true :=
    List.any_eq_true.mpr ⟨record.eventRow, stored, by
      simp [PersistenceRecord.eventRow, PersistenceRecord.observation]⟩
  rcases @Table.insertIfAbsent_total _ _ store.observations _ checked rfl with
    ⟨kept, -⟩ | ⟨next, added, -⟩
  · refine ⟨false, store, ?_⟩
    simp only [insertObservation, bind_eq_ok, orError_eq_ok, require_eq_ok, pure_eq_ok]
    exact ⟨_, kept, (), rfl, rfl⟩
  · refine ⟨true, { store with observations := next }, ?_⟩
    simp only [insertObservation, bind_eq_ok, orError_eq_ok, require_eq_ok, pure_eq_ok]
    exact ⟨_, added, (), by simp [referenced], rfl⟩

/-- An admitted and accepted event is always persisted. -/
theorem persist_total {admitted : AdmittedEvent} (genuine : EvidenceGenuine verification store)
    (accepted : verification.accepts admitted.event) (source : SourceId)
    (policy : EvidencePolicyDigest) (observedAt : ObservedAt) :
    ∃ outcome next, persist admitted.event.record
      (admitted.event.record.observation source policy observedAt) store = .ok (outcome, next) := by
  have record : verification.Genuine admitted.event.record := ⟨admitted.event, accepted, rfl⟩
  have mutationChecked : tradeMutations.check admitted.event.record.mutationRow = true := by
    simp only [tradeMutations, decide_eq_true_eq]
    exact ⟨rfl, admitted.event.kind_mem, admitted.event.content_nonempty, admitted.content_le⟩
  have eventChecked : nostrEvents.check admitted.event.record.eventRow = true := by
    simp only [nostrEvents, decide_eq_true_eq]
    exact ⟨admitted.event.kind_mem, admitted.authored_le, admitted.event.json_nonempty,
      admitted.json_le⟩
  rcases insertMutation_total genuine record mutationChecked with ⟨first, mutated, mutating⟩
  have mutationStored := (insertMutation_spec mutating).2.1
  have middle : EvidenceGenuine verification mutated :=
    genuine.of_from (insertMutation_from mutating) (by simpa using record)
  rcases insertEvent_total middle record mutationStored eventChecked with
    ⟨second, evented, eventing⟩
  have eventStored := (insertEvent_spec mutationStored eventing).2.1
  rcases insertObservation_total source policy observedAt eventStored with
    ⟨third, observed, observing⟩
  refine ⟨⟨first, second, third⟩, observed, ?_⟩
  simp only [persist, bind_eq_ok, pure_eq_ok]
  exact ⟨_, mutating, _, eventing, _, observing, rfl⟩

theorem tradeDirtyGenerations_clash_comm (left right : DirtyRow) :
    tradeDirtyGenerations.clash left right = tradeDirtyGenerations.clash right left := by
  simp [tradeDirtyGenerations, Bool.beq_comm]

/-- The generation of a trade moves unless its row has another policy, a later instant or the last
generation. -/
theorem advanceDirtyGeneration_total {trade : TradeId} {policy : EvidencePolicyDigest}
    (observedAt : ObservedAt)
    (advances : ∀ current ∈ readDirty store trade, current.evidencePolicy = policy ∧
      current.updatedAt ≤ observedAt.get ∧ current.generation < maxInteger) :
    ∃ generation next, advanceDirtyGeneration trade policy observedAt.get (readDirty store trade)
      store = .ok (generation, next) := by
  have bounded := observedAt.bounded
  cases read : readDirty store trade with
  | none =>
      have checked : tradeDirtyGenerations.check ⟨trade, 1, policy, observedAt.get⟩ = true := by
        simp only [tradeDirtyGenerations, decide_eq_true_eq]
        exact ⟨le_rfl, by decide, bounded⟩
      have apart : ∀ stored ∈ store.dirty.rows,
          tradeDirtyGenerations.clash stored ⟨trade, 1, policy, observedAt.get⟩ = false := by
        intro stored storedMem
        simpa [tradeDirtyGenerations] using List.find?_eq_none.mp read stored storedMem
      rcases Table.insert_of_accepted checked rfl apart with ⟨dirty, added, -⟩
      refine ⟨1, { store with dirty }, ?_⟩
      simp only [advanceDirtyGeneration, insertDirty, bind_eq_ok, require_eq_ok, orError_eq_ok,
        pure_eq_ok, decide_eq_true_eq]
      exact ⟨(), bounded, _, ⟨dirty, added, rfl⟩, rfl⟩
  | some current =>
      rcases advances current read with ⟨samePolicy, ordered, small⟩
      rcases readDirty_spec read with ⟨currentMem, sameTrade⟩
      have selected : (updateDirty trade policy observedAt.get current.generation).selects current =
          true := by
        simp [updateDirty, sameTrade]
      have accepted : tradeDirtyGenerations.check ((updateDirty trade policy observedAt.get
          current.generation).write current) = true ∧ tradeDirtyGenerations.guardUpdate current
            ((updateDirty trade policy observedAt.get current.generation).write current) =
              true := by
        simp only [tradeDirtyGenerations, updateDirty, decide_eq_true_eq, Bool.and_eq_true,
          beq_iff_eq]
        exact ⟨⟨Nat.le_add_left 1 _, small, bounded⟩, ⟨trivial, trivial⟩, ordered⟩
      have keyed : ∀ left right,
          (updateDirty trade policy observedAt.get current.generation).selects left = true →
          (updateDirty trade policy observedAt.get current.generation).selects right = true →
          tradeDirtyGenerations.clash left right = true := by
        intro left right leftSelected rightSelected
        simp only [updateDirty, Bool.and_eq_true, beq_iff_eq] at leftSelected rightSelected
        simp [tradeDirtyGenerations, leftSelected.1, rightSelected.1]
      rcases Table.update_of_single tradeDirtyGenerations_clash_comm (fun _ _ => rfl) keyed
        currentMem selected accepted with ⟨dirty, updated⟩
      refine ⟨current.generation + 1, { store with dirty }, ?_⟩
      simp only [advanceDirtyGeneration, bind_eq_ok, require_eq_ok, orError_eq_ok, pure_eq_ok,
        decide_eq_true_eq, Bool.and_eq_true, beq_iff_eq]
      exact ⟨(), bounded, (), ⟨samePolicy, ordered⟩, (), small, _, updated, (), rfl, rfl⟩

/-- A checkpoint moves beyond its cursor unless it was completed later or has the last revision. -/
theorem writeCheckpoint_total {source : SourceId} {policy : EvidencePolicyDigest} {trade : TradeId}
    {cursor : SourceCursor} (observedAt : ObservedAt) (small : cursor.createdAt ≤ maxInteger)
    (advances : ∀ current ∈ readCheckpoint store source policy trade,
      current.cursor.lt cursor = true ∧ current.completedAt ≤ observedAt.get ∧
        current.revision < maxInteger) :
    ∃ next, writeCheckpoint source policy trade (readCheckpoint store source policy trade) cursor
      observedAt.get store = .ok next := by
  have positive := observedAt.positive
  have bounded := observedAt.bounded
  cases read : readCheckpoint store source policy trade with
  | none =>
      have checked : relayCheckpoints.check ⟨source, policy, trade, cursor, 1, observedAt.get⟩ =
          true := by
        simp only [relayCheckpoints, decide_eq_true_eq]
        exact ⟨small, le_rfl, by decide, positive, bounded⟩
      have apart : ∀ stored ∈ store.checkpoints.rows,
          relayCheckpoints.clash stored ⟨source, policy, trade, cursor, 1, observedAt.get⟩ =
            false := by
        intro stored storedMem
        simpa [relayCheckpoints, CheckpointRow.sameScope] using
          List.find?_eq_none.mp read stored storedMem
      rcases Table.insert_of_accepted checked rfl apart with ⟨checkpoints, added, -⟩
      refine ⟨{ store with checkpoints }, ?_⟩
      simp only [writeCheckpoint, bind_eq_ok, require_eq_ok, orError_eq_ok, pure_eq_ok,
        decide_eq_true_eq]
      exact ⟨(), ⟨small, bounded⟩, checkpoints, added, rfl⟩
  | some current =>
      rcases advances current read with ⟨beyond, ordered, room⟩
      have currentMem := List.mem_of_find?_eq_some read
      have scope := List.find?_some read
      have selected : (updateCheckpoint source policy trade current.revision cursor
          observedAt.get).selects current = true := by
        simpa [updateCheckpoint] using scope
      have accepted : relayCheckpoints.check ((updateCheckpoint source policy trade
          current.revision cursor observedAt.get).write current) = true ∧
            relayCheckpoints.guardUpdate current ((updateCheckpoint source policy trade
              current.revision cursor observedAt.get).write current) = true := by
        simp only [relayCheckpoints, updateCheckpoint, CheckpointRow.sameScope, decide_eq_true_eq,
          Bool.and_eq_true, beq_iff_eq]
        exact ⟨⟨small, Nat.le_add_left 1 _, room, positive, bounded⟩,
          ⟨⟨⟨⟨trivial, trivial⟩, trivial⟩, trivial⟩, ordered⟩, beyond⟩
      have keyed : ∀ left right, (updateCheckpoint source policy trade current.revision cursor
          observedAt.get).selects left = true → (updateCheckpoint source policy trade
            current.revision cursor observedAt.get).selects right = true →
          relayCheckpoints.clash left right = true := by
        intro left right leftSelected rightSelected
        simp only [updateCheckpoint, Bool.and_eq_true, beq_iff_eq] at leftSelected rightSelected
        simp [relayCheckpoints, CheckpointRow.sameScope, leftSelected, rightSelected]
      rcases Table.update_of_single relayCheckpoints_clash_comm (fun _ _ => rfl) keyed currentMem
        selected accepted with ⟨checkpoints, updated⟩
      refine ⟨{ store with checkpoints }, ?_⟩
      simp only [writeCheckpoint, bind_eq_ok, require_eq_ok, orError_eq_ok, pure_eq_ok,
        decide_eq_true_eq]
      exact ⟨(), ⟨small, bounded⟩, _, updated, (), rfl, rfl⟩

/-- When a delivered event is taken in: its rows are new only if the trade is not stamped later, and
the checkpoint moves only if it was not completed later. -/
structure Ingestible (source : SourceId) (policy : EvidencePolicyDigest) (admitted : AdmittedEvent)
    (store : Store) : Prop where
  dirty : ¬admitted.event.record.Stored store →
    ∀ row ∈ readDirty store admitted.event.tradeId,
      row.updatedAt ≤ admitted.observedAt.get ∧ row.generation < maxInteger
  checkpoint : ∀ row ∈ readCheckpoint store source policy admitted.event.tradeId,
    row.cursor.lt admitted.event.cursor = true →
      row.completedAt ≤ admitted.observedAt.get ∧ row.revision < maxInteger

theorem markDirty_total {relevant : Bool} {trade : TradeId} {policy : EvidencePolicyDigest}
    (observedAt : ObservedAt)
    (advances : relevant = true → ∀ current ∈ readDirty store trade,
      current.evidencePolicy = policy ∧ current.updatedAt ≤ observedAt.get ∧
        current.generation < maxInteger) :
    ∃ generation next, markDirty relevant trade policy observedAt.get (readDirty store trade)
      store = .ok (generation, next) := by
  unfold markDirty
  cases relevant with
  | false => exact ⟨_, _, rfl⟩
  | true =>
      rcases advanceDirtyGeneration_total observedAt (advances rfl) with
        ⟨generation, next, advanced⟩
      refine ⟨some generation, next, ?_⟩
      simp only [if_true, bind_eq_ok, pure_eq_ok]
      exact ⟨_, advanced, rfl⟩

theorem commitCheckpoint_total {source : SourceId} {policy : EvidencePolicyDigest}
    {trade : TradeId} {cursor : SourceCursor} (observedAt : ObservedAt)
    (completion : SourceCompletion) (small : cursor.createdAt ≤ maxInteger)
    (advances : ∀ current ∈ readCheckpoint store source policy trade,
      current.cursor.lt cursor = true →
        current.completedAt ≤ observedAt.get ∧ current.revision < maxInteger) :
    ∃ outcome, commitCheckpoint source policy trade observedAt.get
      (readCheckpoint store source policy trade) completion (some cursor) store = .ok outcome := by
  unfold commitCheckpoint
  dsimp only
  split
  · rename_i moves
    rw [Bool.and_eq_true] at moves
    have beyond : ∀ current ∈ readCheckpoint store source policy trade,
        current.cursor.lt cursor = true ∧ current.completedAt ≤ observedAt.get ∧
          current.revision < maxInteger := by
      intro current currentMem
      have later := moves.2
      rw [Option.mem_def.mp currentMem] at later
      exact ⟨later, advances current currentMem later⟩
    rcases writeCheckpoint_total observedAt small beyond with ⟨next, written⟩
    refine ⟨(some cursor, true, next), ?_⟩
    simp only [bind_eq_ok, pure_eq_ok]
    exact ⟨next, written, rfl⟩
  · exact ⟨_, rfl⟩

/-- `commit_source_result` of a delivered event succeeds on the state its initial read saw. -/
theorem commitSource_total {source : SourceId} {policy : EvidencePolicyDigest}
    {admitted : AdmittedEvent} (genuine : EvidenceGenuine verification store)
    (accepted : verification.accepts admitted.event)
    (governed : ∀ row ∈ readDirty store admitted.event.tradeId, row.evidencePolicy = policy)
    (ingestible : Ingestible source policy admitted store) :
    ∃ outcome next, commitSource source policy admitted.observedAt
      (readInitialState source policy admitted.event.tradeId store) (subscribedResult admitted)
      store = .ok (outcome, next) := by
  rcases persist_total genuine accepted source policy admitted.observedAt with
    ⟨flags, persisted, persisting⟩
  rcases persist_spec persisting with ⟨appended, -, known⟩
  have sameDirty : readDirty persisted admitted.event.tradeId =
      readDirty store admitted.event.tradeId := by
    rw [appended.only]
    rfl
  have advances : (InsertedCounts.zero.add flags).relevant = true →
      ∀ current ∈ readDirty persisted admitted.event.tradeId, current.evidencePolicy = policy ∧
        current.updatedAt ≤ admitted.observedAt.get ∧ current.generation < maxInteger := by
    intro relevant current currentMem
    rw [sameDirty] at currentMem
    have fresh : ¬admitted.event.record.Stored store := by
      intro stored
      rcases known stored with ⟨noMutation, noEvent⟩
      simp [InsertedCounts.relevant, InsertedCounts.add, InsertedCounts.zero, noMutation,
        noEvent] at relevant
    exact ⟨governed current currentMem, ingestible.dirty fresh current currentMem⟩
  rcases markDirty_total admitted.observedAt advances with ⟨generation, marked, marking⟩
  have sameCheckpoint : readCheckpoint marked source policy admitted.event.tradeId =
      readCheckpoint store source policy admitted.event.tradeId := by
    have dirtyOnly : marked = { persisted with dirty := marked.dirty } :=
      (markDirty_spec rfl marking).1
    rw [dirtyOnly, appended.only]
    rfl
  rcases commitCheckpoint_total admitted.observedAt .complete admitted.authored_le (by
    rw [sameCheckpoint]
    exact ingestible.checkpoint) with ⟨⟨checkpoint, moved, last⟩, checkpointed⟩
  rw [sameCheckpoint] at checkpointed
  rw [sameDirty] at marking
  refine ⟨{
    completion := .complete
    receivedEvents := 1
    admittedEvents := 1
    rejectedEvents := 0
    duplicateEvents := 0
    inserted := InsertedCounts.zero.add flags
    checkpoint
    checkpointAdvanced := moved
    dirtyGeneration := generation
    dirtyGenerationAdvanced := (InsertedCounts.zero.add flags).relevant }, last, ?_⟩
  simp only [commitSource, bind_eq_ok, require_eq_ok, orError_eq_ok, mapError_eq_ok,
    admittedRecords_eq, Option.some.injEq, pure_eq_ok]
  refine ⟨(), by simp, _, rfl, (InsertedCounts.zero.add flags, persisted), ?_, _, marking, _,
    checkpointed, rfl⟩
  simp only [subscribedResult, List.map_cons, List.map_nil, persistAll, bind_eq_ok]
  exact ⟨_, persisting, rfl⟩

end Totality

end Rhi
