import Rhi.Evidence

/-!
# Effects of evidence transactions

Evidence tables only grow.  A transaction that adds a mutation or a signed event of a trade moves
the dirty generation of that trade by one; no transaction moves the generation of another trade.
-/

namespace Rhi

open Relational Transactional

/-- The store after a change of the evidence tables alone. -/
def EvidenceOnly (before after : Store) : Prop :=
  after = { before with
    mutations := after.mutations, events := after.events, observations := after.observations,
    checkpoints := after.checkpoints, dirty := after.dirty }

section Rows

/-- The rows a transaction appended for one trade, and that it changed nothing else. -/
structure EvidenceAppended (trade : TradeId) (before after : Store) (mutations events : Nat) :
    Prop where
  only : after = { before with
    mutations := after.mutations, events := after.events, observations := after.observations }
  mutationRows : ∃ added, after.mutations.rows = before.mutations.rows ++ added ∧
    added.length = mutations ∧ ∀ row ∈ added, row.tradeId = trade
  eventRows : ∃ added, after.events.rows = before.events.rows ++ added ∧
    added.length = events ∧ ∀ row ∈ added, ∃ mutation ∈ after.mutations.rows,
      mutation.mutationId = row.mutationId ∧ mutation.tradeId = trade

namespace EvidenceAppended

variable {trade : TradeId}

theorem refl (store : Store) : EvidenceAppended trade store store 0 0 where
  only := rfl
  mutationRows := ⟨[], by simp, rfl, by simp⟩
  eventRows := ⟨[], by simp, rfl, by simp⟩

theorem trans {first second third : Store} {mutations events moreMutations moreEvents : Nat}
    (left : EvidenceAppended trade first second mutations events)
    (right : EvidenceAppended trade second third moreMutations moreEvents) :
    EvidenceAppended trade first third (mutations + moreMutations) (events + moreEvents) := by
  rcases left.mutationRows with ⟨firstMutations, leftRows, leftLength, leftTrade⟩
  rcases right.mutationRows with ⟨secondMutations, rightRows, rightLength, rightTrade⟩
  rcases left.eventRows with ⟨firstEvents, leftEvents, leftCount, leftReferences⟩
  rcases right.eventRows with ⟨secondEvents, rightEvents, rightCount, rightReferences⟩
  refine ⟨?_, ⟨firstMutations ++ secondMutations, ?_, ?_, ?_⟩,
    ⟨firstEvents ++ secondEvents, ?_, ?_, ?_⟩⟩
  · have leftOnly := left.only
    have rightOnly := right.only
    rw [rightOnly, leftOnly]
  · rw [rightRows, leftRows, List.append_assoc]
  · simp [leftLength, rightLength]
  · intro row rowMem
    rcases List.mem_append.mp rowMem with old | new
    · exact leftTrade row old
    · exact rightTrade row new
  · rw [rightEvents, leftEvents, List.append_assoc]
  · simp [leftCount, rightCount]
  · intro row rowMem
    rcases List.mem_append.mp rowMem with old | new
    · rcases leftReferences row old with ⟨mutation, mutationMem, same⟩
      refine ⟨mutation, ?_, same⟩
      rw [rightRows]
      exact List.mem_append_left _ mutationMem
    · exact rightReferences row new

theorem mutations_subset {before after : Store} {mutations events : Nat}
    (appended : EvidenceAppended trade before after mutations events) :
    before.mutations.rows ⊆ after.mutations.rows := by
  rcases appended.mutationRows with ⟨added, rows, -⟩
  rw [rows]
  exact List.subset_append_left _ _

theorem events_subset {before after : Store} {mutations events : Nat}
    (appended : EvidenceAppended trade before after mutations events) :
    before.events.rows ⊆ after.events.rows := by
  rcases appended.eventRows with ⟨added, rows, -⟩
  rw [rows]
  exact List.subset_append_left _ _

end EvidenceAppended

theorem insertMutation_spec {record : PersistenceRecord} {store next : Store} {inserted : Bool}
    (done : insertMutation record store = .ok (inserted, next)) :
    EvidenceAppended record.tradeId store next inserted.toNat 0 ∧
      record.mutationRow ∈ next.mutations.rows ∧
      (record.mutationRow ∈ store.mutations.rows → inserted = false) := by
  simp only [insertMutation, bind_eq_ok, orError_eq_ok, require_eq_ok, pure_eq_ok,
    Prod.mk.injEq] at done
  rcases done with ⟨⟨mutations, flag⟩, added, -, matched, rfl, rfl⟩
  rcases Table.insertIfAbsent_spec added with ⟨rfl, rows, apart⟩ | ⟨rfl, rfl, -⟩
  · refine ⟨⟨rfl, ⟨[record.mutationRow], rows, rfl, ?_⟩, ⟨[], by simp, rfl, by simp⟩⟩, ?_, ?_⟩
    · intro row rowMem
      rw [List.mem_singleton.mp rowMem]
      rfl
    · rw [rows]
      simp
    · intro known
      have unclashing := apart record.mutationRow known
      simp [tradeMutations] at unclashing
  · refine ⟨.refl store, ?_, fun _ => rfl⟩
    simp only [Bool.false_or, beq_iff_eq] at matched
    exact List.mem_of_find?_eq_some matched

theorem insertEvent_spec {record : PersistenceRecord} {store next : Store} {inserted : Bool}
    (stored : record.mutationRow ∈ store.mutations.rows)
    (done : insertEvent record store = .ok (inserted, next)) :
    EvidenceAppended record.tradeId store next 0 inserted.toNat ∧
      record.eventRow ∈ next.events.rows ∧
      (record.eventRow ∈ store.events.rows → inserted = false) := by
  simp only [insertEvent, bind_eq_ok, orError_eq_ok, require_eq_ok, pure_eq_ok,
    Prod.mk.injEq] at done
  rcases done with ⟨⟨events, flag⟩, added, -, referenced, -, matched, rfl, rfl⟩
  rcases Table.insertIfAbsent_spec added with ⟨rfl, rows, apart⟩ | ⟨rfl, rfl, -⟩
  · refine ⟨⟨rfl, ⟨[], by simp, rfl, by simp⟩, ⟨[record.eventRow], rows, rfl, ?_⟩⟩, ?_, ?_⟩
    · intro row rowMem
      rw [List.mem_singleton.mp rowMem]
      exact ⟨record.mutationRow, stored, rfl, rfl⟩
    · rw [rows]
      simp
    · intro known
      have unclashing := apart record.eventRow known
      simp [nostrEvents] at unclashing
  · refine ⟨.refl store, ?_, fun _ => rfl⟩
    simp only [Bool.false_or, beq_iff_eq] at matched
    exact List.mem_of_find?_eq_some matched

theorem insertObservation_spec {observation : ObservationRow} {store next : Store}
    {inserted : Bool} (done : insertObservation observation store = .ok (inserted, next))
    (trade : TradeId) : EvidenceAppended trade store next 0 0 := by
  simp only [insertObservation, bind_eq_ok, orError_eq_ok, require_eq_ok, pure_eq_ok,
    Prod.mk.injEq] at done
  rcases done with ⟨⟨observations, flag⟩, -, -, -, rfl, rfl⟩
  exact ⟨rfl, ⟨[], by simp, rfl, by simp⟩, ⟨[], by simp, rfl, by simp⟩⟩

/-- The rows of the evidence tables are old, or come from given records. -/
structure EvidenceFrom (records : List PersistenceRecord) (before after : Store) : Prop where
  mutations : ∀ row ∈ after.mutations.rows,
    row ∈ before.mutations.rows ∨ ∃ record ∈ records, row = record.mutationRow
  events : ∀ row ∈ after.events.rows,
    row ∈ before.events.rows ∨ ∃ record ∈ records, row = record.eventRow

namespace EvidenceFrom

theorem of_same {before after : Store} (records : List PersistenceRecord)
    (sameMutations : after.mutations = before.mutations)
    (sameEvents : after.events = before.events) :
    EvidenceFrom records before after where
  mutations row rowMem := .inl (by rwa [sameMutations] at rowMem)
  events row rowMem := .inl (by rwa [sameEvents] at rowMem)

theorem trans {left right : List PersistenceRecord} {first second third : Store}
    (earlier : EvidenceFrom left first second) (later : EvidenceFrom right second third) :
    EvidenceFrom (left ++ right) first third := by
  refine ⟨?_, ?_⟩
  · intro row rowMem
    rcases later.mutations row rowMem with old | ⟨record, recordMem, same⟩
    · rcases earlier.mutations row old with older | ⟨record, recordMem, same⟩
      · exact .inl older
      · exact .inr ⟨record, List.mem_append_left _ recordMem, same⟩
    · exact .inr ⟨record, List.mem_append_right _ recordMem, same⟩
  · intro row rowMem
    rcases later.events row rowMem with old | ⟨record, recordMem, same⟩
    · rcases earlier.events row old with older | ⟨record, recordMem, same⟩
      · exact .inl older
      · exact .inr ⟨record, List.mem_append_left _ recordMem, same⟩
    · exact .inr ⟨record, List.mem_append_right _ recordMem, same⟩

/-- Tables that a step left alone do not matter. -/
theorem congr {records : List PersistenceRecord} {before after other last : Store}
    (origin : EvidenceFrom records before after)
    (beforeMutations : before.mutations = other.mutations)
    (beforeEvents : before.events = other.events) (lastMutations : last.mutations = after.mutations)
    (lastEvents : last.events = after.events) : EvidenceFrom records other last := by
  refine ⟨?_, ?_⟩
  · rw [lastMutations, ← beforeMutations]
    exact origin.mutations
  · rw [lastEvents, ← beforeEvents]
    exact origin.events

end EvidenceFrom

theorem insertMutation_from {record : PersistenceRecord} {store next : Store} {inserted : Bool}
    (done : insertMutation record store = .ok (inserted, next)) :
    EvidenceFrom [record] store next := by
  simp only [insertMutation, bind_eq_ok, orError_eq_ok, pure_eq_ok, Prod.mk.injEq] at done
  rcases done with ⟨⟨mutations, flag⟩, added, -, -, rfl, rfl⟩
  refine ⟨?_, fun row rowMem => .inl rowMem⟩
  intro row rowMem
  rcases Table.insertIfAbsent_spec added with ⟨-, rows, -⟩ | ⟨-, rfl, -⟩
  · rw [rows] at rowMem
    simpa using rowMem
  · exact .inl rowMem

theorem insertEvent_from {record : PersistenceRecord} {store next : Store} {inserted : Bool}
    (done : insertEvent record store = .ok (inserted, next)) :
    EvidenceFrom [record] store next := by
  simp only [insertEvent, bind_eq_ok, orError_eq_ok, pure_eq_ok, Prod.mk.injEq] at done
  rcases done with ⟨⟨events, flag⟩, added, -, -, -, -, rfl, rfl⟩
  refine ⟨fun row rowMem => .inl rowMem, ?_⟩
  intro row rowMem
  rcases Table.insertIfAbsent_spec added with ⟨-, rows, -⟩ | ⟨-, rfl, -⟩
  · rw [rows] at rowMem
    simpa using rowMem
  · exact .inl rowMem

/-- A record whose mutation and event are durable. -/
def PersistenceRecord.Stored (record : PersistenceRecord) (store : Store) : Prop :=
  record.mutationRow ∈ store.mutations.rows ∧ record.eventRow ∈ store.events.rows

theorem EvidenceAppended.stored {trade : TradeId} {before after : Store} {mutations events : Nat}
    (appended : EvidenceAppended trade before after mutations events) {record : PersistenceRecord}
    (stored : record.Stored before) : record.Stored after :=
  ⟨appended.mutations_subset stored.1, appended.events_subset stored.2⟩

/-- Effect of `persist`: the record is durable afterwards, and the flags say what is new. -/
theorem persist_spec {record : PersistenceRecord} {observation : ObservationRow}
    {store next : Store} {outcome : PersistenceOutcome}
    (done : persist record observation store = .ok (outcome, next)) :
    EvidenceAppended record.tradeId store next outcome.mutationInserted.toNat
        outcome.signedEventInserted.toNat ∧ record.Stored next ∧
      (record.Stored store →
        outcome.mutationInserted = false ∧ outcome.signedEventInserted = false) := by
  simp only [persist, bind_eq_ok, pure_eq_ok, Prod.mk.injEq] at done
  rcases done with ⟨⟨first, afterMutation⟩, mutated, ⟨second, afterEvent⟩, evented,
    ⟨third, afterObservation⟩, observed, rfl, rfl⟩
  rcases insertMutation_spec mutated with ⟨mutationAppended, mutationStored, mutationKnown⟩
  rcases insertEvent_spec mutationStored evented with ⟨eventAppended, eventStored, eventKnown⟩
  have observationAppended := insertObservation_spec observed record.tradeId
  refine ⟨?_, ⟨?_, observationAppended.events_subset eventStored⟩, ?_⟩
  · simpa using (mutationAppended.trans eventAppended).trans observationAppended
  · exact observationAppended.mutations_subset (eventAppended.mutations_subset mutationStored)
  · intro known
    exact ⟨mutationKnown known.1, eventKnown (mutationAppended.events_subset known.2)⟩

theorem persistAll_from {records : List (PersistenceRecord × ObservationRow)}
    {counts total : InsertedCounts} {store next : Store}
    (done : persistAll records counts store = .ok (total, next)) :
    EvidenceFrom (records.map (·.1)) store next := by
  induction records generalizing counts store with
  | nil =>
      simp only [persistAll, Except.ok.injEq, Prod.mk.injEq] at done
      rw [done.2]
      exact .of_same _ rfl rfl
  | cons entry rest ih =>
      rcases entry with ⟨record, observation⟩
      simp only [persistAll, persist, bind_eq_ok, pure_eq_ok] at done
      rcases done with ⟨⟨_, _⟩, ⟨⟨first, afterMutation⟩, mutated, ⟨second, afterEvent⟩, evented,
        ⟨third, afterObservation⟩, observed, rfl, rfl⟩, done⟩
      have observing : EvidenceFrom [record] afterEvent afterObservation := by
        simp only [insertObservation, bind_eq_ok, pure_eq_ok, Prod.mk.injEq] at observed
        rcases observed with ⟨⟨observations, flag⟩, -, -, -, -, rfl⟩
        exact .of_same _ rfl rfl
      have all := (((insertMutation_from mutated).trans (insertEvent_from evented)).trans
        observing).trans (ih done)
      refine ⟨?_, ?_⟩
      · intro row rowMem
        simpa using all.mutations row rowMem
      · intro row rowMem
        simpa using all.events row rowMem

/-- Effect of a whole loop of `persist` over the records of one trade. -/
theorem persistAll_spec {trade : TradeId} {records : List (PersistenceRecord × ObservationRow)}
    {counts total : InsertedCounts} {store next : Store}
    (sameTrade : ∀ entry ∈ records, entry.1.tradeId = trade)
    (done : persistAll records counts store = .ok (total, next)) :
    ∃ mutations events, total.mutations = counts.mutations + mutations ∧
      total.signedEvents = counts.signedEvents + events ∧
      EvidenceAppended trade store next mutations events ∧
      (∀ entry ∈ records, entry.1.Stored next) ∧
      ((∀ entry ∈ records, entry.1.Stored store) → mutations = 0 ∧ events = 0) := by
  induction records generalizing counts store with
  | nil =>
      simp only [persistAll, Except.ok.injEq, Prod.mk.injEq] at done
      rcases done with ⟨rfl, rfl⟩
      exact ⟨0, 0, rfl, rfl, .refl store, by simp, fun _ => ⟨rfl, rfl⟩⟩
  | cons entry rest ih =>
      rcases entry with ⟨record, observation⟩
      simp only [persistAll, bind_eq_ok] at done
      rcases done with ⟨⟨outcome, middle⟩, persisted, done⟩
      rcases persist_spec persisted with ⟨first, firstStored, firstKnown⟩
      rw [sameTrade (record, observation) (by simp)] at first
      rcases ih (fun other otherMem => sameTrade other (by simp [otherMem])) done with
        ⟨mutations, events, mutationTotal, eventTotal, second, stored, restKnown⟩
      refine ⟨_, _, ?_, ?_, first.trans second, ?_, ?_⟩
      · rw [mutationTotal]
        simp only [InsertedCounts.add]
        omega
      · rw [eventTotal]
        simp only [InsertedCounts.add]
        omega
      · intro other otherMem
        rcases List.mem_cons.mp otherMem with rfl | later
        · exact second.stored firstStored
        · exact stored other later
      · intro known
        rcases firstKnown (known (record, observation) (by simp)) with ⟨noMutation, noEvent⟩
        have rest := restKnown fun other otherMem => first.stored (known other (by simp [otherMem]))
        simp [noMutation, noEvent, rest.1, rest.2]

end Rows

section Dirty

theorem readDirty_spec {store : Store} {trade : TradeId} {row : DirtyRow}
    (read : readDirty store trade = some row) : row ∈ store.dirty.rows ∧ row.tradeId = trade :=
  ⟨List.mem_of_find?_eq_some read, by simpa using List.find?_some read⟩

theorem readDirty_of_mem {store : Store} {row : DirtyRow} (rowMem : row ∈ store.dirty.rows) :
    readDirty store row.tradeId = some row := by
  unfold readDirty
  cases found : store.dirty.rows.find? fun other => other.tradeId == row.tradeId with
  | none =>
      have missed := List.find?_eq_none.mp found row rowMem
      simp at missed
  | some other =>
      have same := List.find?_some found
      rw [Table.eq_of_clash (fun left right => by simp [tradeDirtyGenerations, Bool.beq_comm])
        (List.mem_of_find?_eq_some found) rowMem (by simpa [tradeDirtyGenerations] using same)]

/-- The store after a change of the dirty table alone. -/
def DirtyOnly (before after : Store) : Prop :=
  after = { before with dirty := after.dirty }

/-- Effect of `advance_dirty_generation` on the trade it was called for and on the others. -/
theorem advanceDirtyGeneration_spec {trade : TradeId} {policy : EvidencePolicyDigest}
    {updatedAt generation : Nat} {expected : Option DirtyRow} {store next : Store}
    (read : readDirty store trade = expected)
    (done : advanceDirtyGeneration trade policy updatedAt expected store =
      .ok (generation, next)) :
    DirtyOnly store next ∧ generation = (expected.map (·.generation)).getD 0 + 1 ∧
      readDirty next trade = some ⟨trade, generation, policy, updatedAt⟩ ∧
      (∀ current ∈ expected, current.evidencePolicy = policy ∧ current.updatedAt ≤ updatedAt) ∧
      ∀ other, other ≠ trade → readDirty next other = readDirty store other := by
  cases expected with
  | none =>
      simp only [advanceDirtyGeneration, insertDirty, bind_eq_ok, require_eq_ok, orError_eq_ok,
        pure_eq_ok, Prod.mk.injEq] at done
      rcases done with ⟨-, -, _, ⟨dirty, added, rfl⟩, rfl, rfl⟩
      have rows := (Table.insert_spec added).1
      refine ⟨rfl, rfl, ?_, by simp, ?_⟩
      · unfold readDirty at read ⊢
        simp only [rows, List.find?_append, read, Option.none_or]
        simp
      · intro other different
        unfold readDirty
        simp only [rows, List.find?_append]
        simp [different.symm]
  | some current =>
      rcases readDirty_spec read with ⟨currentMem, currentTrade⟩
      simp only [advanceDirtyGeneration, bind_eq_ok, require_eq_ok, orError_eq_ok,
        pure_eq_ok, Prod.mk.injEq, Bool.and_eq_true, beq_iff_eq, decide_eq_true_eq] at done
      rcases done with ⟨-, -, -, ⟨samePolicy, ordered⟩, -, -, ⟨dirty, affected⟩, updated, -, -,
        rfl, rfl⟩
      have rows := (Table.update_spec updated).1
      refine ⟨rfl, rfl, ?_, ?_, ?_⟩
      · unfold readDirty at read ⊢
        simp only [rows]
        rw [Table.find?_map_rewrite _ (by simp [updateDirty]), read]
        simp [Table.rewrite, updateDirty, currentTrade]
      · intro row rowMem
        cases rowMem
        exact ⟨samePolicy, ordered⟩
      · intro other different
        unfold readDirty
        simp only [rows]
        rw [Table.find?_map_rewrite _ (by simp [updateDirty])]
        cases found : store.dirty.rows.find? fun row => row.tradeId == other with
        | none => rfl
        | some row =>
            have rowTrade : row.tradeId = other := by simpa using List.find?_some found
            have skipped : (updateDirty trade policy updatedAt current.generation).selects row =
                false := by
              simp [updateDirty, rowTrade, different]
            rw [Option.map_some, Table.rewrite_of_not_selects skipped]

end Dirty

section Checkpoints

/-- The store after a change of the checkpoint table alone. -/
def CheckpointsOnly (before after : Store) : Prop :=
  after = { before with checkpoints := after.checkpoints }

theorem relayCheckpoints_clash_comm (left right : CheckpointRow) :
    relayCheckpoints.clash left right = relayCheckpoints.clash right left := by
  simp [relayCheckpoints, CheckpointRow.sameScope, Bool.beq_comm]

/-- A source scope names one stored checkpoint. -/
theorem readCheckpoint_of_mem {store : Store} {row : CheckpointRow}
    (rowMem : row ∈ store.checkpoints.rows) :
    readCheckpoint store row.sourceId row.evidencePolicy row.tradeId = some row := by
  unfold readCheckpoint
  cases found : store.checkpoints.rows.find? fun stored => stored.sourceId == row.sourceId &&
      stored.evidencePolicy == row.evidencePolicy && stored.tradeId == row.tradeId with
  | none =>
      have missed := List.find?_eq_none.mp found row rowMem
      simp at missed
  | some stored =>
      have scope := List.find?_some found
      have same := Table.eq_of_clash relayCheckpoints_clash_comm
        (List.mem_of_find?_eq_some found) rowMem
        (by simpa [relayCheckpoints, CheckpointRow.sameScope] using scope)
      rw [same]

/-- Effect of `write_checkpoint` on its scope and on the others. -/
theorem writeCheckpoint_spec {source : SourceId} {policy : EvidencePolicyDigest} {trade : TradeId}
    {current : Option CheckpointRow} {cursor : SourceCursor} {completedAt : Nat}
    {store next : Store}
    (done : writeCheckpoint source policy trade current cursor completedAt store = .ok next) :
    CheckpointsOnly store next ∧
      (∃ row, readCheckpoint next source policy trade = some row ∧ row.cursor = cursor ∧
        row.revision = (current.map (·.revision)).getD 0 + 1) ∧
      (readCheckpoint store source policy trade).map (·.revision) = current.map (·.revision) ∧
      (∀ row ∈ readCheckpoint store source policy trade, row.cursor.lt cursor = true) ∧
      ∀ source' policy' trade', (source', policy', trade') ≠ (source, policy, trade) →
        readCheckpoint next source' policy' trade' =
          readCheckpoint store source' policy' trade' := by
  cases current with
  | none =>
      simp only [writeCheckpoint, bind_eq_ok, require_eq_ok, orError_eq_ok, pure_eq_ok] at done
      rcases done with ⟨-, -, checkpoints, added, rfl⟩
      rcases Table.insert_spec added with ⟨rows, -, -, apart⟩
      have absent : readCheckpoint store source policy trade = none := by
        unfold readCheckpoint
        apply List.find?_eq_none.mpr
        intro row rowMem
        have different := apart row rowMem
        simpa [relayCheckpoints, CheckpointRow.sameScope] using different
      refine ⟨rfl, ⟨⟨source, policy, trade, cursor, 1, completedAt⟩, ?_, rfl, rfl⟩, ?_, ?_, ?_⟩
      · unfold readCheckpoint at absent ⊢
        simp only [rows, List.find?_append, absent, Option.none_or]
        simp
      · rw [absent, Option.map_none]
      · rw [absent]
        simp
      · intro source' policy' trade' different
        unfold readCheckpoint
        simp only [rows, List.find?_append]
        have other : (source == source' && policy == policy' && trade == trade') = false := by
          rw [← Bool.not_eq_true]
          intro same
          simp only [Bool.and_eq_true, beq_iff_eq] at same
          rcases same with ⟨⟨rfl, rfl⟩, rfl⟩
          exact different rfl
        simp [other]
  | some current =>
      simp only [writeCheckpoint, bind_eq_ok, require_eq_ok, orError_eq_ok, pure_eq_ok,
        beq_iff_eq] at done
      rcases done with ⟨-, -, ⟨checkpoints, affected⟩, updated, -, single, rfl⟩
      rcases Table.update_spec updated with ⟨rows, counted, accepted⟩
      have positive : 0 < store.checkpoints.rows.countP (updateCheckpoint source policy trade
          current.revision cursor completedAt).selects := by
        simp only at single
        omega
      rcases List.countP_pos_iff.mp positive with ⟨stored, storedMem, selected⟩
      have scope := selected
      simp only [updateCheckpoint, Bool.and_eq_true, beq_iff_eq] at scope
      rcases scope with ⟨⟨⟨rfl, rfl⟩, rfl⟩, sameRevision⟩
      have read := readCheckpoint_of_mem storedMem
      refine ⟨rfl, ⟨(updateCheckpoint stored.sourceId stored.evidencePolicy stored.tradeId
        current.revision cursor completedAt).write stored, ?_, rfl, ?_⟩, ?_, ?_, ?_⟩
      · unfold readCheckpoint at read ⊢
        simp only [rows]
        rw [Table.find?_map_rewrite _ (by simp [updateCheckpoint]), read, Option.map_some,
          Table.rewrite_of_selects selected]
      · simp [updateCheckpoint, sameRevision]
      · rw [read, Option.map_some, Option.map_some, sameRevision]
      · intro row rowMem
        rw [read] at rowMem
        cases rowMem
        have guarded := (accepted stored storedMem selected).2
        simp only [relayCheckpoints, Bool.and_eq_true] at guarded
        exact guarded.2
      · intro source' policy' trade' different
        unfold readCheckpoint
        simp only [rows]
        rw [Table.find?_map_rewrite _ (by simp [updateCheckpoint])]
        cases hit : store.checkpoints.rows.find? fun row =>
            row.sourceId == source' && row.evidencePolicy == policy' && row.tradeId == trade' with
        | none => rfl
        | some row =>
            have scope := List.find?_some hit
            simp only [Bool.and_eq_true, beq_iff_eq] at scope
            rcases scope with ⟨⟨rfl, rfl⟩, rfl⟩
            have skipped : (updateCheckpoint stored.sourceId stored.evidencePolicy stored.tradeId
                current.revision cursor completedAt).selects row = false := by
              rw [← Bool.not_eq_true]
              intro same
              simp only [updateCheckpoint, Bool.and_eq_true, beq_iff_eq] at same
              rcases same with ⟨⟨⟨sameSource, samePolicy⟩, sameTrade⟩, -⟩
              apply different
              rw [sameSource, samePolicy, sameTrade]
            rw [Option.map_some, Table.rewrite_of_not_selects skipped]

end Checkpoints

section Commit

/-- An admitted event always has a persistence record. -/
theorem fromAdmitted_eq (admitted : AdmittedEvent) :
    PersistenceRecord.fromAdmitted admitted = some admitted.event.record :=
  if_pos ⟨admitted.event.json_nonempty, admitted.json_le, admitted.event.content_nonempty,
    admitted.content_le⟩

theorem admittedRecords_eq (source : SourceId) (policy : EvidencePolicyDigest)
    (admitted : List AdmittedEvent) :
    admittedRecords source policy admitted = some (admitted.map fun event =>
      (event.event.record, event.event.record.observation source policy event.observedAt)) := by
  induction admitted with
  | nil => rfl
  | cons event rest ih => simp [admittedRecords, fromAdmitted_eq, ih]

/-- Whether the rows one step appended hold evidence of a trade. -/
def insertedEvidence (trade : TradeId) (before after : Store) : Bool :=
  (after.mutations.rows.drop before.mutations.rows.length).any (fun row => row.tradeId == trade) ||
    (after.events.rows.drop before.events.rows.length).any fun row =>
      after.mutations.rows.any fun mutation =>
        mutation.mutationId == row.mutationId && mutation.tradeId == trade

/-- A mutation identity names one stored mutation. -/
theorem eq_of_mutationId_eq {mutations : Table tradeMutations} {left right : MutationRow}
    (leftMem : left ∈ mutations.rows) (rightMem : right ∈ mutations.rows)
    (same : left.mutationId = right.mutationId) : left = right :=
  Table.eq_of_clash (fun _ _ => by simp [tradeMutations, Bool.beq_comm]) leftMem rightMem
    (by simp [tradeMutations, same])

/-- The counters of a loop tell whether it inserted evidence of its own trade, and it inserts
none of another. -/
theorem insertedEvidence_of_appended {trade other : TradeId} {before after : Store}
    {mutations events : Nat} (appended : EvidenceAppended trade before after mutations events) :
    insertedEvidence other before after =
      (other == trade && (mutations != 0 || events != 0)) := by
  rcases appended.mutationRows with ⟨newMutations, mutationRows, mutationCount, mutationTrade⟩
  rcases appended.eventRows with ⟨newEvents, eventRows, eventCount, references⟩
  have mutationPart : newMutations.any (fun row => row.tradeId == other) =
      (other == trade && mutations != 0) := by
    cases newMutations with
    | nil => simp [← mutationCount]
    | cons first rest =>
        rw [Bool.eq_iff_iff]
        simp only [List.any_eq_true, beq_iff_eq, Bool.and_eq_true, bne_iff_ne]
        constructor
        · rintro ⟨row, rowMem, rfl⟩
          exact ⟨mutationTrade row rowMem, by simp [← mutationCount]⟩
        · rintro ⟨rfl, -⟩
          exact ⟨first, by simp, mutationTrade first (by simp)⟩
  have eventPart : (newEvents.any fun row => after.mutations.rows.any fun mutation =>
      mutation.mutationId == row.mutationId && mutation.tradeId == other) =
      (other == trade && events != 0) := by
    cases newEvents with
    | nil => simp [← eventCount]
    | cons first rest =>
        rw [Bool.eq_iff_iff]
        simp only [List.any_eq_true, beq_iff_eq, Bool.and_eq_true, bne_iff_ne]
        constructor
        · rintro ⟨row, rowMem, mutation, mutationMem, sameId, rfl⟩
          rcases references row rowMem with ⟨known, knownMem, knownId, knownTrade⟩
          have same := eq_of_mutationId_eq mutationMem knownMem (sameId.trans knownId.symm)
          rw [same]
          exact ⟨knownTrade, by simp [← eventCount]⟩
        · rintro ⟨rfl, -⟩
          rcases references first (by simp) with ⟨known, knownMem, knownId, knownTrade⟩
          exact ⟨first, by simp, known, knownMem, knownId, knownTrade⟩
  unfold insertedEvidence
  rw [mutationRows, eventRows, List.drop_left, List.drop_left, ← mutationRows, mutationPart,
    eventPart]
  cases other == trade <;> simp

/-- What one more generation means for every trade. -/
structure DirtyAdvanced (trade : TradeId) (policy : EvidencePolicyDigest) (updatedAt : Nat)
    (before after : Store) : Prop where
  generation : readDirty after trade = some ⟨trade,
    ((readDirty before trade).map (·.generation)).getD 0 + 1, policy, updatedAt⟩
  ordered : ∀ current ∈ readDirty before trade,
    current.evidencePolicy = policy ∧ current.updatedAt ≤ updatedAt
  others : ∀ other, other ≠ trade → readDirty after other = readDirty before other

theorem markDirty_spec {relevant : Bool} {trade : TradeId} {policy : EvidencePolicyDigest}
    {updatedAt : Nat} {expected : Option DirtyRow} {store next : Store} {generation : Option Nat}
    (read : readDirty store trade = expected)
    (done : markDirty relevant trade policy updatedAt expected store = .ok (generation, next)) :
    DirtyOnly store next ∧ (relevant = true → DirtyAdvanced trade policy updatedAt store next) ∧
      (relevant = false → next = store) := by
  unfold markDirty at done
  cases relevant with
  | false =>
      simp only [Bool.false_eq_true, if_false, pure_eq_ok, Prod.mk.injEq] at done
      rcases done with ⟨-, rfl⟩
      exact ⟨rfl, by simp, fun _ => rfl⟩
  | true =>
      simp only [if_true, bind_eq_ok, pure_eq_ok, Prod.mk.injEq] at done
      rcases done with ⟨⟨value, advanced⟩, advancing, -, rfl⟩
      rcases advanceDirtyGeneration_spec read advancing with ⟨only, counted, now, ordered, others⟩
      refine ⟨only, fun _ => ⟨?_, ?_, others⟩, by simp⟩
      · rw [now, counted, read]
      · rw [read]
        exact ordered

theorem commitCheckpoint_only {source : SourceId} {policy : EvidencePolicyDigest}
    {trade : TradeId} {completedAt : Nat} {initial : Option CheckpointRow}
    {completion : SourceCompletion} {candidate cursor : Option SourceCursor} {moved : Bool}
    {store next : Store}
    (done : commitCheckpoint source policy trade completedAt initial completion candidate store =
      .ok (cursor, moved, next)) : CheckpointsOnly store next := by
  unfold commitCheckpoint at done
  split at done
  · split at done
    · simp only [bind_eq_ok, pure_eq_ok, Prod.mk.injEq] at done
      rcases done with ⟨written, writing, -, -, rfl⟩
      exact (writeCheckpoint_spec writing).1
    · simp only [pure_eq_ok, Prod.mk.injEq] at done
      rw [← done.2.2]
      rfl
  · simp only [pure_eq_ok, Prod.mk.injEq] at done
    rw [← done.2.2]
    rfl

/-- The parts of a successful `commit_source_result`. -/
structure SourceCommitted (source : SourceId) (policy : EvidencePolicyDigest) {trade : TradeId}
    (observedAt : ObservedAt) (initial : InitialState) (fetched : FetchedSource trade)
    (before after : Store) (outcome : IngestOutcome) (persisted advanced : Store)
    (mutations events : Nat) : Prop where
  unchanged : readInitialState source policy trade before = initial
  appended : EvidenceAppended trade before persisted mutations events
  origin : EvidenceFrom (fetched.admitted.map (·.event.record)) before persisted
  stored : ∀ event ∈ fetched.admitted, event.event.record.Stored persisted
  known : (∀ event ∈ fetched.admitted, event.event.record.Stored before) →
    mutations = 0 ∧ events = 0
  relevant : outcome.dirtyGenerationAdvanced = (mutations != 0 || events != 0)
  marked : ∃ generation, markDirty outcome.dirtyGenerationAdvanced trade policy observedAt.get
    initial.dirty persisted = .ok (generation, advanced)
  checkpointed : commitCheckpoint source policy trade observedAt.get initial.checkpoint
    fetched.completion fetched.cursorCandidate advanced =
      .ok (outcome.checkpoint, outcome.checkpointAdvanced, after)

theorem commitSource_parts {source : SourceId} {policy : EvidencePolicyDigest} {trade : TradeId}
    {observedAt : ObservedAt} {initial : InitialState} {fetched : FetchedSource trade}
    {store next : Store} {outcome : IngestOutcome}
    (done : commitSource source policy observedAt initial fetched store = .ok (outcome, next)) :
    ∃ persisted advanced mutations events, SourceCommitted source policy observedAt initial
      fetched store next outcome persisted advanced mutations events := by
  simp only [commitSource, bind_eq_ok, require_eq_ok, orError_eq_ok, beq_iff_eq,
    mapError_eq_ok, admittedRecords_eq, Option.some.injEq] at done
  rcases done with ⟨-, unchanged, _, rfl, ⟨inserted, persisted⟩, persistedAll,
    ⟨generation, advanced⟩, marked, ⟨checkpoint, moved, last⟩, checkpointed, finished⟩
  simp only [pure_eq_ok, Prod.mk.injEq] at finished
  rcases finished with ⟨rfl, rfl⟩
  have sameTrade : ∀ entry ∈ fetched.admitted.map (fun event => (event.event.record,
      event.event.record.observation source policy event.observedAt)), entry.1.tradeId = trade := by
    intro entry entryMem
    rcases List.mem_map.mp entryMem with ⟨event, eventMem, rfl⟩
    exact fetched.same_trade event eventMem
  rcases persistAll_spec sameTrade persistedAll with
    ⟨mutations, events, mutationTotal, eventTotal, appended, stored, known⟩
  refine ⟨persisted, advanced, mutations, events, unchanged, appended, ?_, ?_, ?_, ?_,
    ⟨generation, marked⟩, checkpointed⟩
  · simpa [Function.comp_def] using persistAll_from persistedAll
  · intro event eventMem
    exact stored _ (List.mem_map_of_mem eventMem)
  · intro allKnown
    apply known
    intro entry entryMem
    rcases List.mem_map.mp entryMem with ⟨event, eventMem, rfl⟩
    exact allKnown event eventMem
  · simp [InsertedCounts.relevant, mutationTotal, eventTotal, InsertedCounts.zero]

namespace SourceCommitted

variable {source : SourceId} {policy : EvidencePolicyDigest} {trade : TradeId}
  {observedAt : ObservedAt} {initial : InitialState} {fetched : FetchedSource trade}
  {before after persisted advanced : Store} {outcome : IngestOutcome} {mutations events : Nat}

theorem readDirty_persisted (parts : SourceCommitted source policy observedAt initial fetched
    before after outcome persisted advanced mutations events) (other : TradeId) :
    readDirty persisted other = readDirty before other := by
  rw [parts.appended.only]
  rfl

theorem marked_spec (parts : SourceCommitted source policy observedAt initial fetched
    before after outcome persisted advanced mutations events) :
    DirtyOnly persisted advanced ∧ (outcome.dirtyGenerationAdvanced = true →
      DirtyAdvanced trade policy observedAt.get persisted advanced) ∧
      (outcome.dirtyGenerationAdvanced = false → advanced = persisted) := by
  rcases parts.marked with ⟨generation, marked⟩
  refine markDirty_spec ?_ marked
  rw [parts.readDirty_persisted, ← parts.unchanged]
  rfl

theorem checkpointsOnly (parts : SourceCommitted source policy observedAt initial fetched
    before after outcome persisted advanced mutations events) :
    CheckpointsOnly advanced after :=
  commitCheckpoint_only parts.checkpointed

/-- A result that advances no generation of a trade leaves its dirty row alone. -/
theorem readDirty_still (parts : SourceCommitted source policy observedAt initial fetched
    before after outcome persisted advanced mutations events) {other : TradeId}
    (still : outcome.dirtyGenerationAdvanced = true → other ≠ trade) :
    readDirty after other = readDirty before other := by
  have moved : after = { advanced with checkpoints := after.checkpoints } :=
    parts.checkpointsOnly
  have sameDirty : readDirty after other = readDirty advanced other := by
    rw [moved]
    rfl
  rw [sameDirty, ← parts.readDirty_persisted other]
  cases advances : outcome.dirtyGenerationAdvanced with
  | true => exact (parts.marked_spec.2.1 advances).others other (still advances)
  | false => rw [parts.marked_spec.2.2 advances]

theorem evidenceOnly (parts : SourceCommitted source policy observedAt initial fetched
    before after outcome persisted advanced mutations events) : EvidenceOnly before after := by
  have appended := parts.appended.only
  have marked : advanced = { persisted with dirty := advanced.dirty } := parts.marked_spec.1
  have moved : after = { advanced with checkpoints := after.checkpoints } :=
    parts.checkpointsOnly
  unfold EvidenceOnly
  rw [moved, marked, appended]

end SourceCommitted

end Commit

end Rhi
