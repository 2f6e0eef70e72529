import Rhi.Evidence.Effects

/-!
# The evidence store as a set

`persist_trade_evidence` inserts a mutation, a signed event and an observation, or compares them
with what is stored.  A call succeeds exactly when its rows fit the stored ones, and then the
stored rows are those of before together with its own: neither depends on the order of the calls.
-/

namespace Rhi

open Relational Transactional

section Operations

/-- `RhiTradeSourceObservation`. -/
structure SourceObservation where
  sourceId : SourceId
  policy : EvidencePolicyDigest
  eventId : EventId
  eventSignature : EventSignature
  observedAt : ObservedAt
deriving DecidableEq, Repr

/-- The columns `insert_observation` binds. -/
def SourceObservation.row (observation : SourceObservation) : ObservationRow where
  sourceId := observation.sourceId
  evidencePolicy := observation.policy
  eventId := observation.eventId
  eventSignature := observation.eventSignature
  observedAt := observation.observedAt.get

inductive PersistenceErrorKind where
  | invalidMode
  | invalidObservation
  | encoding
  | mutationConflict
  | signedEventConflict
  | storage
  | commitOutcomeUnknown
deriving DecidableEq, Repr

/-- `map_transaction_error` of the evidence persistence. -/
def mapEvidenceError : Failure PersistenceOperationError → PersistenceErrorKind
  | .outcomeUnknown => .commitOutcomeUnknown
  | .operation .mutationConflict => .mutationConflict
  | .operation .signedEventConflict => .signedEventConflict
  | .operation .storage | .aborted => .storage

/-- What one call of `persist_trade_evidence` depends on beside the store: the mode and the policy
of the host it is made on, and its two arguments. -/
structure PersistenceCall where
  mode : HostMode
  policy : EvidencePolicyDigest
  event : AdmittedEvent
  observation : SourceObservation
deriving DecidableEq

/-- `persist_trade_evidence`. -/
def PersistenceCall.persistTradeEvidence (call : PersistenceCall) (disposition : Disposition)
    (store : Store) : Except PersistenceErrorKind PersistenceOutcome × Store :=
  if call.mode != .readWriteExisting then
    (.error .invalidMode, store)
  else
    match PersistenceRecord.fromAdmitted call.event with
    | none => (.error .encoding, store)
    | some record =>
        if call.observation.policy != call.policy || call.observation.eventId != record.eventId ||
            call.observation.eventSignature != record.eventSignature then
          (.error .invalidObservation, store)
        else
          transaction mapEvidenceError disposition (persist record call.observation.row) store

/-- The store after a sequence of calls, whatever each of them returned. -/
def persistCalls (calls : List (PersistenceCall × Disposition)) (store : Store) : Store :=
  calls.foldl (fun current call => (call.1.persistTradeEvidence call.2 current).2) store

end Operations

section Fitting

/-- The mutation and the event of a record fit the stored ones. -/
def PersistenceRecord.Fits (record : PersistenceRecord) (store : Store) : Prop :=
  store.mutations.Fits record.mutationRow ∧ store.events.Fits record.eventRow

/-- The rows a call adds, in a store that differs in nothing else. -/
structure Joined (record : PersistenceRecord) (observation : ObservationRow)
    (before after : Store) : Prop where
  only : after = { before with
    mutations := after.mutations, events := after.events, observations := after.observations }
  mutations : ∀ row, row ∈ after.mutations.rows ↔
    row ∈ before.mutations.rows ∨ row = record.mutationRow
  events : ∀ row, row ∈ after.events.rows ↔ row ∈ before.events.rows ∨ row = record.eventRow
  observations : ∀ row, row ∈ after.observations.rows ↔
    row ∈ before.observations.rows ∨ row = observation

variable {event : AdmittedEvent} {store next : Store}

theorem check_mutationRow (event : AdmittedEvent) :
    tradeMutations.check event.event.record.mutationRow = true :=
  decide_eq_true ⟨rfl, event.event.kind_mem, event.event.content_nonempty, event.content_le⟩

theorem check_eventRow (event : AdmittedEvent) :
    nostrEvents.check event.event.record.eventRow = true :=
  decide_eq_true ⟨event.event.kind_mem, event.authored_le, event.event.json_nonempty, event.json_le⟩

theorem check_observationRow (observation : SourceObservation) :
    relayObservations.check observation.row = true :=
  decide_eq_true ⟨observation.observedAt.positive, observation.observedAt.bounded⟩

/-- The stored mutation that `mutation_matches` reads. -/
theorem find?_mutation_of_fits (fits : store.mutations.Fits event.event.record.mutationRow)
    (stored : event.event.record.mutationRow ∈ store.mutations.rows) :
    store.mutations.rows.find? (fun row => row.mutationId == event.event.record.mutationId) =
      some event.event.record.mutationRow := by
  cases found : store.mutations.rows.find? fun row =>
      row.mutationId == event.event.record.mutationId with
  | none =>
      have missing := List.find?_eq_none.mp found _ stored
      simp [PersistenceRecord.mutationRow] at missing
  | some row =>
      have same := List.find?_some found
      rw [fits row (List.mem_of_find?_eq_some found) same]

theorem find?_event_of_fits (fits : store.events.Fits event.event.record.eventRow)
    (stored : event.event.record.eventRow ∈ store.events.rows) :
    store.events.rows.find? (fun row => row.eventId == event.event.record.eventId &&
      row.eventSignature == event.event.record.eventSignature) =
      some event.event.record.eventRow := by
  cases found : store.events.rows.find? fun row => row.eventId == event.event.record.eventId &&
      row.eventSignature == event.event.record.eventSignature with
  | none =>
      have missing := List.find?_eq_none.mp found _ stored
      simp [PersistenceRecord.eventRow] at missing
  | some row =>
      have same := List.find?_some found
      rw [fits row (List.mem_of_find?_eq_some found) same]

theorem insertMutation_of_fits (fits : store.mutations.Fits event.event.record.mutationRow) :
    ∃ inserted mutations, insertMutation event.event.record store =
        .ok (inserted, { store with mutations }) ∧
      ∀ row, row ∈ mutations.rows ↔
        row ∈ store.mutations.rows ∨ row = event.event.record.mutationRow := by
  rcases Table.insertIfAbsent_of_fits (check_mutationRow event) rfl fits with
    ⟨mutations, inserted, added, present, rows⟩
  refine ⟨inserted, mutations, ?_, rows⟩
  simp only [insertMutation, bind_eq_ok, orError_eq_ok, require_eq_ok, pure_eq_ok]
  refine ⟨(mutations, inserted), added, (), ?_, rfl⟩
  cases inserted with
  | true => rfl
  | false => simp [find?_mutation_of_fits fits (present rfl)]

theorem insertEvent_of_fits (fits : store.events.Fits event.event.record.eventRow)
    (stored : event.event.record.mutationRow ∈ store.mutations.rows) :
    ∃ inserted events, insertEvent event.event.record store =
        .ok (inserted, { store with events }) ∧
      ∀ row, row ∈ events.rows ↔
        row ∈ store.events.rows ∨ row = event.event.record.eventRow := by
  rcases Table.insertIfAbsent_of_fits (check_eventRow event) rfl fits with
    ⟨events, inserted, added, present, rows⟩
  have referenced : (store.mutations.rows.any fun row =>
      row.mutationId == event.event.record.mutationId) = true :=
    List.any_eq_true.mpr ⟨_, stored, by simp [PersistenceRecord.mutationRow]⟩
  refine ⟨inserted, events, ?_, rows⟩
  simp only [insertEvent, bind_eq_ok, orError_eq_ok, require_eq_ok, pure_eq_ok]
  refine ⟨(events, inserted), added, (), by simp [referenced], (), ?_, rfl⟩
  cases inserted with
  | true => rfl
  | false => simp [find?_event_of_fits fits (present rfl)]

theorem insertObservation_of_stored {observation : SourceObservation}
    (stored : ∃ row ∈ store.events.rows, row.eventId = observation.eventId ∧
      row.eventSignature = observation.eventSignature) :
    ∃ inserted observations, insertObservation observation.row store =
        .ok (inserted, { store with observations }) ∧
      ∀ row, row ∈ observations.rows ↔
        row ∈ store.observations.rows ∨ row = observation.row := by
  have fits : store.observations.Fits observation.row := by
    intro row rowMem same
    simpa [relayObservations] using same
  rcases Table.insertIfAbsent_of_fits (check_observationRow observation) rfl fits with
    ⟨observations, inserted, added, -, rows⟩
  have referenced : (store.events.rows.any fun row =>
      row.eventId == observation.row.eventId &&
        row.eventSignature == observation.row.eventSignature) = true := by
    rcases stored with ⟨row, rowMem, sameId, sameSignature⟩
    exact List.any_eq_true.mpr ⟨row, rowMem, by simp [SourceObservation.row, sameId, sameSignature]⟩
  refine ⟨inserted, observations, ?_, rows⟩
  simp only [insertObservation, bind_eq_ok, orError_eq_ok, require_eq_ok, pure_eq_ok]
  exact ⟨(observations, inserted), added, (), by simp [referenced], rfl⟩

/-- An observation of the event of a record. -/
def SourceObservation.Of (observation : SourceObservation) (record : PersistenceRecord) : Prop :=
  observation.eventId = record.eventId ∧ observation.eventSignature = record.eventSignature

/-- A record that fits is persisted. -/
theorem persist_of_fits {observation : SourceObservation}
    (fits : event.event.record.Fits store) (own : observation.Of event.event.record) :
    ∃ outcome next, persist event.event.record observation.row store = .ok (outcome, next) ∧
      Joined event.event.record observation.row store next := by
  rcases insertMutation_of_fits fits.1 with ⟨first, mutations, mutated, mutationRows⟩
  have eventFits : ({ store with mutations } : Store).events.Fits event.event.record.eventRow :=
    fits.2
  rcases insertEvent_of_fits eventFits ((mutationRows _).mpr (.inr rfl)) with
    ⟨second, events, evented, eventRows⟩
  have observedEvent : ∃ row ∈ ({ store with mutations, events } : Store).events.rows,
      row.eventId = observation.eventId ∧ row.eventSignature = observation.eventSignature :=
    ⟨_, (eventRows _).mpr (.inr rfl), own.1.symm, own.2.symm⟩
  rcases insertObservation_of_stored observedEvent with
    ⟨third, observations, observed, observationRows⟩
  refine ⟨⟨first, second, third⟩, { store with mutations, events, observations }, ?_,
    rfl, mutationRows, eventRows, observationRows⟩
  simp only [persist, bind_eq_ok, pure_eq_ok]
  exact ⟨_, mutated, _, evented, _, observed, rfl⟩

/-- A stored mutation of other content is reported as a conflict. -/
theorem insertMutation_conflict (unfit : ¬store.mutations.Fits event.event.record.mutationRow) :
    insertMutation event.event.record store = .error .mutationConflict := by
  rcases Table.insertIfAbsent_total (check_mutationRow event)
    (rfl : tradeMutations.guardInsert store.mutations.rows _ = true) with
    ⟨kept, -⟩ | ⟨next, added, -⟩
  · simp only [insertMutation, bind_eq_error, orError_eq_ok, require_eq_error]
    refine .inr ⟨_, kept, .inl ⟨?_, trivial⟩⟩
    rw [Bool.false_or, beq_eq_false_iff_ne]
    intro found
    apply unfit
    intro row rowMem same
    exact eq_of_mutationId_eq rowMem (List.mem_of_find?_eq_some found)
      (by simpa [tradeMutations] using same)
  · rcases Table.insertIfAbsent_spec added with ⟨-, -, apart⟩ | ⟨absent, -⟩
    · refine absurd ?_ unfit
      intro row rowMem same
      simp [apart row rowMem] at same
    · cases absent

/-- A stored signed event of other content is reported as a conflict. -/
theorem insertEvent_conflict (unfit : ¬store.events.Fits event.event.record.eventRow) :
    insertEvent event.event.record store = .error .signedEventConflict := by
  rcases Table.insertIfAbsent_total (check_eventRow event)
    (rfl : nostrEvents.guardInsert store.events.rows _ = true) with
    ⟨kept, -⟩ | ⟨next, added, -⟩
  · simp only [insertEvent, bind_eq_error, orError_eq_ok, require_eq_ok, require_eq_error]
    refine .inr ⟨_, kept, .inr ⟨(), rfl, .inl ⟨?_, trivial⟩⟩⟩
    rw [Bool.false_or, beq_eq_false_iff_ne]
    intro found
    apply unfit
    intro row rowMem same
    refine Table.eq_of_clash ?_ rowMem (List.mem_of_find?_eq_some found) same
    intro left right
    simp [nostrEvents, Bool.beq_comm]
  · rcases Table.insertIfAbsent_spec added with ⟨-, -, apart⟩ | ⟨absent, -⟩
    · refine absurd ?_ unfit
      intro row rowMem same
      simp [apart row rowMem] at same
    · cases absent

theorem persist_mutationConflict {observation : ObservationRow}
    (unfit : ¬store.mutations.Fits event.event.record.mutationRow) :
    persist event.event.record observation store = .error .mutationConflict := by
  simp only [persist, bind_eq_error]
  exact .inl (insertMutation_conflict unfit)

theorem persist_signedEventConflict {observation : ObservationRow}
    (fits : store.mutations.Fits event.event.record.mutationRow)
    (unfit : ¬store.events.Fits event.event.record.eventRow) :
    persist event.event.record observation store = .error .signedEventConflict := by
  rcases insertMutation_of_fits fits with ⟨inserted, mutations, mutated, -⟩
  have laterUnfit : ¬({ store with mutations } : Store).events.Fits event.event.record.eventRow :=
    unfit
  simp only [persist, bind_eq_error]
  exact .inr ⟨_, mutated, .inl (insertEvent_conflict laterUnfit)⟩

/-- Only a record that fits is persisted. -/
theorem fits_of_persist {observation : ObservationRow} {outcome : PersistenceOutcome}
    (done : persist event.event.record observation store = .ok (outcome, next)) :
    event.event.record.Fits store := by
  by_cases mutationFits : store.mutations.Fits event.event.record.mutationRow
  · by_cases eventFits : store.events.Fits event.event.record.eventRow
    · exact ⟨mutationFits, eventFits⟩
    · rw [persist_signedEventConflict mutationFits eventFits] at done
      cases done
  · rw [persist_mutationConflict mutationFits] at done
    cases done

end Fitting

section Calls

/-- The record a call persists. -/
def PersistenceCall.record (call : PersistenceCall) : PersistenceRecord :=
  call.event.event.record

/-- The call is made on a writable host of the policy of its observation, which is of its event. -/
def PersistenceCall.Accepted (call : PersistenceCall) : Prop :=
  call.mode = .readWriteExisting ∧ call.observation.policy = call.policy ∧
    call.observation.Of call.record

/-- Everything a call would insert is stored. -/
def PersistenceCall.Stored (call : PersistenceCall) (store : Store) : Prop :=
  call.record.Stored store ∧ call.observation.row ∈ store.observations.rows

/-- The same rows of the three evidence tables, in any order, and the same other tables. -/
structure SameEvidence (left right : Store) : Prop where
  only : right = { left with
    mutations := right.mutations, events := right.events, observations := right.observations }
  mutations : ∀ row, row ∈ left.mutations.rows ↔ row ∈ right.mutations.rows
  events : ∀ row, row ∈ left.events.rows ↔ row ∈ right.events.rows
  observations : ∀ row, row ∈ left.observations.rows ↔ row ∈ right.observations.rows

/-- The stored rows stay as they are; new ones follow them. -/
structure Extends (before after : Store) : Prop where
  only : after = { before with
    mutations := after.mutations, events := after.events, observations := after.observations }
  mutations : before.mutations.rows <+: after.mutations.rows
  events : before.events.rows <+: after.events.rows
  observations : before.observations.rows <+: after.observations.rows

variable {call first second : PersistenceCall} {disposition : Disposition} {store next : Store}
  {outcome : PersistenceOutcome}

theorem Extends.refl (store : Store) : Extends store store :=
  ⟨rfl, List.prefix_refl _, List.prefix_refl _, List.prefix_refl _⟩

theorem Extends.trans {before middle after : Store} (left : Extends before middle)
    (right : Extends middle after) : Extends before after := by
  refine ⟨?_, left.mutations.trans right.mutations, left.events.trans right.events,
    left.observations.trans right.observations⟩
  rw [right.only, left.only]

theorem persistTradeEvidence_of_accepted (accepted : call.Accepted) (disposition : Disposition)
    (store : Store) : call.persistTradeEvidence disposition store =
      transaction mapEvidenceError disposition (persist call.record call.observation.row)
        store := by
  rcases accepted with ⟨writable, samePolicy, sameId, sameSignature⟩
  have same : (call.observation.policy != call.policy ||
      call.observation.eventId != call.event.event.record.eventId ||
      call.observation.eventSignature != call.event.event.record.eventSignature) = false := by
    simp [samePolicy, sameId, sameSignature, PersistenceCall.record]
  simp [PersistenceCall.persistTradeEvidence, writable, fromAdmitted_eq, same,
    PersistenceCall.record]

/-- A call that is not accepted fails without effect. -/
theorem persistTradeEvidence_refused (refused : ¬call.Accepted) (disposition : Disposition)
    (store : Store) : ∃ error, call.persistTradeEvidence disposition store =
      (.error error, store) := by
  unfold PersistenceCall.persistTradeEvidence
  split
  · exact ⟨_, rfl⟩
  · rename_i writable
    rw [fromAdmitted_eq]
    simp only
    split
    · exact ⟨_, rfl⟩
    · rename_i same
      refine absurd ?_ refused
      simp only [bne_iff_ne, ne_eq, not_not, Bool.or_eq_true, not_or] at writable same
      exact ⟨writable, same.1.1, same.1.2, same.2⟩

theorem accepted_of_ok
    (done : call.persistTradeEvidence disposition store = (.ok outcome, next)) :
    call.Accepted ∧ disposition = .acknowledged ∧
      persist call.record call.observation.row store = .ok (outcome, next) := by
  by_cases accepted : call.Accepted
  · rw [persistTradeEvidence_of_accepted accepted] at done
    refine ⟨accepted, ?_, body_of_transaction_ok done⟩
    cases disposition with
    | acknowledged => rfl
    | aborted => simp [transaction] at done
    | unacknowledged applied =>
        simp only [transaction] at done
        split at done <;> simp at done
  · rcases persistTradeEvidence_refused accepted disposition store with ⟨error, failed⟩
    rw [failed] at done
    cases done

theorem extends_of_persist {observation : ObservationRow} {record : PersistenceRecord}
    (done : persist record observation store = .ok (outcome, next)) : Extends store next := by
  have appended := (persist_spec done).1
  rcases appended.mutationRows with ⟨mutations, mutationRows, -⟩
  rcases appended.eventRows with ⟨events, eventRows, -⟩
  refine ⟨appended.only, ⟨mutations, mutationRows.symm⟩, ⟨events, eventRows.symm⟩, ?_⟩
  simp only [persist, insertMutation, insertEvent, insertObservation, bind_eq_ok, orError_eq_ok,
    pure_eq_ok, Prod.mk.injEq] at done
  rcases done with ⟨_, ⟨⟨_, _⟩, -, -, -, -, rfl⟩, _, ⟨⟨_, _⟩, -, -, -, -, -, -, rfl⟩, _,
    ⟨⟨observations, flag⟩, added, -, -, -, rfl⟩, -, rfl⟩
  rcases Table.insertIfAbsent_spec added with ⟨-, rows, -⟩ | ⟨-, rfl, -⟩
  · exact ⟨[observation], rows.symm⟩
  · exact List.prefix_refl _

theorem extends_of_call (call : PersistenceCall) (disposition : Disposition) (store : Store) :
    Extends store (call.persistTradeEvidence disposition store).2 := by
  by_cases accepted : call.Accepted
  · rw [persistTradeEvidence_of_accepted accepted]
    rcases transaction_store mapEvidenceError disposition
      (persist call.record call.observation.row) store with same | ⟨value, last, done, same⟩
    · rw [same]
      exact .refl store
    · rw [same]
      exact extends_of_persist done
  · rcases persistTradeEvidence_refused accepted disposition store with ⟨error, failed⟩
    rw [failed]
    exact .refl store

theorem extends_of_calls (calls : List (PersistenceCall × Disposition)) (store : Store) :
    Extends store (persistCalls calls store) := by
  induction calls generalizing store with
  | nil => exact .refl store
  | cons call rest ih => exact (extends_of_call call.1 call.2 store).trans (ih _)

/-- A row whose key is taken by itself is not inserted again. -/
theorem fits_of_stored {event : AdmittedEvent} (stored : event.event.record.Stored store) :
    event.event.record.Fits store := by
  refine ⟨?_, ?_⟩
  · intro row rowMem same
    exact eq_of_mutationId_eq rowMem stored.1 (by simpa [tradeMutations] using same)
  · intro row rowMem same
    refine Table.eq_of_clash ?_ rowMem stored.2 same
    intro left right
    simp [nostrEvents, Bool.beq_comm]

/-- Persisting what is stored changes nothing. -/
theorem persist_of_stored (call : PersistenceCall) (stored : call.Stored store) :
    persist call.record call.observation.row store = .ok (⟨false, false, false⟩, store) := by
  rcases stored with ⟨recordStored, observed⟩
  have fits : call.event.event.record.Fits store := fits_of_stored recordStored
  have mutations : store.mutations.insertIfAbsent call.record.mutationRow =
      some (store.mutations, false) :=
    Table.insertIfAbsent_of_mem rfl (by simp [tradeMutations]) recordStored.1
  have events : store.events.insertIfAbsent call.record.eventRow = some (store.events, false) :=
    Table.insertIfAbsent_of_mem rfl (by simp [nostrEvents]) recordStored.2
  have observations : store.observations.insertIfAbsent call.observation.row =
      some (store.observations, false) :=
    Table.insertIfAbsent_of_mem rfl (by simp [relayObservations]) observed
  have mutated : insertMutation call.record store = .ok (false, store) := by
    simp only [insertMutation, bind_eq_ok, orError_eq_ok, require_eq_ok, pure_eq_ok]
    refine ⟨_, mutations, (), ?_, rfl⟩
    rw [Bool.false_or, beq_iff_eq]
    exact find?_mutation_of_fits fits.1 recordStored.1
  have evented : insertEvent call.record store = .ok (false, store) := by
    simp only [insertEvent, bind_eq_ok, orError_eq_ok, require_eq_ok, pure_eq_ok]
    refine ⟨_, events, (), rfl, (), ?_, rfl⟩
    rw [Bool.false_or, beq_iff_eq]
    exact find?_event_of_fits fits.2 recordStored.2
  have observing : insertObservation call.observation.row store = .ok (false, store) := by
    simp only [insertObservation, bind_eq_ok, orError_eq_ok, require_eq_ok, pure_eq_ok]
    exact ⟨_, observations, (), rfl, rfl⟩
  simp only [persist, bind_eq_ok, pure_eq_ok]
  exact ⟨_, mutated, _, evented, _, observing, rfl⟩

/-- What fits beside a record that fitted before it, fitted without it, and conversely. -/
theorem fits_swapped {left right : AdmittedEvent} {observation : ObservationRow}
    {before after : Store} (joined : Joined left.event.record observation before after)
    (leftFits : left.event.record.Fits before) (rightFits : right.event.record.Fits after) :
    right.event.record.Fits before ∧
      ∀ other last, Joined right.event.record other before last → left.event.record.Fits last := by
  refine ⟨⟨?_, ?_⟩, ?_⟩
  · intro row rowMem same
    exact rightFits.1 row ((joined.mutations row).mpr (.inl rowMem)) same
  · intro row rowMem same
    exact rightFits.2 row ((joined.events row).mpr (.inl rowMem)) same
  · intro other last swapped
    refine ⟨?_, ?_⟩
    · intro row rowMem same
      rcases (swapped.mutations row).mp rowMem with old | rfl
      · exact leftFits.1 row old same
      · refine (rightFits.1 _ ((joined.mutations _).mpr (.inr rfl)) ?_).symm
        simpa [tradeMutations, Bool.beq_comm] using same
    · intro row rowMem same
      rcases (swapped.events row).mp rowMem with old | rfl
      · exact leftFits.2 row old same
      · refine (rightFits.2 _ ((joined.events _).mpr (.inr rfl)) ?_).symm
        simpa [nostrEvents, Bool.beq_comm] using same

theorem joined_of_persist (accepted : call.Accepted)
    (done : persist call.record call.observation.row store = .ok (outcome, next)) :
    call.record.Fits store ∧ Joined call.record call.observation.row store next := by
  have fits : call.event.event.record.Fits store := fits_of_persist done
  rcases persist_of_fits fits accepted.2.2 with ⟨other, last, redone, joined⟩
  have same : persist call.record call.observation.row store = .ok (other, last) := redone
  rw [done] at same
  cases same
  exact ⟨fits, joined⟩

theorem sameEvidence_of_joined {left right : PersistenceCall}
    {start middle last other final : Store}
    (leftFirst : Joined left.record left.observation.row start middle)
    (rightSecond : Joined right.record right.observation.row middle last)
    (rightFirst : Joined right.record right.observation.row start other)
    (leftSecond : Joined left.record left.observation.row other final) :
    SameEvidence last final := by
  refine ⟨?_, ?_, ?_, ?_⟩
  · rw [leftSecond.only, rightFirst.only, rightSecond.only, leftFirst.only]
  · intro row
    rw [rightSecond.mutations, leftFirst.mutations, leftSecond.mutations, rightFirst.mutations]
    exact or_right_comm
  · intro row
    rw [rightSecond.events, leftFirst.events, leftSecond.events, rightFirst.events]
    exact or_right_comm
  · intro row
    rw [rightSecond.observations, leftFirst.observations, leftSecond.observations,
      rightFirst.observations]
    exact or_right_comm

/-- What makes the evidence of a store a set that detects conflicts. -/
structure ConflictDetecting (store : Store) : Prop where
  repeats : ∀ call : PersistenceCall, call.Accepted → call.Stored store →
    call.persistTradeEvidence .acknowledged store = (.ok ⟨false, false, false⟩, store) ∧
      ∀ disposition, (call.persistTradeEvidence disposition store).2 = store
  commutes : ∀ (first second : PersistenceCall) (left right : Disposition)
    (firstOutcome secondOutcome : PersistenceOutcome) (middle last : Store),
    first.persistTradeEvidence left store = (.ok firstOutcome, middle) →
    second.persistTradeEvidence right middle = (.ok secondOutcome, last) →
    (∃ firstSwapped secondSwapped other final,
      second.persistTradeEvidence right store = (.ok secondSwapped, other) ∧
      first.persistTradeEvidence left other = (.ok firstSwapped, final) ∧
      SameEvidence last final) ∧
    first.observation.row ∈ last.observations.rows ∧
    second.observation.row ∈ last.observations.rows ∧
    (first.observation ≠ second.observation → first.observation.row ≠ second.observation.row)
  mutationConflict : ∀ (call : PersistenceCall) (disposition : Disposition), call.Accepted →
    (∃ row ∈ store.mutations.rows, row.mutationId = call.record.mutationId ∧
      row ≠ call.record.mutationRow) →
    (call.persistTradeEvidence disposition store).2 = store ∧ (disposition ≠ .aborted →
      (call.persistTradeEvidence disposition store).1 = .error .mutationConflict)
  signedEventConflict : ∀ (call : PersistenceCall) (disposition : Disposition), call.Accepted →
    (∃ row ∈ store.events.rows, row.eventId = call.record.eventId ∧
      row.eventSignature = call.record.eventSignature ∧ row ≠ call.record.eventRow) →
    (call.persistTradeEvidence disposition store).2 = store ∧ (disposition ≠ .aborted →
      (call.persistTradeEvidence disposition store).1 = .error .mutationConflict ∨
      (call.persistTradeEvidence disposition store).1 = .error .signedEventConflict)

/-- A body that fails decides what every transaction of it that reaches it reports. -/
theorem persistTradeEvidence_conflict {failure : PersistenceOperationError}
    (accepted : call.Accepted) (disposition : Disposition)
    (failed : persist call.record call.observation.row store = .error failure) :
    (call.persistTradeEvidence disposition store).2 = store ∧ (disposition ≠ .aborted →
      (call.persistTradeEvidence disposition store).1 =
        .error (mapEvidenceError (.operation failure))) := by
  rw [persistTradeEvidence_of_accepted accepted]
  cases disposition with
  | aborted => exact ⟨rfl, by simp⟩
  | acknowledged => simp [transaction, failed]
  | unacknowledged applied => simp [transaction, failed]

theorem conflictDetecting (store : Store) : ConflictDetecting store := by
  refine ⟨?_, ?_, ?_, ?_⟩
  · intro call accepted stored
    have kept := persist_of_stored call stored
    refine ⟨?_, fun disposition => ?_⟩
    · rw [persistTradeEvidence_of_accepted accepted]
      exact transaction_acknowledged kept
    · rw [persistTradeEvidence_of_accepted accepted]
      rcases transaction_store mapEvidenceError disposition
        (persist call.record call.observation.row) store with same | ⟨value, last, done, same⟩
      · exact same
      · rw [kept] at done
        cases done
        exact same
  · intro first second left right firstOutcome secondOutcome middle last firstDone secondDone
    rcases accepted_of_ok firstDone with ⟨firstAccepted, rfl, firstPersisted⟩
    rcases accepted_of_ok secondDone with ⟨secondAccepted, rfl, secondPersisted⟩
    rcases joined_of_persist firstAccepted firstPersisted with ⟨firstFits, firstJoined⟩
    rcases joined_of_persist secondAccepted secondPersisted with ⟨secondFits, secondJoined⟩
    rcases fits_swapped firstJoined firstFits secondFits with ⟨earlier, later⟩
    rcases persist_of_fits earlier secondAccepted.2.2 with ⟨secondSwapped, other, redone, swapped⟩
    rcases persist_of_fits (later _ _ swapped) firstAccepted.2.2 with
      ⟨firstSwapped, final, finished, ended⟩
    refine ⟨⟨firstSwapped, secondSwapped, other, final, ?_, ?_, ?_⟩, ?_, ?_, ?_⟩
    · rw [persistTradeEvidence_of_accepted secondAccepted]
      exact transaction_acknowledged redone
    · rw [persistTradeEvidence_of_accepted firstAccepted]
      exact transaction_acknowledged finished
    · exact sameEvidence_of_joined firstJoined secondJoined swapped ended
    · exact (secondJoined.observations _).mpr (.inl ((firstJoined.observations _).mpr (.inr rfl)))
    · exact (secondJoined.observations _).mpr (.inr rfl)
    · intro different same
      apply different
      rcases first with ⟨_, _, _, ⟨_, _, _, _, ⟨_, _, _⟩⟩⟩
      rcases second with ⟨_, _, _, ⟨_, _, _, _, ⟨_, _, _⟩⟩⟩
      simpa [SourceObservation.row] using same
  · rintro call disposition accepted ⟨row, rowMem, sameId, differs⟩
    refine persistTradeEvidence_conflict accepted disposition (persist_mutationConflict ?_)
    intro fits
    refine differs (fits row rowMem ?_)
    exact beq_iff_eq.mpr sameId
  · rintro call disposition accepted ⟨row, rowMem, sameId, sameSignature, differs⟩
    have unfit : ¬store.events.Fits call.event.event.record.eventRow := by
      intro fits
      refine differs (fits row rowMem ?_)
      exact Bool.and_eq_true_iff.mpr ⟨beq_iff_eq.mpr sameId, beq_iff_eq.mpr sameSignature⟩
    by_cases mutationFits : store.mutations.Fits call.event.event.record.mutationRow
    · have conflict := persistTradeEvidence_conflict accepted disposition
        (persist_signedEventConflict mutationFits unfit)
      exact ⟨conflict.1, fun reached => .inr (conflict.2 reached)⟩
    · have conflict := persistTradeEvidence_conflict accepted disposition
        (persist_mutationConflict mutationFits)
      exact ⟨conflict.1, fun reached => .inl (conflict.2 reached)⟩

/-- After every sequence of calls the evidence is a set that detects conflicts, and every row that
was stored before is still stored as it was. -/
theorem evidence_store_detects_conflicts (calls : List (PersistenceCall × Disposition))
    (store : Store) :
    ConflictDetecting (persistCalls calls store) ∧ Extends store (persistCalls calls store) :=
  ⟨conflictDetecting _, extends_of_calls calls store⟩

end Calls

end Rhi
