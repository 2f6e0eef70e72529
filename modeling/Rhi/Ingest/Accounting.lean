import Rhi.Ingest
import Rhi.Service.Finalizations

/-!
# Accounting of an ingest

The events of a source are counted while its pages are read and once more while they are admitted.
The two counts agree exactly where the byte limit does not end the source: at that limit the first
count is overwritten by a value above the maximum, and then reported as the maximum.
-/

namespace Rhi

open Relational Transactional

section Receiving

/-- The original bytes of some delivered events. -/
def originalBytes (events : List ObservedEvent) : Nat := (events.map (·.wire.rawLength)).sum

@[simp]
theorem originalBytes_nil : originalBytes [] = 0 := rfl

@[simp]
theorem originalBytes_append (left right : List ObservedEvent) :
    originalBytes (left ++ right) = originalBytes left + originalBytes right := by
  simp [originalBytes]

@[simp]
theorem originalBytes_cons (event : ObservedEvent) (events : List ObservedEvent) :
    originalBytes (event :: events) = event.wire.rawLength + originalBytes events := by
  simp [originalBytes]

/-- What is received are exactly the given events, and they are within the limits. -/
structure Received.Holds (source : ConfiguredSource) (events : List ObservedEvent)
    (received : Received) : Prop where
  candidates : received.candidates = events.map (·.wire)
  bytes : received.bytes = originalBytes events
  count_le : events.length ≤ source.maximumEvents
  bytes_le : originalBytes events ≤ source.maximumBytes

theorem Received.holds_nothing (source : ConfiguredSource) :
    Received.nothing.Holds source [] :=
  ⟨rfl, rfl, Nat.zero_le _, Nat.zero_le _⟩

/-- A limit ends a source at one of the events it is offered.  The count left behind is the same
for both limits. -/
inductive Received.Limited (source : ConfiguredSource) (offered : List ObservedEvent)
    (received : Received) : Prop
  | events (taken rest : List ObservedEvent) (next : ObservedEvent)
      (split : offered = taken ++ next :: rest) (holds : received.Holds source taken)
      (full : taken.length = source.maximumEvents)
      (count : received.events = source.maximumEvents + 1)
  | bytes (taken rest : List ObservedEvent) (next : ObservedEvent)
      (split : offered = taken ++ next :: rest) (holds : received.Holds source taken)
      (room : taken.length < source.maximumEvents)
      (heavy : source.maximumBytes < originalBytes taken + next.wire.rawLength)
      (count : received.events = source.maximumEvents + 1)

variable {source : ConfiguredSource}

/-- The loop over the events of a page takes all of them, or a limit ends it. -/
theorem receiveEvents_cases {taken : List ObservedEvent} {received : Received}
    (holds : received.Holds source taken) (count : received.events = taken.length)
    (events : List ObservedEvent) :
    ((receiveEvents source events received).Holds source (taken ++ events) ∧
      (receiveEvents source events received).events = (taken ++ events).length) ∨
    (receiveEvents source events received).Limited source (taken ++ events) := by
  induction events generalizing taken received with
  | nil =>
      left
      simpa [receiveEvents] using ⟨holds, count⟩
  | cons event rest ih =>
      have few := holds.count_le
      rw [receiveEvents]
      split
      · rename_i beyond
        right
        refine .events taken rest event rfl ⟨holds.candidates, holds.bytes, few, holds.bytes_le⟩
          (by omega) (by simp only; omega)
      · rename_i room
        split
        · rename_i heavy
          right
          rw [holds.bytes] at heavy
          exact .bytes taken rest event rfl ⟨holds.candidates, holds.bytes, few, holds.bytes_le⟩
            (by omega) heavy rfl
        · rename_i light
          rw [holds.bytes] at light
          have next : Received.Holds source (taken ++ [event]) { received with
              candidates := received.candidates ++ [event.wire]
              events := received.events + 1
              bytes := received.bytes + event.wire.rawLength } := {
            candidates := by simp [holds.candidates]
            bytes := by simp [holds.bytes]
            count_le := by simp only [List.length_append, List.length_singleton]; omega
            bytes_le := by
              simp only [originalBytes_append, originalBytes_cons, originalBytes_nil]
              omega }
          have later := ih next (by simp [count])
          rwa [List.append_assoc, List.singleton_append] at later

@[simp]
theorem receiveEvents_cursors (events : List ObservedEvent) (received : Received) :
    (receiveEvents source events received).cursors = received.cursors := by
  induction events generalizing received with
  | nil => rfl
  | cons event rest ih =>
      rw [receiveEvents]
      split
      · rfl
      · split
        · rfl
        · rw [ih]

end Receiving

section Pages

/-- The events of the pages a source is offered, as long as nothing but a limit ends it. -/
def offeredEvents : List Answer → List String → List ObservedEvent
  | .page page :: rest, cursors =>
      match page.state, page.next with
      | .complete, .cursor text =>
          if page.events = [] ∨ text ∈ cursors then
            page.events
          else
            page.events ++ offeredEvents rest (text :: cursors)
      | .complete, _ | .partly, _ => page.events
      | _, _ => []
  | _, _ => []

/-- As many events as the event limit lets a source take are within its byte limit. -/
def WithinBytes (source : ConfiguredSource) (answers : List Answer) : Prop :=
  originalBytes ((offeredEvents answers []).take source.maximumEvents) ≤ source.maximumBytes

instance (source : ConfiguredSource) (answers : List Answer) :
    Decidable (WithinBytes source answers) := by
  unfold WithinBytes
  infer_instance

variable {source : ConfiguredSource}

/-- A limit that ends a source does so whatever it would be offered afterwards. -/
theorem Received.Limited.append {offered : List ObservedEvent} {received : Received}
    (limited : received.Limited source offered) (later : List ObservedEvent) :
    received.Limited source (offered ++ later) := by
  cases limited with
  | events taken rest next split holds full count =>
      exact .events taken (rest ++ later) next (by simp [split]) holds full count
  | bytes taken rest next split holds room heavy count =>
      exact .bytes taken (rest ++ later) next (by simp [split]) holds room heavy count

theorem Received.Limited.count {offered : List ObservedEvent} {received : Received}
    (limited : received.Limited source offered) :
    received.events = source.maximumEvents + 1 := by
  cases limited with
  | events _ _ _ _ _ _ count => exact count
  | bytes _ _ _ _ _ _ _ count => exact count

/-- The loop over the pages takes all events it is offered, or a limit ends it. -/
theorem receivePages_cases {taken : List ObservedEvent} {received : Received}
    (holds : received.Holds source taken) (count : received.events = taken.length)
    (answers : List Answer) :
    ((receivePages source answers received).2.Holds source
        (taken ++ offeredEvents answers received.cursors) ∧
      (receivePages source answers received).2.events =
        (taken ++ offeredEvents answers received.cursors).length) ∨
    (receivePages source answers received).2.Limited source
      (taken ++ offeredEvents answers received.cursors) := by
  induction answers generalizing taken received with
  | nil => exact .inl ⟨by simpa [receivePages, offeredEvents] using holds, by
      simpa [receivePages, offeredEvents] using count⟩
  | cons answer rest ih =>
      have stays : offeredEvents (answer :: rest) received.cursors = [] →
          (receivePages source (answer :: rest) received).2 = received →
          ((receivePages source (answer :: rest) received).2.Holds source
            (taken ++ offeredEvents (answer :: rest) received.cursors) ∧
          (receivePages source (answer :: rest) received).2.events =
            (taken ++ offeredEvents (answer :: rest) received.cursors).length) := by
        intro nothing same
        rw [nothing, same, List.append_nil]
        exact ⟨holds, count⟩
      cases answer with
      | unsupported => exact .inl (stays rfl rfl)
      | failed => exact .inl (stays rfl rfl)
      | malformed => exact .inl (stays rfl rfl)
      | page page =>
          have read := receiveEvents_cases holds count page.events
          -- A page that is the last one whether or not a limit ends it.
          have last (only : offeredEvents (.page page :: rest) received.cursors = page.events)
              (same : (receivePages source (.page page :: rest) received).2 =
                receiveEvents source page.events received) :
              ((receivePages source (.page page :: rest) received).2.Holds source
                  (taken ++ offeredEvents (.page page :: rest) received.cursors) ∧
                (receivePages source (.page page :: rest) received).2.events =
                  (taken ++ offeredEvents (.page page :: rest) received.cursors).length) ∨
              (receivePages source (.page page :: rest) received).2.Limited source
                (taken ++ offeredEvents (.page page :: rest) received.cursors) := by
            rwa [only, same]
          cases state : page.state with
          | unavailable | failedRetryable | failedTerminal | cancelled =>
              exact .inl (stays (by simp [offeredEvents, state]) (by simp [receivePages, state]))
          | partly =>
              refine last (by simp [offeredEvents, state]) ?_
              simp only [receivePages, state]
              split <;> rfl
          | complete =>
              cases next : page.next with
              | complete | cancelled =>
                  refine last (by simp [offeredEvents, state, next]) ?_
                  simp only [receivePages, state, next]
                  split <;> rfl
              | cursor text =>
                  by_cases stop : page.events = [] ∨ text ∈ received.cursors
                  · refine last (by simp [offeredEvents, state, next, stop]) ?_
                    simp only [receivePages, state, next, receiveEvents_cursors, if_pos stop]
                    split <;> rfl
                  · have offered : offeredEvents (.page page :: rest) received.cursors =
                        page.events ++ offeredEvents rest (text :: received.cursors) := by
                      simp [offeredEvents, state, next, stop]
                    rw [offered, ← List.append_assoc]
                    rcases read with ⟨holds', count'⟩ | limited
                    · have room : ¬ source.maximumEvents <
                          (receiveEvents source page.events received).events := by
                        have few := holds'.count_le
                        omega
                      have goesOn : receivePages source (.page page :: rest) received =
                          receivePages source rest { receiveEvents source page.events received with
                            cursors := text :: received.cursors } := by
                        simp [receivePages, state, next, room, stop]
                      rw [goesOn]
                      have next : Received.Holds source (taken ++ page.events)
                          { receiveEvents source page.events received with
                            cursors := text :: received.cursors } :=
                        ⟨holds'.candidates, holds'.bytes, holds'.count_le, holds'.bytes_le⟩
                      exact ih next count'
                    · have beyond := limited.count
                      have ended : (receivePages source (.page page :: rest) received).2 =
                          receiveEvents source page.events received := by
                        simp [receivePages, state, beyond]
                      rw [ended]
                      exact .inr (limited.append _)

end Pages

section Candidates

/-- Every event the loop over the candidates is given is admitted or counted as a duplicate. -/
theorem accept_balanced (candidates : Candidates) (event : AdmittedEvent) :
    (candidates.accept event).admitted.length + (candidates.accept event).duplicates =
      candidates.admitted.length + candidates.duplicates + 1 := by
  unfold Candidates.accept
  split
  · simp only; omega
  · simp only [List.length_append, List.length_singleton]; omega

theorem acceptAll_balanced (events : List AdmittedEvent) (candidates : Candidates) :
    (acceptAll events candidates).admitted.length + (acceptAll events candidates).duplicates =
      candidates.admitted.length + candidates.duplicates + events.length := by
  induction events generalizing candidates with
  | nil => rfl
  | cons event rest ih =>
      have first := accept_balanced candidates event
      have later := ih (candidates.accept event)
      simp only [acceptAll, List.foldl_cons, List.length_cons] at later ⊢
      omega

variable (source : ConfiguredSource) (attempt : SourceAttempt) (trade : TradeId)

/-- A candidate of the trade that passes admission. -/
def isRelevant (candidate : WireEvent) : Bool :=
  (admitTradeMutationEvent source.admissionLimits attempt.observedAt attempt.maximumFuture
    candidate).any fun admitted => admitted.event.tradeId == trade

theorem length_relevantEvents (candidates : List WireEvent) :
    (relevantEvents source attempt trade candidates).length =
      candidates.countP (isRelevant source attempt trade) := by
  rw [relevantEvents, (List.perm_insertionSort _ _).length_eq]
  induction candidates with
  | nil => rfl
  | cons candidate rest ih =>
      rw [List.countP_cons, ← ih]
      cases admission : admitTradeMutationEvent source.admissionLimits attempt.observedAt
        attempt.maximumFuture candidate with
      | none => simp [admission, isRelevant]
      | some admitted =>
          by_cases same : admitted.event.tradeId = trade
          · simp [admission, isRelevant, same]
          · simp [admission, isRelevant, same]

/-- The candidates taken from the pages are admitted, rejected or duplicates. -/
theorem fetchSource_balanced (answers : List Answer) :
    (receivePages source answers .nothing).2.candidates.length =
      (fetchSource source attempt trade answers).admitted.length +
      (fetchSource source attempt trade answers).rejectedEvents +
      (fetchSource source attempt trade answers).duplicateEvents := by
  have accepted := acceptAll_balanced (relevantEvents source attempt trade
    (receivePages source answers .nothing).2.candidates) .none
  have few : (relevantEvents source attempt trade
      (receivePages source answers .nothing).2.candidates).length ≤
        (receivePages source answers .nothing).2.candidates.length := by
    rw [length_relevantEvents]
    exact List.countP_le_length
  simp only [Candidates.none, List.length_nil, fetchSource] at accepted ⊢
  omega

/-- The reported count is the number of taken events exactly where the first events a source may
take are within its byte limit. -/
theorem receivedEvents_eq_iff (answers : List Answer) :
    (fetchSource source attempt trade answers).receivedEvents =
      (receivePages source answers .nothing).2.candidates.length ↔
        WithinBytes source answers := by
  have read := receivePages_cases (Received.holds_nothing source) rfl answers
  have offered : [] ++ offeredEvents answers Received.nothing.cursors = offeredEvents answers [] :=
    rfl
  rw [offered] at read
  simp only [fetchSource, WithinBytes]
  rcases read with ⟨holds, count⟩ | limited
  · rw [count, holds.candidates, List.length_map, Nat.min_eq_left holds.count_le,
      List.take_of_length_le holds.count_le]
    exact ⟨fun _ => holds.bytes_le, fun _ => rfl⟩
  · rw [limited.count]
    cases limited with
    | events taken rest next split holds full count =>
        rw [holds.candidates, List.length_map, split, full, ← full, List.take_left]
        exact ⟨fun _ => holds.bytes_le, fun _ => by omega⟩
    | bytes taken rest next split holds room heavy count =>
        rw [holds.candidates, List.length_map, split]
        constructor
        · intro same
          omega
        · intro within
          exfalso
          have reach : taken ++ next :: rest = (taken ++ [next]) ++ rest := by simp
          rw [reach, List.take_append, List.take_of_length_le (by
            simp only [List.length_append, List.length_singleton]; omega),
            originalBytes_append, originalBytes_append, originalBytes_cons] at within
          omega

end Candidates

section Outcomes

/-- A transaction inserts at most one signed event for each of its records. -/
theorem persistAll_signedEvents_le {entries : List (PersistenceRecord × ObservationRow)}
    {counts total : InsertedCounts} {store next : Store}
    (done : persistAll entries counts store = .ok (total, next)) :
    total.signedEvents ≤ counts.signedEvents + entries.length := by
  induction entries generalizing counts store with
  | nil =>
      cases done
      exact Nat.le_refl _
  | cons entry rest ih =>
      rcases entry with ⟨record, observation⟩
      rw [persistAll, bind_eq_ok] at done
      rcases done with ⟨⟨outcome, between⟩, -, later⟩
      have few := ih later
      have one : outcome.signedEventInserted.toNat ≤ 1 := Bool.toNat_le _
      simp only [InsertedCounts.add, List.length_cons] at few ⊢
      omega

/-- What a successful commit reports of the events it was given. -/
theorem commitSource_counts {source : SourceId} {policy : EvidencePolicyDigest} {trade : TradeId}
    {observedAt : ObservedAt} {initial : InitialState} {fetched : FetchedSource trade}
    {store next : Store} {outcome : IngestOutcome}
    (done : commitSource source policy observedAt initial fetched store = .ok (outcome, next)) :
    outcome.receivedEvents = fetched.receivedEvents ∧
      outcome.admittedEvents = fetched.admitted.length ∧
      outcome.rejectedEvents = fetched.rejectedEvents ∧
      outcome.duplicateEvents = fetched.duplicateEvents ∧
      outcome.inserted.signedEvents ≤ outcome.admittedEvents := by
  simp only [commitSource, bind_eq_ok, require_eq_ok, orError_eq_ok, mapError_eq_ok,
    admittedRecords_eq, Option.some.injEq] at done
  rcases done with ⟨-, -, _, rfl, ⟨inserted, persisted⟩, persistedAll, marking, -, checkpointing, -,
    finished⟩
  simp only [pure_eq_ok, Prod.mk.injEq] at finished
  rcases finished with ⟨rfl, -⟩
  have few := persistAll_signedEvents_le persistedAll
  exact ⟨rfl, rfl, rfl, rfl, by simpa [InsertedCounts.zero] using few⟩

/-- The counts of an ingest account for the events it took from the pages. -/
structure IngestOutcome.Conserves (outcome : IngestOutcome) (taken : Nat) : Prop where
  balanced : outcome.receivedEvents =
    outcome.admittedEvents + outcome.rejectedEvents + outcome.duplicateEvents
  received : outcome.receivedEvents = taken
  inserted : outcome.inserted.signedEvents ≤ outcome.admittedEvents

instance (outcome : IngestOutcome) (taken : Nat) : Decidable (outcome.Conserves taken) :=
  decidable_of_iff (outcome.receivedEvents =
      outcome.admittedEvents + outcome.rejectedEvents + outcome.duplicateEvents ∧
      outcome.receivedEvents = taken ∧ outcome.inserted.signedEvents ≤ outcome.admittedEvents)
    ⟨fun ⟨balanced, received, inserted⟩ => ⟨balanced, received, inserted⟩,
      fun ⟨balanced, received, inserted⟩ => ⟨balanced, received, inserted⟩⟩

/-- The body of `ingest_rhi_trade_source` after the initial state was read. -/
def ingestTradeSource (disposition : Disposition) (source : ConfiguredSource)
    (attempt : SourceAttempt) (trade : TradeId) (initial : InitialState) (answers : List Answer)
    (store : Store) : Except IngestErrorKind IngestOutcome × Store :=
  commitSourceResult disposition source.sourceId source.policy attempt.observedAt initial
    (fetchSource source attempt trade answers) store

/-- Whatever the transport answers, a successful ingest accounts for the events it took exactly
where the byte limit does not end the source. -/
theorem ingest_conserves_iff {disposition : Disposition} {source : ConfiguredSource}
    {attempt : SourceAttempt} {trade : TradeId} {initial : InitialState} {answers : List Answer}
    {store : Store} {outcome : IngestOutcome}
    (done : (ingestTradeSource disposition source attempt trade initial answers store).1 =
      .ok outcome) :
    outcome.Conserves (receivePages source answers .nothing).2.candidates.length ↔
      WithinBytes source answers := by
  rcases commitSource_counts (transaction_ok done) with
    ⟨received, admitted, rejected, duplicates, inserted⟩
  have balanced := fetchSource_balanced source attempt trade answers
  rw [← receivedEvents_eq_iff source attempt trade answers]
  constructor
  · intro conserves
    rw [← received, conserves.received]
  · intro same
    exact {
      balanced := by omega
      received := by omega
      inserted }

end Outcomes

section Exceptions

namespace Sample.Accounting

/-- A relay with the largest limits a configuration may set. -/
def source : ConfiguredSource where
  sourceId := Sample.source
  policy := Sample.policy
  maximumEvents := 4096
  maximumBytes := 8388608
  admissionLimits := Sample.configuration.limits

def attempt : SourceAttempt := ⟨Sample.proposal.observedAt, 300⟩

/-- An event that fails verification. -/
def forged (length : Nat) : ObservedEvent where
  wire := ⟨length, none, by simp⟩
  observedMs := 1000000000

/-- The last page of the relay: so many events of 262144 bytes each. -/
def answers (count : Nat) : List Answer :=
  [.page ⟨.complete, List.replicate count (forged 262144), .complete⟩]

/-- The 33rd event exceeds the byte limit, and 4096 events are reported instead of 32. -/
theorem received_beyond_taken :
    (receivePages source (answers 33) .nothing).2.candidates.length = 32 ∧
    ∃ outcome, (ingestTradeSource .acknowledged source attempt Sample.trade ⟨none, none⟩
        (answers 33) .initial).1 = .ok outcome ∧
      outcome.receivedEvents = 4096 ∧ outcome.admittedEvents = 0 ∧
      outcome.rejectedEvents = 32 ∧ outcome.duplicateEvents = 0 ∧
      ¬ outcome.Conserves 32 := by
  refine ⟨by decide +kernel, ⟨.incompleteResourceLimit, 4096, 0, 32, 0, .zero, none, false, none,
    false⟩, by decide +kernel, rfl, rfl, rfl, rfl, by decide⟩

/-- One event less is within the limit. -/
theorem conserves_within :
    (⟨.complete, 32, 0, 32, 0, .zero, none, false, none, false⟩ : IngestOutcome).Conserves
      (receivePages source (answers 32) .nothing).2.candidates.length := by
  have done : (ingestTradeSource .acknowledged source attempt Sample.trade ⟨none, none⟩
      (answers 32) .initial).1 =
        .ok ⟨.complete, 32, 0, 32, 0, .zero, none, false, none, false⟩ := by
    decide +kernel
  exact (ingest_conserves_iff done).mpr (by decide +kernel)

end Sample.Accounting

end Exceptions

end Rhi
