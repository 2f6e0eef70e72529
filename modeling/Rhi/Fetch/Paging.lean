import Rhi.Fetch.Committable
import Rhi.Ingest.Accounting
import Rhi.Lib.Dialogue

/-!
# Paging against an arbitrary transport

The loops of `fetch_source` and `fetch_reconciliation_source` are clients in a dialogue with the
transport of the service, which may answer every call differently and offer a new cursor each time.
An ingest counts every event it takes, and an attempt the bytes of every event it looks at: each
page that either of them goes on from brings its limit closer.
-/

namespace Rhi

open Relational Transactional

section Transport

/-- `FetchRequest`, as far as it differs between the calls for one source. -/
structure PageRequest where
  limit : Nat
  cursor : Option String
deriving DecidableEq, Repr

/-- `FetchPage`: the outcomes by the fingerprints of their targets, the events and the cursor. -/
structure FetchPage where
  targetOutcomes : List (String × TargetAnswer)
  events : List ObservedEvent
  nextPage : NextPage
deriving DecidableEq

/-- What `fetch` returns. -/
inductive Fetched where
  | unsupported
  | failed
  | page (page : FetchPage)
deriving DecidableEq

/-- The transport as the loops use it for one source.  The shared library admits a request with its
bounds and validates a page for it. -/
structure Transport where
  fingerprint : String
  admits : PageRequest → Bool
  validates : PageRequest → FetchPage → Bool
  fetch : Nat → PageRequest → Fetched

/-- A page counts if it is valid for its request and reports on the target alone. -/
def Transport.answer (transport : Transport) (request : PageRequest) : Fetched → Answer
  | .unsupported => .unsupported
  | .failed => .failed
  | .page page =>
      if transport.validates request page then
        match page.targetOutcomes.find? fun outcome => outcome.1 == transport.fingerprint with
        | some outcome =>
            if page.targetOutcomes.length = 1 then
              .page ⟨outcome.2, page.events, page.nextPage⟩
            else
              .malformed
        | none => .malformed
      else
        .malformed

/-- `FETCH_PAGE_MAX_EVENTS`. -/
def fetchPageMaxEvents : Nat := 1000

end Transport

section Loops

/-- The loop over the pages of `fetch_source`, with the cursor of the next request. -/
def ingestClient (transport : Transport) (source : ConfiguredSource) :
    Dialogue.Client (Received × Option String) PageRequest Fetched
      (Except IngestErrorKind (SourceCompletion × Received)) where
  request _ state :=
    let request : PageRequest :=
      ⟨min fetchPageMaxEvents (source.maximumEvents - state.1.events + 1), state.2⟩
    if transport.admits request then .ok request else .error (.error .invalidInput)
  react _ state request fetched :=
    let received := state.1
    match transport.answer request fetched with
    | .unsupported => .inr (.ok (.unsupported, received))
    | .failed | .malformed => .inr (.ok (.incompleteUnknown, received))
    | .page page =>
        match page.state with
        | .unavailable | .failedRetryable => .inr (.ok (.incompleteUnavailable, received))
        | .failedTerminal => .inr (.ok (.incompleteUnknown, received))
        | .cancelled => .inr (.ok (.incompleteTimeout, received))
        | .complete | .partly =>
            let received := receiveEvents source page.events received
            if source.maximumEvents < received.events then
              .inr (.ok (.incompleteResourceLimit, received))
            else if page.state = .partly then
              .inr (.ok (.incompleteUnknown, received))
            else
              match page.next with
              | .complete => .inr (.ok (.complete, received))
              | .cancelled => .inr (.ok (.incompleteTimeout, received))
              | .cursor text =>
                  if page.events = [] ∨ text ∈ received.cursors then
                    .inr (.ok (.incompleteUnknown, received))
                  else
                    .inl ({ received with cursors := text :: received.cursors }, some text)

/-- When the worker is cancelled: before a call, or while it waits for its answer. -/
structure Cancellation where
  before : Nat → Bool
  during : Nat → Bool

/-- `u64::saturating_add`. -/
def saturatingAdd (left right : Nat) : Nat := min (left + right) (2 ^ 64 - 1)

/-- The loop over the events of a page in `fetch_reconciliation_source`. -/
def observeEvents (limits : AdmissionLimits) (request : SourceRequest) :
    List ObservedEvent → Tally → Except FetchError (Bool × Tally)
  | [], tally => .ok (false, tally)
  | observed :: rest, tally =>
      let bytes := saturatingAdd tally.bytes observed.wire.rawLength
      if request.maximumEvents ≤ tally.events.length ∨ request.maximumBytes < bytes then
        .ok (true, tally)
      else do
        let observedAt ← orError (ObservedAt.new (observed.observedMs / 1000)) .observation
        observeEvents limits request rest { tally with
          events := tally.events ++
            (admitObserved limits request.tradeId observedAt observed.wire).toList
          bytes }

/-- The loop over the pages of `fetch_reconciliation_source`. -/
def reconciliationClient (transport : Transport) (cancellation : Cancellation)
    (limits : AdmissionLimits) (source : SourceRequest) :
    Dialogue.Client (Tally × Option String) PageRequest Fetched
      (Except FetchError (SourceCompletion × List AdmittedEvent)) where
  request call state :=
    if cancellation.before call then
      .error (.ok (.incompleteTimeout, state.1.events))
    else
      let request : PageRequest :=
        ⟨min fetchPageMaxEvents (source.maximumEvents - state.1.events.length + 1), state.2⟩
      if transport.admits request then .ok request else .error (.error .configuration)
  react call state request fetched :=
    let tally := state.1
    if cancellation.during call then
      .inr (.ok (.incompleteTimeout, tally.events))
    else
      match transport.answer request fetched with
      | .unsupported => .inr (.ok (.unsupported, []))
      | .failed => .inr (.ok (.incompleteUnavailable, tally.events))
      | .malformed => .inr (.ok (.incompleteUnknown, tally.events))
      | .page page =>
          match page.state with
          | .unavailable | .failedRetryable => .inr (.ok (.incompleteUnavailable, tally.events))
          | .cancelled => .inr (.ok (.incompleteTimeout, tally.events))
          | .failedTerminal => .inr (.ok (.incompleteUnknown, tally.events))
          | .complete | .partly =>
              match observeEvents limits source page.events tally with
              | .error error => .inr (.error error)
              | .ok (true, tally) => .inr (.ok (.incompleteResourceLimit, tally.events))
              | .ok (false, tally) =>
                  if page.state = .partly then
                    .inr (.ok (.incompleteUnknown, tally.events))
                  else
                    match page.next with
                    | .complete => .inr (.ok (.complete, tally.events))
                    | .cancelled => .inr (.ok (.incompleteTimeout, tally.events))
                    | .cursor text =>
                        if page.events = [] ∨ text ∈ tally.cursors then
                          .inr (.ok (.incompleteUnknown, tally.events))
                        else
                          .inl ({ tally with cursors := text :: tally.cursors }, some text)

end Loops

section Exchanges

variable {transport : Transport}

/-- The answers of a transport, as the loops read them. -/
def Transport.answers (transport : Transport) (exchanges : List (PageRequest × Fetched)) :
    List Answer :=
  exchanges.map fun exchange => transport.answer exchange.1 exchange.2

/-- The events a transport returned. -/
def Fetched.events : Fetched → List ObservedEvent
  | .page whole => whole.events
  | .unsupported | .failed => []

/-- The events of all pages, in the order they were returned in. -/
def deliveredEvents (exchanges : List (PageRequest × Fetched)) : List ObservedEvent :=
  exchanges.flatMap (·.2.events)

@[simp]
theorem deliveredEvents_snoc (exchanges : List (PageRequest × Fetched)) (request : PageRequest)
    (fetched : Fetched) :
    deliveredEvents (exchanges ++ [(request, fetched)]) =
      deliveredEvents exchanges ++ fetched.events := by
  simp [deliveredEvents]

/-- A valid page whose only outcome is that the target is complete. -/
def CompletePage (transport : Transport) (exchange : PageRequest × Fetched) : Prop :=
  ∃ page, exchange.2 = .page page ∧ transport.validates exchange.1 page = true ∧
    page.targetOutcomes = [(transport.fingerprint, .complete)]

/-- Complete pages, of which the last one says so. -/
structure FullyRead (transport : Transport) (exchanges : List (PageRequest × Fetched)) : Prop where
  pages : ∀ exchange ∈ exchanges, CompletePage transport exchange
  last : ∃ earlier request page, exchanges = earlier ++ [(request, .page page)] ∧
    page.nextPage = .complete

/-- What is known of a returned page that counts. -/
theorem answer_page {request : PageRequest} {fetched : Fetched} {page : Page}
    (answered : transport.answer request fetched = .page page) :
    ∃ whole, fetched = .page whole ∧ transport.validates request whole = true ∧
      whole.targetOutcomes = [(transport.fingerprint, page.state)] ∧
      whole.events = page.events ∧ whole.nextPage = page.next := by
  cases fetched with
  | unsupported => cases answered
  | failed => cases answered
  | page whole =>
      simp only [Transport.answer] at answered
      split at answered
      · rename_i valid
        split at answered
        · rename_i outcome found
          split at answered
          · rename_i single
            cases answered
            rcases List.length_eq_one_iff.mp single with ⟨only, outcomes⟩
            have target := List.find?_some found
            have member := List.mem_of_find?_eq_some found
            rw [outcomes, List.mem_singleton] at member
            subst member
            refine ⟨whole, rfl, valid, ?_, rfl, rfl⟩
            rw [outcomes, ← beq_iff_eq.mp target]
          · cases answered
        · cases answered
      · cases answered

theorem CompletePage.of_answer {request : PageRequest} {fetched : Fetched} {page : Page}
    (answered : transport.answer request fetched = .page page) (complete : page.state = .complete) :
    CompletePage transport (request, fetched) := by
  rcases answer_page answered with ⟨whole, returned, valid, outcomes, -, -⟩
  exact ⟨whole, returned, valid, by rw [outcomes, complete]⟩

theorem events_of_answer {request : PageRequest} {fetched : Fetched} {page : Page}
    (answered : transport.answer request fetched = .page page) : fetched.events = page.events := by
  rcases answer_page answered with ⟨whole, rfl, -, -, events, -⟩
  exact events

/-- Complete pages followed by a last one are a full read. -/
theorem FullyRead.of_answer {earlier : List (PageRequest × Fetched)} {request : PageRequest}
    {fetched : Fetched} {page : Page}
    (pages : ∀ exchange ∈ earlier, CompletePage transport exchange)
    (answered : transport.answer request fetched = .page page) (complete : page.state = .complete)
    (last : page.next = .complete) : FullyRead transport (earlier ++ [(request, fetched)]) := by
  refine ⟨?_, ?_⟩
  · intro exchange member
    rcases List.mem_append.mp member with old | new
    · exact pages exchange old
    · rw [List.mem_singleton.mp new]
      exact .of_answer answered complete
  · rcases answer_page answered with ⟨whole, rfl, -, -, -, next⟩
    exact ⟨earlier, request, whole, rfl, next.trans last⟩

end Exchanges

section Ingest

variable {transport : Transport} {source : ConfiguredSource}

/-- An ingest goes on from a full page with a cursor not seen before. -/
theorem ingestClient_goesOn {call : Nat} {state next : Received × Option String}
    {request : PageRequest} {fetched : Fetched}
    (reaction : (ingestClient transport source).react call state request fetched = .inl next) :
    ∃ page text, transport.answer request fetched = .page page ∧ page.state = .complete ∧
      (receiveEvents source page.events state.1).events ≤ source.maximumEvents ∧
      page.next = .cursor text ∧ page.events ≠ [] ∧ text ∉ state.1.cursors ∧
      next = ({ receiveEvents source page.events state.1 with
        cursors := text :: state.1.cursors }, some text) := by
  simp only [ingestClient] at reaction
  split at reaction
  · cases reaction
  · cases reaction
  · cases reaction
  · rename_i page answered
    split at reaction
    · cases reaction
    · cases reaction
    · cases reaction
    · cases reaction
    · rename_i complete
      split at reaction
      · cases reaction
      · rename_i room
        split at reaction
        · cases reaction
        · split at reaction
          · cases reaction
          · cases reaction
          · rename_i text next
            split at reaction
            · cases reaction
            · rename_i fresh
              cases reaction
              rw [not_or, receiveEvents_cursors] at fresh
              exact ⟨page, text, answered, complete, by omega, next, fresh.1, fresh.2, by simp⟩
    · rename_i partly
      split at reaction
      · cases reaction
      · cases reaction

/-- What an ingest ends with was received before, or with the last page; it is complete only if
that page is, says so and was taken whole. -/
theorem ingestClient_ends {call : Nat} {state : Received × Option String} {request : PageRequest}
    {fetched : Fetched} {result : Except IngestErrorKind (SourceCompletion × Received)}
    (reaction : (ingestClient transport source).react call state request fetched = .inr result) :
    ∃ completion received, result = .ok (completion, received) ∧
      (received = state.1 ∨ ∃ page, transport.answer request fetched = .page page ∧
        received = receiveEvents source page.events state.1) ∧
      (completion = .complete → ∃ page, transport.answer request fetched = .page page ∧
        page.state = .complete ∧ page.next = .complete ∧
        received = receiveEvents source page.events state.1 ∧
        received.events ≤ source.maximumEvents) := by
  simp only [ingestClient] at reaction
  split at reaction
  · cases reaction
    exact ⟨_, _, rfl, .inl rfl, nofun⟩
  · cases reaction
    exact ⟨_, _, rfl, .inl rfl, nofun⟩
  · cases reaction
    exact ⟨_, _, rfl, .inl rfl, nofun⟩
  · rename_i page answered
    split at reaction
    · cases reaction
      exact ⟨_, _, rfl, .inl rfl, nofun⟩
    · cases reaction
      exact ⟨_, _, rfl, .inl rfl, nofun⟩
    · cases reaction
      exact ⟨_, _, rfl, .inl rfl, nofun⟩
    · cases reaction
      exact ⟨_, _, rfl, .inl rfl, nofun⟩
    · rename_i complete
      split at reaction
      · cases reaction
        exact ⟨_, _, rfl, .inr ⟨page, answered, rfl⟩, nofun⟩
      · rename_i room
        split at reaction
        · cases reaction
          exact ⟨_, _, rfl, .inr ⟨page, answered, rfl⟩, nofun⟩
        · split at reaction
          · rename_i last
            cases reaction
            exact ⟨_, _, rfl, .inr ⟨page, answered, rfl⟩, fun _ =>
              ⟨page, answered, complete, last, rfl, by omega⟩⟩
          · cases reaction
            exact ⟨_, _, rfl, .inr ⟨page, answered, rfl⟩, nofun⟩
          · split at reaction
            · cases reaction
              exact ⟨_, _, rfl, .inr ⟨page, answered, rfl⟩, nofun⟩
            · cases reaction
    · split at reaction
      · cases reaction
        exact ⟨_, _, rfl, .inr ⟨page, answered, rfl⟩, nofun⟩
      · cases reaction
        exact ⟨_, _, rfl, .inr ⟨page, answered, rfl⟩, nofun⟩

/-- What an ingest has taken when it goes on. -/
structure IngestState (transport : Transport) (source : ConfiguredSource)
    (earlier : List (PageRequest × Fetched)) (received : Received) : Prop where
  holds : received.Holds source (deliveredEvents earlier)
  count : received.events = (deliveredEvents earlier).length
  pages : ∀ exchange ∈ earlier, CompletePage transport exchange

/-- What an ingest has taken when it ends. -/
structure IngestRead (transport : Transport) (source : ConfiguredSource)
    (exchanges : List (PageRequest × Fetched)) (completion : SourceCompletion)
    (received : Received) : Prop where
  limited : ∃ taken, received.Holds source taken
  complete : completion = .complete →
    FullyRead transport exchanges ∧ received.Holds source (deliveredEvents exchanges)

theorem ingestState_nothing : IngestState transport source [] .nothing where
  holds := Received.holds_nothing source
  count := rfl
  pages := by simp

/-- A page that fits leaves its events behind. -/
theorem receiveEvents_of_room {taken events : List ObservedEvent} {received : Received}
    (holds : received.Holds source taken) (count : received.events = taken.length)
    (room : (receiveEvents source events received).events ≤ source.maximumEvents) :
    (receiveEvents source events received).Holds source (taken ++ events) ∧
      (receiveEvents source events received).events = (taken ++ events).length := by
  rcases receiveEvents_cases holds count events with whole | limited
  · exact whole
  · have beyond := limited.count
    omega

theorem IngestState.goesOn {earlier : List (PageRequest × Fetched)} {call : Nat}
    {state next : Received × Option String} {request : PageRequest} {fetched : Fetched}
    (kept : IngestState transport source earlier state.1)
    (reaction : (ingestClient transport source).react call state request fetched = .inl next) :
    IngestState transport source (earlier ++ [(request, fetched)]) next.1 := by
  rcases ingestClient_goesOn reaction with
    ⟨page, text, answered, complete, room, -, -, -, rfl⟩
  rcases receiveEvents_of_room kept.holds kept.count room with ⟨holds, count⟩
  refine {
    holds := ?_
    count := ?_
    pages := ?_ }
  · rw [deliveredEvents_snoc, events_of_answer answered]
    exact ⟨holds.candidates, holds.bytes, holds.count_le, holds.bytes_le⟩
  · rw [deliveredEvents_snoc, events_of_answer answered]
    exact count
  · intro exchange member
    rcases List.mem_append.mp member with old | new
    · exact kept.pages exchange old
    · rw [List.mem_singleton.mp new]
      exact .of_answer answered complete

theorem IngestState.ends {earlier : List (PageRequest × Fetched)} {call : Nat}
    {state : Received × Option String} {request : PageRequest} {fetched : Fetched}
    {completion : SourceCompletion} {received : Received}
    (kept : IngestState transport source earlier state.1)
    (reaction : (ingestClient transport source).react call state request fetched =
      .inr (.ok (completion, received))) :
    IngestRead transport source (earlier ++ [(request, fetched)]) completion received := by
  rcases ingestClient_ends reaction with ⟨_, _, same, origin, whole⟩
  cases same
  constructor
  · rcases origin with rfl | ⟨page, answered, rfl⟩
    · exact ⟨_, kept.holds⟩
    · rcases receiveEvents_cases kept.holds kept.count page.events with
        ⟨holds, -⟩ | limited
      · exact ⟨_, holds⟩
      · cases limited with
        | events taken rest next split holds full count => exact ⟨taken, holds⟩
        | bytes taken rest next split holds room heavy count => exact ⟨taken, holds⟩
  · intro complete
    rcases whole complete with ⟨page, answered, state, last, rfl, room⟩
    refine ⟨.of_answer kept.pages answered state last, ?_⟩
    rw [deliveredEvents_snoc, events_of_answer answered]
    exact (receiveEvents_of_room kept.holds kept.count room).1

/-- The loop over the pages of `fetch_source` ends after as many calls as it may take events, and
one more. -/
theorem exists_ingest (transport : Transport) (source : ConfiguredSource) :
    ∃ exchanges result, Dialogue.run (ingestClient transport source) transport.fetch
      (source.maximumEvents + 1) 0 (.nothing, none) = some (exchanges, result) := by
  have ended : ∃ talk, Dialogue.run (ingestClient transport source) transport.fetch
      (source.maximumEvents + 1) 0 (.nothing, none) = some talk := by
    refine Dialogue.exists_run
      (fun state : Received × Option String => ∃ taken, state.1.Holds source taken ∧
        state.1.events = taken.length)
      (fun state => source.maximumEvents - state.1.events) ?_
      ⟨[], Received.holds_nothing source, rfl⟩ 0
    rintro call state request next ⟨taken, holds, count⟩ - reaction
    rcases ingestClient_goesOn reaction with ⟨page, text, -, -, room, -, some, -, rfl⟩
    rcases receiveEvents_of_room holds count room with ⟨holds', count'⟩
    have more := List.length_pos_iff.mpr some
    rw [List.length_append] at count'
    refine ⟨⟨taken ++ page.events, ⟨holds'.candidates, holds'.bytes, holds'.count_le,
      holds'.bytes_le⟩, by simpa using count'⟩, ?_⟩
    simp only
    omega
  rcases ended with ⟨⟨exchanges, result⟩, ended⟩
  exact ⟨exchanges, result, ended⟩

/-- What the loop over the pages of `fetch_source` has taken when it ends. -/
theorem ingest_read {fuel : Nat} {exchanges : List (PageRequest × Fetched)}
    {completion : SourceCompletion} {received : Received}
    (ended : Dialogue.run (ingestClient transport source) transport.fetch fuel 0 (.nothing, none) =
      some (exchanges, .ok (completion, received))) :
    IngestRead transport source exchanges completion received := by
  have read := Dialogue.run_spec
    (fun earlier (state : Received × Option String) =>
      IngestState transport source earlier state.1)
    (fun exchanges result => ∀ completion received, result = .ok (completion, received) →
      IngestRead transport source exchanges completion received)
    ?_ ?_ ?_ ingestState_nothing ended
  · exact read completion received rfl
  · rintro call earlier state result - refused completion received rfl
    simp only [ingestClient] at refused
    split at refused <;> cases refused
  · rintro call earlier state request next kept - reaction
    exact kept.goesOn reaction
  · rintro call earlier state request result kept - reaction completion received rfl
    exact kept.ends reaction

/-- The last reply decides the loop over the answers. -/
theorem receivePages_ends {call : Nat} {state : Received × Option String} {request : PageRequest}
    {fetched : Fetched} {result : SourceCompletion × Received}
    (reaction : (ingestClient transport source).react call state request fetched =
      .inr (.ok result)) (rest : List Answer) :
    receivePages source (transport.answer request fetched :: rest) state.1 = result := by
  simp only [ingestClient] at reaction
  cases answered : transport.answer request fetched with
  | unsupported | failed | malformed =>
      simp only [answered, Sum.inr.injEq, Except.ok.injEq] at reaction
      simp only [receivePages, reaction]
  | page page =>
      simp only [answered] at reaction
      rw [receivePages]
      cases ended : page.state with
      | unavailable | failedRetryable | failedTerminal | cancelled =>
          simpa only [ended, Sum.inr.injEq, Except.ok.injEq] using reaction
      | partly =>
          simp only [ended] at reaction ⊢
          split at reaction
          · rename_i beyond
            simpa [beyond] using reaction
          · rename_i room
            simpa [room] using reaction
      | complete =>
          simp only [ended] at reaction ⊢
          split at reaction
          · rename_i beyond
            simpa [beyond] using reaction
          · rename_i room
            rw [if_neg room]
            cases following : page.next with
            | complete | cancelled => simpa [following] using reaction
            | cursor text =>
                simp only [following, reduceCtorEq, if_false] at reaction ⊢
                split at reaction
                · rename_i stale
                  rw [if_pos stale]
                  simpa using reaction
                · cases reaction

/-- What an ingest has received is what its loop makes of the answers it was given. -/
theorem ingest_eq_receivePages {fuel call : Nat} {state : Received × Option String}
    {exchanges : List (PageRequest × Fetched)} {result : SourceCompletion × Received}
    (ended : Dialogue.run (ingestClient transport source) transport.fetch fuel call state =
      some (exchanges, .ok result)) :
    receivePages source (transport.answers exchanges) state.1 = result := by
  induction fuel generalizing call state exchanges with
  | zero => cases ended
  | succ fuel ih =>
      rw [Dialogue.run] at ended
      cases asked : (ingestClient transport source).request call state with
      | error early =>
          simp only [asked, Option.some.injEq, Prod.mk.injEq] at ended
          rcases ended with ⟨rfl, rfl⟩
          simp only [ingestClient] at asked
          split at asked <;> cases asked
      | ok request =>
          simp only [asked] at ended
          cases reaction : (ingestClient transport source).react call state request
              (transport.fetch call request) with
          | inr final =>
              simp only [reaction, Option.some.injEq, Prod.mk.injEq] at ended
              rcases ended with ⟨rfl, rfl⟩
              exact receivePages_ends reaction []
          | inl next =>
              simp only [reaction, Option.map_eq_some_iff, Prod.mk.injEq] at ended
              rcases ended with ⟨⟨rest, last⟩, later, rfl, rfl⟩
              rcases ingestClient_goesOn reaction with
                ⟨page, text, answered, complete, room, following, some, fresh, rfl⟩
              have rest' := ih later
              simp only [Transport.answers, List.map_cons, answered, receivePages, complete,
                following,
                receiveEvents_cursors, if_neg (not_lt.mpr room), if_neg (not_or.mpr ⟨some, fresh⟩)]
              exact rest'

end Ingest

section Reconciliation

variable {transport : Transport} {cancellation : Cancellation} {limits : AdmissionLimits}
  {source : SourceRequest}

/-- Below a byte limit that fits, saturation is not seen. -/
theorem observeEvents_eq_readEvents (fits : source.maximumBytes < 2 ^ 64 - 1)
    (events : List ObservedEvent) (tally : Tally) :
    observeEvents limits source events tally = readEvents limits source events tally := by
  induction events generalizing tally with
  | nil => rfl
  | cons event rest ih =>
      have heavy : source.maximumBytes < saturatingAdd tally.bytes event.wire.rawLength ↔
          source.maximumBytes < tally.bytes + event.wire.rawLength := by
        unfold saturatingAdd
        omega
      rw [observeEvents, readEvents]
      simp only [heavy]
      split
      · rfl
      · rename_i room
        have exactly : saturatingAdd tally.bytes event.wire.rawLength =
            tally.bytes + event.wire.rawLength := by
          unfold saturatingAdd
          omega
        simp only [exactly, ih]

/-- The events of a page that were counted before a limit ended the source, or all of them. -/
theorem readEvents_ok {read : List ObservedEvent} {cursors : List String} {tally next : Tally}
    {events : List ObservedEvent} {limited : Bool}
    (counts : tally.Counts limits source read cursors)
    (done : readEvents limits source events tally = .ok (limited, next)) :
    (∃ consumed, next.Counts limits source (read ++ consumed) cursors) ∧
      (limited = false → next.Counts limits source (read ++ events) cursors ∧
        ∀ event ∈ events, event.Usable) := by
  by_cases usable : ∀ event, ReadsOf limits source read events event → event.Usable
  · rcases readEvents_of_usable counts usable with
      ⟨_, _, same, limitIff, fitted, consumed, finalCounts, -⟩
    rw [same] at done
    cases done
    refine ⟨⟨consumed, finalCounts⟩, fun whole => ?_⟩
    have fits := limitIff.mp whole
    exact ⟨fitted fits, fun event member => usable event ((readsOf_iff_of_fits fits).mpr member)⟩
  · push Not at usable
    rw [readEvents_of_unusable counts usable] at done
    cases done

/-- An attempt goes on from a full page with a cursor not seen before. -/
theorem reconciliationClient_goesOn {call : Nat} {state next : Tally × Option String}
    {request : PageRequest} {fetched : Fetched}
    (reaction : (reconciliationClient transport cancellation limits source).react call state request
      fetched = .inl next) :
    ∃ page text tally, transport.answer request fetched = .page page ∧ page.state = .complete ∧
      observeEvents limits source page.events state.1 = .ok (false, tally) ∧
      page.next = .cursor text ∧ page.events ≠ [] ∧ text ∉ tally.cursors ∧
      next = ({ tally with cursors := text :: tally.cursors }, some text) := by
  simp only [reconciliationClient] at reaction
  split at reaction
  · cases reaction
  · split at reaction
    · cases reaction
    · cases reaction
    · cases reaction
    · rename_i page answered
      split at reaction
      · cases reaction
      · cases reaction
      · cases reaction
      · cases reaction
      · rename_i complete
        split at reaction
        · cases reaction
        · cases reaction
        · rename_i tally observed
          split at reaction
          · cases reaction
          · split at reaction
            · cases reaction
            · cases reaction
            · rename_i text following
              split at reaction
              · cases reaction
              · rename_i fresh
                cases reaction
                rw [not_or] at fresh
                exact ⟨page, text, tally, answered, complete, observed, following, fresh.1, fresh.2,
                  rfl⟩
      · rename_i partly
        split at reaction
        · cases reaction
        · cases reaction
        · rw [if_pos partly] at reaction
          cases reaction

/-- What an attempt ends with was counted before, or on the last page; it is complete only if that
page is, says so and was counted whole. -/
theorem reconciliationClient_ends {call : Nat} {state : Tally × Option String}
    {request : PageRequest} {fetched : Fetched} {completion : SourceCompletion}
    {events : List AdmittedEvent}
    (reaction : (reconciliationClient transport cancellation limits source).react call state request
      fetched = .inr (.ok (completion, events))) :
    (events = [] ∨ events = state.1.events ∨ ∃ page limited tally,
      transport.answer request fetched = .page page ∧
      observeEvents limits source page.events state.1 = .ok (limited, tally) ∧
      events = tally.events) ∧
    (completion = .complete → ∃ page tally, transport.answer request fetched = .page page ∧
      page.state = .complete ∧ page.next = .complete ∧
      observeEvents limits source page.events state.1 = .ok (false, tally) ∧
      events = tally.events) := by
  simp only [reconciliationClient] at reaction
  split at reaction
  · cases reaction
    exact ⟨.inr (.inl rfl), nofun⟩
  · split at reaction
    · cases reaction
      exact ⟨.inl rfl, nofun⟩
    · cases reaction
      exact ⟨.inr (.inl rfl), nofun⟩
    · cases reaction
      exact ⟨.inr (.inl rfl), nofun⟩
    · rename_i page answered
      split at reaction
      · cases reaction
        exact ⟨.inr (.inl rfl), nofun⟩
      · cases reaction
        exact ⟨.inr (.inl rfl), nofun⟩
      · cases reaction
        exact ⟨.inr (.inl rfl), nofun⟩
      · cases reaction
        exact ⟨.inr (.inl rfl), nofun⟩
      · rename_i complete
        split at reaction
        · cases reaction
        · rename_i tally observed
          cases reaction
          exact ⟨.inr (.inr ⟨page, true, tally, answered, observed, rfl⟩), nofun⟩
        · rename_i tally observed
          split at reaction
          · cases reaction
            exact ⟨.inr (.inr ⟨page, false, tally, answered, observed, rfl⟩), nofun⟩
          · split at reaction
            · rename_i last
              cases reaction
              exact ⟨.inr (.inr ⟨page, false, tally, answered, observed, rfl⟩), fun _ =>
                ⟨page, tally, answered, complete, last, observed, rfl⟩⟩
            · cases reaction
              exact ⟨.inr (.inr ⟨page, false, tally, answered, observed, rfl⟩), nofun⟩
            · split at reaction
              · cases reaction
                exact ⟨.inr (.inr ⟨page, false, tally, answered, observed, rfl⟩), nofun⟩
              · cases reaction
      · rename_i partly
        split at reaction
        · cases reaction
        · rename_i tally observed
          cases reaction
          exact ⟨.inr (.inr ⟨page, true, tally, answered, observed, rfl⟩), nofun⟩
        · rename_i tally observed
          rw [if_pos partly] at reaction
          cases reaction
          exact ⟨.inr (.inr ⟨page, false, tally, answered, observed, rfl⟩), nofun⟩

/-- What an attempt has counted when it goes on. -/
structure ReconciliationState (transport : Transport) (limits : AdmissionLimits)
    (source : SourceRequest) (earlier : List (PageRequest × Fetched)) (tally : Tally) : Prop where
  counts : tally.Counts limits source (deliveredEvents earlier) tally.cursors
  usable : ∀ event ∈ deliveredEvents earlier, event.Usable
  pages : ∀ exchange ∈ earlier, CompletePage transport exchange

/-- What an attempt has accepted when it ends. -/
structure ReconciliationRead (transport : Transport) (limits : AdmissionLimits)
    (source : SourceRequest) (exchanges : List (PageRequest × Fetched))
    (completion : SourceCompletion) (events : List AdmittedEvent) : Prop where
  count_le : events.length ≤ source.maximumEvents
  bytes_le : (events.map (·.rawLength)).sum ≤ source.maximumBytes
  complete : completion = .complete → FullyRead transport exchanges ∧
    (∀ event ∈ deliveredEvents exchanges, event.Usable) ∧
    events = (deliveredEvents exchanges).filterMap (·.counted limits source)

theorem reconciliationState_empty : ReconciliationState transport limits source [] .empty where
  counts := Tally.counts_empty limits source
  usable := by simp [deliveredEvents]
  pages := by simp

theorem ReconciliationState.goesOn {earlier : List (PageRequest × Fetched)} {call : Nat}
    {state next : Tally × Option String} {request : PageRequest} {fetched : Fetched}
    (fits : source.maximumBytes < 2 ^ 64 - 1)
    (kept : ReconciliationState transport limits source earlier state.1)
    (reaction : (reconciliationClient transport cancellation limits source).react call state request
      fetched = .inl next) :
    ReconciliationState transport limits source (earlier ++ [(request, fetched)]) next.1 := by
  rcases reconciliationClient_goesOn reaction with
    ⟨page, text, tally, answered, complete, observed, -, -, -, rfl⟩
  rw [observeEvents_eq_readEvents fits] at observed
  rcases (readEvents_ok kept.counts observed).2 rfl with ⟨counts, usable⟩
  refine {
    counts := ?_
    usable := ?_
    pages := ?_ }
  · rw [deliveredEvents_snoc, events_of_answer answered]
    exact ⟨counts.events, counts.bytes, rfl, counts.count_le, counts.bytes_le⟩
  · intro event member
    rw [deliveredEvents_snoc, events_of_answer answered] at member
    rcases List.mem_append.mp member with old | new
    · exact kept.usable event old
    · exact usable event new
  · intro exchange member
    rcases List.mem_append.mp member with old | new
    · exact kept.pages exchange old
    · rw [List.mem_singleton.mp new]
      exact .of_answer answered complete

theorem ReconciliationState.ends {earlier : List (PageRequest × Fetched)} {call : Nat}
    {state : Tally × Option String} {request : PageRequest} {fetched : Fetched}
    {completion : SourceCompletion} {events : List AdmittedEvent}
    (fits : source.maximumBytes < 2 ^ 64 - 1)
    (kept : ReconciliationState transport limits source earlier state.1)
    (reaction : (reconciliationClient transport cancellation limits source).react call state request
      fetched = .inr (.ok (completion, events))) :
    ReconciliationRead transport limits source (earlier ++ [(request, fetched)]) completion
      events := by
  rcases reconciliationClient_ends reaction with ⟨origin, whole⟩
  have counted : events = [] ∨ ∃ read cursors, ∃ final : Tally,
      final.Counts limits source read cursors ∧ events = final.events := by
    rcases origin with none | same | ⟨page, limited, tally, answered, observed, same⟩
    · exact .inl none
    · exact .inr ⟨_, _, state.1, kept.counts, same⟩
    · rw [observeEvents_eq_readEvents fits] at observed
      rcases (readEvents_ok kept.counts observed).1 with ⟨consumed, counts⟩
      exact .inr ⟨_, _, tally, counts, same⟩
  refine {
    count_le := ?_
    bytes_le := ?_
    complete := ?_ }
  · rcases counted with rfl | ⟨read, cursors, final, counts, rfl⟩
    · exact Nat.zero_le _
    · exact counts.count_le
  · rcases counted with rfl | ⟨read, cursors, final, counts, rfl⟩
    · exact Nat.zero_le _
    · exact counts.admitted_bytes
  · intro complete
    rcases whole complete with ⟨page, tally, answered, state, last, observed, rfl⟩
    rw [observeEvents_eq_readEvents fits] at observed
    rcases (readEvents_ok kept.counts observed).2 rfl with ⟨counts, usable⟩
    refine ⟨.of_answer kept.pages answered state last, ?_, ?_⟩
    · intro event member
      rw [deliveredEvents_snoc, events_of_answer answered] at member
      rcases List.mem_append.mp member with old | new
      · exact kept.usable event old
      · exact usable event new
    · rw [deliveredEvents_snoc, events_of_answer answered]
      exact counts.events

/-- A transport whose events have a raw JSON text. -/
def Transport.Nonempty (transport : Transport) : Prop :=
  ∀ call request page, transport.fetch call request = .page page →
    ∀ event ∈ page.events, 1 ≤ event.wire.rawLength

theorem length_le_originalBytes {events : List ObservedEvent}
    (nonempty : ∀ event ∈ events, 1 ≤ event.wire.rawLength) :
    events.length ≤ originalBytes events := by
  induction events with
  | nil => exact Nat.le_refl _
  | cons event rest ih =>
      have first := nonempty event (by simp)
      have later := ih fun other member => nonempty other (by simp [member])
      simp only [List.length_cons, originalBytes_cons]
      omega

/-- The loop over the pages of `fetch_reconciliation_source` ends after as many calls as it may
take bytes, and one more. -/
theorem exists_reconciliation (nonempty : transport.Nonempty) (cancellation : Cancellation)
    (limits : AdmissionLimits) (fits : source.maximumBytes < 2 ^ 64 - 1) :
    ∃ exchanges result, Dialogue.run (reconciliationClient transport cancellation limits source)
      transport.fetch (source.maximumBytes + 1) 0 (.empty, none) = some (exchanges, result) := by
  have ended : ∃ talk, Dialogue.run (reconciliationClient transport cancellation limits source)
      transport.fetch (source.maximumBytes + 1) 0 (.empty, none) = some talk := by
    refine Dialogue.exists_run
      (fun state : Tally × Option String =>
        ∃ read, state.1.Counts limits source read state.1.cursors)
      (fun state => source.maximumBytes - state.1.bytes) ?_
      ⟨[], Tally.counts_empty limits source⟩ 0
    rintro call state request next ⟨read, counts⟩ - reaction
    rcases reconciliationClient_goesOn reaction with
      ⟨page, text, tally, answered, -, observed, -, some, -, rfl⟩
    rw [observeEvents_eq_readEvents fits] at observed
    have counts' := ((readEvents_ok counts observed).2 rfl).1
    have before := counts.bytes
    have after := counts'.bytes
    have within := counts'.bytes_le
    rcases answer_page answered with ⟨whole, returned, -, -, events, -⟩
    have heavy : page.events.length ≤ originalBytes page.events := by
      rw [← events]
      exact length_le_originalBytes (nonempty call request whole returned)
    have more := List.length_pos_iff.mpr some
    rw [List.map_append, List.sum_append, ← before] at after
    refine ⟨⟨_, counts'.events, counts'.bytes, rfl, counts'.count_le, counts'.bytes_le⟩, ?_⟩
    simp only [originalBytes] at heavy ⊢
    omega
  rcases ended with ⟨⟨exchanges, result⟩, ended⟩
  exact ⟨exchanges, result, ended⟩

/-- What the loop over the pages of `fetch_reconciliation_source` has accepted when it ends. -/
theorem reconciliation_read (fits : source.maximumBytes < 2 ^ 64 - 1) {fuel : Nat}
    {exchanges : List (PageRequest × Fetched)} {completion : SourceCompletion}
    {events : List AdmittedEvent}
    (ended : Dialogue.run (reconciliationClient transport cancellation limits source)
      transport.fetch fuel 0 (.empty, none) = some (exchanges, .ok (completion, events))) :
    ReconciliationRead transport limits source exchanges completion events := by
  have read := Dialogue.run_spec
    (fun earlier (state : Tally × Option String) =>
      ReconciliationState transport limits source earlier state.1)
    (fun exchanges result => ∀ completion events, result = .ok (completion, events) →
      ReconciliationRead transport limits source exchanges completion events)
    ?_ ?_ ?_ reconciliationState_empty ended
  · exact read completion events rfl
  · rintro call earlier state result kept refused completion events rfl
    simp only [reconciliationClient] at refused
    split at refused
    · cases refused
      exact ⟨kept.counts.count_le, kept.counts.admitted_bytes, nofun⟩
    · split at refused <;> cases refused
  · rintro call earlier state request next kept - reaction
    exact kept.goesOn fits reaction
  · rintro call earlier state request result kept - reaction completion events rfl
    exact kept.ends fits reaction

/-- The last reply decides the loop over the answers of a source that is not cancelled. -/
theorem readPages_ends (fits : source.maximumBytes < 2 ^ 64 - 1) {call : Nat}
    {state : Tally × Option String} {request : PageRequest} {fetched : Fetched}
    {result : Except FetchError (SourceCompletion × List AdmittedEvent)}
    (waits : cancellation.during call = false)
    (reaction : (reconciliationClient transport cancellation limits source).react call state request
      fetched = .inr result) (rest : List Answer) :
    readPages limits source (transport.answer request fetched :: rest) state.1 = result := by
  simp only [reconciliationClient, waits, Bool.false_eq_true, if_false,
    observeEvents_eq_readEvents fits] at reaction
  cases answered : transport.answer request fetched with
  | unsupported | failed | malformed =>
      simp only [answered, Sum.inr.injEq] at reaction
      simp only [readPages, reaction]
  | page page =>
      simp only [answered] at reaction
      rw [readPages]
      cases ended : page.state with
      | unavailable | failedRetryable | failedTerminal | cancelled =>
          simpa only [ended, Sum.inr.injEq] using reaction
      | partly =>
          simp only [ended] at reaction ⊢
          cases read : readEvents limits source page.events state.1 with
          | error error =>
              simp only [read, Sum.inr.injEq] at reaction
              simpa [bind, Except.bind] using reaction
          | ok pair =>
              rcases pair with ⟨limited, tally⟩
              simp only [read] at reaction
              cases limited <;> simpa [bind, Except.bind, pure, Except.pure] using reaction
      | complete =>
          simp only [ended] at reaction ⊢
          cases read : readEvents limits source page.events state.1 with
          | error error =>
              simp only [read, Sum.inr.injEq] at reaction
              simpa [bind, Except.bind] using reaction
          | ok pair =>
              rcases pair with ⟨limited, tally⟩
              simp only [read, reduceCtorEq, if_false] at reaction
              cases limited with
              | true => simpa [bind, Except.bind, pure, Except.pure] using reaction
              | false =>
                  simp only [bind, Except.bind, Bool.false_eq_true, reduceCtorEq, if_false, pure,
                    Except.pure]
                  cases following : page.next with
                  | complete | cancelled => simpa [following] using reaction
                  | cursor text =>
                      simp only [following] at reaction ⊢
                      split at reaction
                      · rename_i stale
                        rw [if_pos stale]
                        simpa using reaction
                      · cases reaction

/-- What an attempt that is not cancelled has accepted is what its loop makes of the answers it was
given. -/
theorem reconciliation_eq_readPages (fits : source.maximumBytes < 2 ^ 64 - 1)
    (admitted : ∀ request, transport.admits request = true)
    (starts : ∀ call, cancellation.before call = false)
    (waits : ∀ call, cancellation.during call = false) {fuel call : Nat}
    {state : Tally × Option String} {exchanges : List (PageRequest × Fetched)}
    {result : Except FetchError (SourceCompletion × List AdmittedEvent)}
    (ended : Dialogue.run (reconciliationClient transport cancellation limits source)
      transport.fetch fuel call state = some (exchanges, result)) :
    readPages limits source (transport.answers exchanges) state.1 = result := by
  induction fuel generalizing call state exchanges with
  | zero => cases ended
  | succ fuel ih =>
      rw [Dialogue.run] at ended
      have asked : (reconciliationClient transport cancellation limits source).request call state =
          .ok ⟨min fetchPageMaxEvents (source.maximumEvents - state.1.events.length + 1),
            state.2⟩ := by
        simp [reconciliationClient, starts, admitted]
      simp only [asked] at ended
      split at ended
      · rename_i final reaction
        simp only [Option.some.injEq, Prod.mk.injEq] at ended
        rcases ended with ⟨rfl, rfl⟩
        exact readPages_ends fits (waits call) reaction []
      · rename_i next reaction
        simp only [Option.map_eq_some_iff, Prod.mk.injEq] at ended
        rcases ended with ⟨⟨rest, last⟩, later, rfl, rfl⟩
        rcases reconciliationClient_goesOn reaction with
          ⟨page, text, tally, answered, complete, observed, following, some, fresh, rfl⟩
        rw [observeEvents_eq_readEvents fits] at observed
        have rest' := ih later
        simp only [Transport.answers, List.map_cons, answered, readPages, complete, observed,
          following, bind, Except.bind, Bool.false_eq_true, reduceCtorEq, if_false,
          if_neg (not_or.mpr ⟨some, fresh⟩)]
        exact rest'

/-- The last part of `fetch_reconciliation_source`: a source that did not finish before its deadline
is cut off there. -/
def concludeSource (plan : ReplayPlan) (request : SourceRequest)
    (started finished : UnixMilliseconds)
    (result : Except FetchError (SourceCompletion × List AdmittedEvent)) :
    Except FetchError SourceReplay := do
  let (completion, events) ← result
  let replay := if request.deadline ≤ finished.get then
      plan.finish request .incompleteTimeout started.get request.deadline events
    else
      plan.finish request completion started.get finished.get events
  replay.mapError .replay

/-- A replay is complete only if the loop over the pages was. -/
theorem concludeSource_complete {plan : ReplayPlan} {request : SourceRequest}
    {started finished : UnixMilliseconds}
    {result : Except FetchError (SourceCompletion × List AdmittedEvent)} {replay : SourceReplay}
    (concluded : concludeSource plan request started finished result = .ok replay)
    (complete : replay.result.outcome = .complete) :
    ∃ events, result = .ok (.complete, events) := by
  simp only [concludeSource, bind_eq_ok, mapError_eq_ok] at concluded
  rcases concluded with ⟨⟨completion, events⟩, rfl, finished⟩
  split at finished
  · have outcome := (finish_spec finished).result.2.1
    rw [complete] at outcome
    cases outcome
  · have outcome := (finish_spec finished).result.2.1
    rw [complete] at outcome
    exact ⟨events, by rw [outcome]⟩

end Reconciliation

section Termination

/-- The loop of `fetch_source` ends within its limits, and is complete only if every event of every
page was taken from complete pages. -/
def IngestEnds (transport : Transport) (source : ConfiguredSource) : Prop :=
  ∃ exchanges result, Dialogue.run (ingestClient transport source) transport.fetch
    (source.maximumEvents + 1) 0 (.nothing, none) = some (exchanges, result) ∧
  ∀ completion received, result = .ok (completion, received) →
    received.candidates.length ≤ source.maximumEvents ∧
    (received.candidates.map (·.rawLength)).sum ≤ source.maximumBytes ∧
    (completion = .complete → FullyRead transport exchanges ∧
      received.candidates = (deliveredEvents exchanges).map (·.wire)) ∧
    ∀ attempt trade,
      (fetchSource source attempt trade (transport.answers exchanges)).completion = completion ∧
      received.candidates.length =
        (fetchSource source attempt trade (transport.answers exchanges)).admitted.length +
        (fetchSource source attempt trade (transport.answers exchanges)).rejectedEvents +
        (fetchSource source attempt trade (transport.answers exchanges)).duplicateEvents

/-- The loop of `fetch_reconciliation_source` ends within its limits, and is complete only if every
event of every page was looked at for admission, on complete pages. -/
def ReconciliationEnds (transport : Transport) (cancellation : Cancellation)
    (limits : AdmissionLimits) (request : SourceRequest) : Prop :=
  ∃ exchanges result, Dialogue.run (reconciliationClient transport cancellation limits request)
    transport.fetch (request.maximumBytes + 1) 0 (.empty, none) = some (exchanges, result) ∧
  (∀ completion events, result = .ok (completion, events) →
    events.length ≤ request.maximumEvents ∧
    (events.map (·.rawLength)).sum ≤ request.maximumBytes ∧
    (completion = .complete → FullyRead transport exchanges ∧
      (∀ event ∈ deliveredEvents exchanges, event.Usable) ∧
      events = (deliveredEvents exchanges).filterMap (·.counted limits request))) ∧
  ∀ plan started finished replay, concludeSource plan request started finished result = .ok replay →
    replay.result.outcome = .complete → FullyRead transport exchanges

theorem ingest_ends (transport : Transport) (source : ConfiguredSource) :
    IngestEnds transport source := by
  rcases exists_ingest transport source with ⟨exchanges, result, ended⟩
  refine ⟨exchanges, result, ended, ?_⟩
  rintro completion received rfl
  have read := ingest_read ended
  have same := ingest_eq_receivePages ended
  rcases read.limited with ⟨taken, holds⟩
  refine ⟨?_, ?_, ?_, ?_⟩
  · rw [holds.candidates, List.length_map]
    exact holds.count_le
  · rw [holds.candidates, List.map_map]
    exact holds.bytes_le
  · intro complete
    rcases read.complete complete with ⟨full, whole⟩
    exact ⟨full, whole.candidates⟩
  · intro attempt trade
    have balanced := fetchSource_balanced source attempt trade (transport.answers exchanges)
    rw [same] at balanced
    refine ⟨?_, balanced⟩
    simp only [fetchSource, same]

theorem reconciliation_ends {transport : Transport} (nonempty : transport.Nonempty)
    (cancellation : Cancellation) (limits : AdmissionLimits) {request : SourceRequest}
    (fits : request.maximumBytes < 2 ^ 64 - 1) :
    ReconciliationEnds transport cancellation limits request := by
  rcases exists_reconciliation nonempty cancellation limits fits with ⟨exchanges, result, ended⟩
  refine ⟨exchanges, result, ended, ?_, ?_⟩
  · rintro completion events rfl
    have read := reconciliation_read fits ended
    exact ⟨read.count_le, read.bytes_le, read.complete⟩
  · intro plan started finished replay concluded complete
    rcases concludeSource_complete concluded complete with ⟨events, rfl⟩
    exact ((reconciliation_read fits ended).complete rfl).1

/-- Both loops end for every transport, keep their limits, and are complete only if everything the
source has was read. -/
theorem paged_fetch_ends [Sha256] {transport : Transport} (nonempty : transport.Nonempty)
    (source : ConfiguredSource) (cancellation : Cancellation) {lease : Lease}
    {configuration : Configuration} {startedAt : UnixMilliseconds} {plan : AttemptPlan}
    (planned : AttemptPlan.fromClaim lease configuration startedAt = .ok plan) :
    IngestEnds transport source ∧ ∀ request ∈ plan.requests,
      ReconciliationEnds transport cancellation configuration.limits request := by
  refine ⟨ingest_ends transport source, ?_⟩
  intro request requested
  have made := List.forall₂_iff_get.mp (fromClaim_spec planned).requests
  rcases List.getElem_of_mem requested with ⟨index, bound, rfl⟩
  have bytes := (made.2 index bound (made.1 ▸ bound)).bytes
  rw [List.get_eq_getElem] at bytes
  refine reconciliation_ends nonempty cancellation configuration.limits ?_
  rw [bytes]
  decide

end Termination

section Exceptions

namespace Sample.Paging

local instance : Sha256 := ⟨Hashing.sha256⟩

/-- A relay that always has one more event of a byte, and a cursor it never used before. -/
def endless : Transport where
  fingerprint := "relay"
  admits _ := true
  validates _ _ := true
  fetch call _ := .page {
    targetOutcomes := [("relay", .complete)]
    events := [Accounting.forged 1]
    nextPage := .cursor (toString call) }

theorem endless_nonempty : endless.Nonempty := by
  intro call request page returned event member
  cases returned
  rw [List.mem_singleton.mp member]
  decide

/-- Neither loop reads forever from an endless relay. -/
theorem endless_ends :
    IngestEnds endless Accounting.source ∧ ∀ request ∈ plan.requests,
      ReconciliationEnds endless ⟨fun _ => false, fun _ => false⟩ configuration.limits request :=
  paged_fetch_ends endless_nonempty Accounting.source _ fromClaim_plan

end Sample.Paging

end Exceptions

end Rhi
