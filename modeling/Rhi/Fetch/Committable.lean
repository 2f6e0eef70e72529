import Rhi.Attempt.Effects
import Rhi.Fetch
import Rhi.Service.Finalizations

/-!
# Which visits yield a committable replay

The loop over the pages is described by what it reaches: it goes on past a full page with a new
cursor, as long as the limits leave room for every event it reads.  A visit then yields a replay
exactly when it starts before its deadline, is not cancelled by the relay earlier than that, and,
where it is cut off at the deadline, keeps no event observed after it.
-/

namespace Rhi

open Relational Transactional

section Reaching

variable (limits : AdmissionLimits) (request : SourceRequest)

/-- The event a delivered one is counted as, if its observation time is usable. -/
def ObservedEvent.counted (event : ObservedEvent) : Option AdmittedEvent :=
  (ObservedAt.new (event.observedMs / 1000)).bind fun observedAt =>
    admitObserved limits request.tradeId observedAt event.wire

/-- The limits leave room for one more event after those read so far. -/
def RoomFor (read : List ObservedEvent) (event : ObservedEvent) : Prop :=
  (read.filterMap (·.counted limits request)).length < request.maximumEvents ∧
    (read.map (·.wire.rawLength)).sum + event.wire.rawLength ≤ request.maximumBytes

/-- The limits leave room for all events of a page. -/
def Fits (read : List ObservedEvent) : List ObservedEvent → Prop
  | [] => True
  | event :: rest => RoomFor limits request read event ∧ Fits (read ++ [event]) rest

/-- An event of a page that is read before a limit ends the source. -/
def ReadsOf (read : List ObservedEvent) : List ObservedEvent → ObservedEvent → Prop
  | [], _ => False
  | first :: rest, event =>
      RoomFor limits request read first ∧ (event = first ∨ ReadsOf (read ++ [first]) rest event)

/-- A full page with a cursor not seen before. -/
structure Continues (read : List ObservedEvent) (cursors : List String) (page : Page)
    (text : String) : Prop where
  state : page.state = .complete
  fits : Fits limits request read page.events
  nonempty : page.events ≠ []
  next : page.next = .cursor text
  fresh : text ∉ cursors

/-- Some answer the source is asked for has a property, given the events read before it. -/
def Reaches (property : List ObservedEvent → Answer → Prop) :
    List ObservedEvent → List String → List Answer → Prop
  | _, _, [] => False
  | read, cursors, answer :: rest =>
      property read answer ∨ ∃ page text, answer = .page page ∧
        Continues limits request read cursors page text ∧
        Reaches property (read ++ page.events) (text :: cursors) rest

/-- The relay cancels the request, or its remaining pages. -/
def Answer.Cancels (read : List ObservedEvent) (answer : Answer) : Prop :=
  ∃ page, answer = .page page ∧ (page.state = .cancelled ∨
    (page.state = .complete ∧ Fits limits request read page.events ∧ page.next = .cancelled))

/-- The events of an answer are read up to a given one. -/
def Answer.Reads (event : ObservedEvent) (read : List ObservedEvent) (answer : Answer) : Prop :=
  ∃ page, answer = .page page ∧ (page.state = .complete ∨ page.state = .partly) ∧
    ReadsOf limits request read page.events event

/-- The relay cancels the visit before anything else ends it. -/
def Visit.Cancelled (visit : Visit) : Prop :=
  Reaches limits request (Answer.Cancels limits request) [] [] visit.answers

/-- The visit reads an event. -/
def Visit.Reads (visit : Visit) (event : ObservedEvent) : Prop :=
  Reaches limits request (Answer.Reads limits request event) [] [] visit.answers

/-- The relay turns out not to support the request. -/
def Visit.Unsupported (visit : Visit) : Prop :=
  Reaches limits request (fun _ answer => answer = .unsupported) [] [] visit.answers

/-- What a visit must meet to yield a replay. -/
structure Visit.Committable (visit : Visit) : Prop where
  started : visit.started.get < request.deadline
  observed : ∀ event, visit.Reads limits request event → 1000 ≤ event.observedMs
  cancelled : visit.Cancelled limits request → request.deadline ≤ visit.finished.get
  late : request.deadline ≤ visit.finished.get → ¬visit.Unsupported limits request →
    ∀ event, visit.Reads limits request event → ∀ admitted ∈ event.counted limits request,
      admitted.observedAt.get * 1000 ≤ request.deadline

end Reaching

section Tallies

variable {limits : AdmissionLimits} {request : SourceRequest}

/-- The tally agrees with the events read so far. -/
structure Tally.Counts (limits : AdmissionLimits) (request : SourceRequest)
    (read : List ObservedEvent) (cursors : List String) (tally : Tally) : Prop where
  events : tally.events = read.filterMap (·.counted limits request)
  bytes : tally.bytes = (read.map (·.wire.rawLength)).sum
  seen : tally.cursors = cursors
  count_le : tally.events.length ≤ request.maximumEvents
  bytes_le : tally.bytes ≤ request.maximumBytes

/-- Whether the observation time of an event can be bound at all. -/
def ObservedEvent.Usable (event : ObservedEvent) : Prop :=
  1 ≤ event.observedMs / 1000 ∧ event.observedMs / 1000 ≤ maxInteger

theorem ObservedAt.new_of_usable {event : ObservedEvent} (usable : event.Usable) :
    ObservedAt.new (event.observedMs / 1000) =
      some ⟨event.observedMs / 1000, usable.1, usable.2⟩ :=
  dif_pos usable

theorem ObservedAt.new_of_unusable {event : ObservedEvent} (unusable : ¬event.Usable) :
    ObservedAt.new (event.observedMs / 1000) = none :=
  dif_neg unusable

theorem roomFor_iff {read : List ObservedEvent} {cursors : List String} {tally : Tally}
    (counts : tally.Counts limits request read cursors) (event : ObservedEvent) :
    RoomFor limits request read event ↔ ¬(request.maximumEvents ≤ tally.events.length ∨
      request.maximumBytes < tally.bytes + event.wire.rawLength) := by
  rw [RoomFor, ← counts.events, ← counts.bytes]
  omega

/-- Reading one event keeps the tally in agreement. -/
theorem Tally.Counts.snoc {read : List ObservedEvent} {cursors : List String} {tally : Tally}
    (counts : tally.Counts limits request read cursors) {event : ObservedEvent}
    (room : RoomFor limits request read event) {observedAt : ObservedAt}
    (observed : ObservedAt.new (event.observedMs / 1000) = some observedAt) :
    ({ tally with
      events := tally.events ++
        (admitObserved limits request.tradeId observedAt event.wire).toList
      bytes := tally.bytes + event.wire.rawLength } : Tally).Counts limits request
        (read ++ [event]) cursors := by
  have counted : event.counted limits request =
      admitObserved limits request.tradeId observedAt event.wire := by
    simp [ObservedEvent.counted, observed]
  rcases room with ⟨few, small⟩
  rw [← counts.events] at few
  rw [← counts.bytes] at small
  refine {
    events := ?_
    bytes := by simp [counts.bytes]
    seen := counts.seen
    count_le := ?_
    bytes_le := small }
  · rw [List.filterMap_append, ← counts.events]
    simp only [List.filterMap_cons, List.filterMap_nil, counted]
    cases admitObserved limits request.tradeId observedAt event.wire <;> rfl
  · simp only [List.length_append]
    cases admitObserved limits request.tradeId observedAt event.wire with
    | none => simpa using few.le
    | some admitted =>
        simp only [Option.toList_some, List.length_singleton]
        omega

/-- The loop over the events of a page, when every event it reads has a usable time. -/
theorem readEvents_of_usable {read : List ObservedEvent} {cursors : List String} {tally : Tally}
    {events : List ObservedEvent} (counts : tally.Counts limits request read cursors)
    (usable : ∀ event, ReadsOf limits request read events event → event.Usable) :
    ∃ limited next, readEvents limits request events tally = .ok (limited, next) ∧
      (limited = false ↔ Fits limits request read events) ∧
      (Fits limits request read events → next.Counts limits request (read ++ events) cursors) ∧
      ∃ consumed, next.Counts limits request (read ++ consumed) cursors ∧
        ∀ event, ReadsOf limits request read events event ↔ event ∈ consumed := by
  induction events generalizing read tally with
  | nil =>
      exact ⟨false, tally, rfl, by simp [Fits], fun _ => by simpa using counts, [],
        by simpa using counts, by simp [ReadsOf]⟩
  | cons event rest ih =>
      by_cases room : RoomFor limits request read event
      · have timed := usable event ⟨room, .inl rfl⟩
        have next := counts.snoc room (ObservedAt.new_of_usable timed)
        rcases ih next (fun other reads => usable other ⟨room, .inr reads⟩) with
          ⟨limited, final, done, limitIff, fitted, consumed, finalCounts, readIff⟩
        refine ⟨limited, final, ?_, ?_, ?_, event :: consumed, ?_, ?_⟩
        · rw [readEvents, if_neg ((roomFor_iff counts event).mp room)]
          simp only [ObservedAt.new_of_usable timed, orError, bind, Except.bind]
          exact done
        · rw [limitIff]
          simp [Fits, room]
        · intro fits
          simpa using fitted fits.2
        · simpa using finalCounts
        · intro other
          simp only [ReadsOf, room, true_and, List.mem_cons, readIff]
      · refine ⟨true, tally, ?_, ?_, ?_, [], by simpa using counts, ?_⟩
        · rw [readEvents, if_pos (not_not.mp (mt (roomFor_iff counts event).mpr room))]
        · simp [Fits, room]
        · intro fits
          exact absurd fits.1 room
        · intro other
          simp [ReadsOf, room]

theorem readEvents_of_unusable {read : List ObservedEvent} {cursors : List String} {tally : Tally}
    {events : List ObservedEvent} (counts : tally.Counts limits request read cursors)
    (unusable : ∃ event, ReadsOf limits request read events event ∧ ¬event.Usable) :
    readEvents limits request events tally = .error .observation := by
  induction events generalizing read tally with
  | nil =>
      rcases unusable with ⟨event, reads, -⟩
      cases reads
  | cons first rest ih =>
      rcases unusable with ⟨event, ⟨room, reads⟩, bad⟩
      rw [readEvents, if_neg ((roomFor_iff counts first).mp room)]
      by_cases timed : first.Usable
      · simp only [ObservedAt.new_of_usable timed, orError, bind, Except.bind]
        rcases reads with rfl | later
        · exact absurd timed bad
        · exact ih (counts.snoc room (ObservedAt.new_of_usable timed)) ⟨event, later, bad⟩
      · simp [ObservedAt.new_of_unusable timed, orError, bind, Except.bind]

/-- An admitted event was verified. -/
theorem admitTradeMutationEvent_spec {limits : AdmissionLimits} {observedAt : ObservedAt}
    {maximumFuture : Nat} {wire : WireEvent} {admitted : AdmittedEvent}
    (admittedBy : admitTradeMutationEvent limits observedAt maximumFuture wire = some admitted) :
    wire.verified = some admitted.event ∧ admitted.observedAt = observedAt ∧
      admitted.rawLength = wire.rawLength := by
  unfold admitTradeMutationEvent at admittedBy
  split at admittedBy
  · cases admittedBy
  · rename_i verified found
    split at admittedBy
    · cases admittedBy
      exact ⟨found, rfl, rfl⟩
    · cases admittedBy

theorem counted_spec {event : ObservedEvent} {admitted : AdmittedEvent}
    (counted : event.counted limits request = some admitted) :
    admitted.observedAt.get = event.observedMs / 1000 ∧
      event.wire.verified = some admitted.event ∧ admitted.event.tradeId = request.tradeId ∧
      admitted.rawLength = event.wire.rawLength := by
  simp only [ObservedEvent.counted, Option.bind_eq_some_iff, admitObserved,
    Option.filter_eq_some_iff, beq_iff_eq] at counted
  rcases counted with ⟨observedAt, observed, admittedBy, sameTrade⟩
  rcases admitTradeMutationEvent_spec admittedBy with ⟨found, sameInstant, sameLength⟩
  refine ⟨?_, found, sameTrade, sameLength⟩
  rw [sameInstant]
  unfold ObservedAt.new at observed
  split at observed
  · cases observed
    rfl
  · cases observed

theorem readsOf_iff_of_fits {read events : List ObservedEvent} {event : ObservedEvent}
    (fits : Fits limits request read events) :
    ReadsOf limits request read events event ↔ event ∈ events := by
  induction events generalizing read with
  | nil => simp [ReadsOf]
  | cons first rest ih => simp [ReadsOf, fits.1, ih fits.2]

/-- The admitted events of a tally are no larger than what was read. -/
theorem Tally.Counts.admitted_bytes {read : List ObservedEvent} {cursors : List String}
    {tally : Tally} (counts : tally.Counts limits request read cursors) :
    (tally.events.map (·.rawLength)).sum ≤ request.maximumBytes := by
  have smaller : ∀ events : List ObservedEvent,
      ((events.filterMap (·.counted limits request)).map (·.rawLength)).sum ≤
        (events.map (·.wire.rawLength)).sum := by
    intro events
    induction events with
    | nil => simp
    | cons event rest ih =>
        cases counted : event.counted limits request with
        | none =>
            simp only [List.filterMap_cons, counted, List.map_cons, List.sum_cons]
            omega
        | some admitted =>
            have same := (counted_spec counted).2.2.2
            simp only [List.filterMap_cons, counted, List.map_cons, List.sum_cons]
            omega
  have total := smaller read
  rw [← counts.events, ← counts.bytes] at total
  exact total.trans counts.bytes_le

end Tallies

section Pages

variable {limits : AdmissionLimits} {request : SourceRequest}

theorem reaches_of_stops {property : List ObservedEvent → Answer → Prop}
    {read : List ObservedEvent} {cursors : List String} {answer : Answer} {rest : List Answer}
    (stops : ∀ page text, answer = .page page →
      ¬Continues limits request read cursors page text) :
    Reaches limits request property read cursors (answer :: rest) ↔ property read answer := by
  constructor
  · rintro (now | ⟨page, text, isPage, continues, -⟩)
    · exact now
    · exact absurd continues (stops page text isPage)
  · exact .inl

theorem reaches_of_continues {property : List ObservedEvent → Answer → Prop}
    {read : List ObservedEvent} {cursors : List String} {page : Page} {text : String}
    {rest : List Answer} (continues : Continues limits request read cursors page text) :
    Reaches limits request property read cursors (.page page :: rest) ↔
      property read (.page page) ∨
        Reaches limits request property (read ++ page.events) (text :: cursors) rest := by
  constructor
  · rintro (now | ⟨other, name, isPage, goesOn, later⟩)
    · exact .inl now
    · cases isPage
      have same : text = name := by
        have next := goesOn.next
        rw [continues.next] at next
        cases next
        rfl
      rw [same]
      exact .inr later
  · rintro (now | later)
    · exact .inl now
    · exact .inr ⟨page, text, rfl, continues, later⟩

/-- The class a source ends in, and the events it keeps. -/
structure PagesRead (limits : AdmissionLimits) (request : SourceRequest)
    (read : List ObservedEvent) (cursors : List String) (answers : List Answer)
    (completion : SourceCompletion) (events : List AdmittedEvent) : Prop where
  timeout : completion = .incompleteTimeout ↔
    Reaches limits request (Answer.Cancels limits request) read cursors answers
  unsupported : completion = .unsupported ↔
    Reaches limits request (fun _ answer => answer = .unsupported) read cursors answers
  cleared : completion = .unsupported → events = []
  kept : completion ≠ .unsupported → ∃ consumed seen, ∃ final : Tally,
    final.Counts limits request (read ++ consumed) seen ∧ events = final.events ∧
      ∀ event, Reaches limits request (Answer.Reads limits request event) read cursors answers ↔
        event ∈ consumed

/-- A source that an answer ends at once keeps what was read before. -/
theorem PagesRead.of_stop {read : List ObservedEvent} {cursors : List String} {tally : Tally}
    {answer : Answer} {rest : List Answer} {completion : SourceCompletion}
    (counts : tally.Counts limits request read cursors)
    (stops : ∀ page text, answer = .page page →
      ¬Continues limits request read cursors page text)
    (timeout : completion = .incompleteTimeout ↔ answer.Cancels limits request read)
    (unread : ∀ event, ¬answer.Reads limits request event read)
    (supported : answer ≠ .unsupported) (class_ : completion ≠ .unsupported) :
    PagesRead limits request read cursors (answer :: rest) completion tally.events where
  timeout := by rw [reaches_of_stops stops, timeout]
  unsupported := by
    rw [reaches_of_stops stops]
    exact ⟨fun same => absurd same class_, fun same => absurd same supported⟩
  cleared same := absurd same class_
  kept _ := ⟨[], cursors, tally, by simpa using counts, rfl, fun event => by
    rw [reaches_of_stops stops]
    simp [unread event]⟩

/-- A source that ends with a page keeps what was read of it as well. -/
theorem PagesRead.of_page {read consumed : List ObservedEvent} {cursors : List String}
    {final : Tally} {page : Page} {rest : List Answer} {completion : SourceCompletion}
    (counts : final.Counts limits request (read ++ consumed) cursors)
    (readIff : ∀ event, ReadsOf limits request read page.events event ↔ event ∈ consumed)
    (readable : page.state = .complete ∨ page.state = .partly)
    (stops : ∀ text, ¬Continues limits request read cursors page text)
    (timeout : completion = .incompleteTimeout ↔ page.state = .complete ∧
      Fits limits request read page.events ∧ page.next = .cancelled)
    (class_ : completion ≠ .unsupported) :
    PagesRead limits request read cursors (.page page :: rest) completion final.events := by
  have stopped : ∀ other text, Answer.page page = .page other →
      ¬Continues limits request read cursors other text := by
    intro other text same
    cases same
    exact stops text
  refine ⟨?_, ?_, fun same => absurd same class_, fun _ => ⟨consumed, cursors, final, counts, rfl,
    ?_⟩⟩
  · rw [reaches_of_stops stopped, timeout]
    constructor
    · intro cancelled
      exact ⟨page, rfl, .inr cancelled⟩
    · rintro ⟨other, same, cancelled⟩
      cases same
      rcases cancelled with cancelled | cancelled
      · rcases readable with full | part
        · rw [full] at cancelled
          cases cancelled
        · rw [part] at cancelled
          cases cancelled
      · exact cancelled
  · rw [reaches_of_stops stopped]
    exact ⟨fun same => absurd same class_, fun same => by cases same⟩
  · intro event
    rw [reaches_of_stops stopped, ← readIff]
    constructor
    · rintro ⟨other, same, -, reads⟩
      cases same
      exact reads
    · intro reads
      exact ⟨page, rfl, readable, reads⟩

/-- The pages of a source go on after a continuing page. -/
theorem PagesRead.of_continues {read : List ObservedEvent} {cursors : List String} {page : Page}
    {text : String} {rest : List Answer} {completion : SourceCompletion}
    {events : List AdmittedEvent}
    (continues : Continues limits request read cursors page text)
    (later : PagesRead limits request (read ++ page.events) (text :: cursors) rest completion
      events) :
    PagesRead limits request read cursors (.page page :: rest) completion events := by
  have full := continues.state
  have next := continues.next
  refine ⟨?_, ?_, later.cleared, ?_⟩
  · rw [reaches_of_continues continues, later.timeout]
    have goesOn : ¬Answer.Cancels limits request read (.page page) := by
      rintro ⟨other, same, cancelled | ⟨-, -, cancelled⟩⟩
      · cases same
        rw [full] at cancelled
        cases cancelled
      · cases same
        rw [next] at cancelled
        cases cancelled
    exact ⟨.inr, fun either => either.resolve_left goesOn⟩
  · rw [reaches_of_continues continues, later.unsupported]
    exact ⟨.inr, fun either => either.resolve_left (by simp)⟩
  · intro supported
    rcases later.kept supported with ⟨consumed, seen, final, counts, same, readIff⟩
    refine ⟨page.events ++ consumed, seen, final, by simpa using counts, same, ?_⟩
    intro event
    rw [reaches_of_continues continues, readIff, List.mem_append]
    have here : Answer.Reads limits request event read (.page page) ↔ event ∈ page.events := by
      rw [← readsOf_iff_of_fits continues.fits]
      constructor
      · rintro ⟨other, samePage, -, reads⟩
        cases samePage
        exact reads
      · intro reads
        exact ⟨page, rfl, .inl full, reads⟩
    rw [here]

/-- A page whose target reports no events ends the source at once. -/
theorem readPages_refused {read : List ObservedEvent} {cursors : List String} {tally : Tally}
    {page : Page} (rest : List Answer) (counts : tally.Counts limits request read cursors)
    (notFull : page.state ≠ .complete) (notPart : page.state ≠ .partly) :
    ∃ completion, readPages limits request (.page page :: rest) tally =
        .ok (completion, tally.events) ∧
      PagesRead limits request read cursors (.page page :: rest) completion tally.events := by
  have stops : ∀ other text, Answer.page page = .page other →
      ¬Continues limits request read cursors other text := by
    intro other text same continues
    cases same
    exact notFull continues.state
  have unread : ∀ event, ¬Answer.Reads limits request event read (.page page) := by
    rintro event ⟨other, same, readable, -⟩
    cases same
    exact readable.elim notFull notPart
  have cancels : Answer.Cancels limits request read (.page page) ↔ page.state = .cancelled := by
    constructor
    · rintro ⟨other, same, cancelled | ⟨full, -⟩⟩
      · cases same
        exact cancelled
      · cases same
        exact absurd full notFull
    · intro cancelled
      exact ⟨page, rfl, .inl cancelled⟩
  cases state : page.state with
  | complete => exact absurd state notFull
  | partly => exact absurd state notPart
  | unavailable =>
      exact ⟨.incompleteUnavailable, by simp [readPages, state],
        .of_stop counts stops (by simp [cancels, state]) unread (by simp) (by simp)⟩
  | failedRetryable =>
      exact ⟨.incompleteUnavailable, by simp [readPages, state],
        .of_stop counts stops (by simp [cancels, state]) unread (by simp) (by simp)⟩
  | cancelled =>
      exact ⟨.incompleteTimeout, by simp [readPages, state],
        .of_stop counts stops (by simp [cancels, state]) unread (by simp) (by simp)⟩
  | failedTerminal =>
      exact ⟨.incompleteUnknown, by simp [readPages, state],
        .of_stop counts stops (by simp [cancels, state]) unread (by simp) (by simp)⟩

/-- What the loop makes of a page whose events are read. -/
theorem readPages_of_readEvents {tally final : Tally} {page : Page} {limited : Bool}
    (rest : List Answer) (readable : page.state = .complete ∨ page.state = .partly)
    (done : readEvents limits request page.events tally = .ok (limited, final)) :
    readPages limits request (.page page :: rest) tally =
      if limited then .ok (.incompleteResourceLimit, final.events)
      else if page.state = .partly then .ok (.incompleteUnknown, final.events)
      else match page.next with
        | .complete => .ok (.complete, final.events)
        | .cancelled => .ok (.incompleteTimeout, final.events)
        | .cursor text =>
            if page.events = [] ∨ text ∈ final.cursors then .ok (.incompleteUnknown, final.events)
            else readPages limits request rest { final with cursors := text :: final.cursors } := by
  rcases page with ⟨state, events, next⟩
  rcases readable with rfl | rfl
  · rw [readPages, done]
    rfl
  · rw [readPages, done]
    rfl

/-- A page whose events are read ends the source, or the loop goes on behind it. -/
theorem readPages_read {read : List ObservedEvent} {cursors : List String} {tally : Tally}
    {page : Page} (rest : List Answer) (counts : tally.Counts limits request read cursors)
    (readable : page.state = .complete ∨ page.state = .partly)
    (usable : ∀ event, ReadsOf limits request read page.events event → event.Usable) :
    ((∀ text, ¬Continues limits request read cursors page text) ∧
      ∃ completion events, readPages limits request (.page page :: rest) tally =
          .ok (completion, events) ∧
        PagesRead limits request read cursors (.page page :: rest) completion events) ∨
    ∃ text next, Continues limits request read cursors page text ∧
      next.Counts limits request (read ++ page.events) (text :: cursors) ∧
      readPages limits request (.page page :: rest) tally = readPages limits request rest next := by
  rcases readEvents_of_usable counts usable with
    ⟨limited, final, done, limitIff, fitted, consumed, finalCounts, readIff⟩
  have step := readPages_of_readEvents rest readable done
  cases limited with
  | true =>
      have crowded : ¬Fits limits request read page.events := by simpa using limitIff
      have halts : ∀ text, ¬Continues limits request read cursors page text :=
        fun text continues => crowded continues.fits
      exact .inl ⟨halts, .incompleteResourceLimit, final.events, by simpa using step,
        .of_page finalCounts readIff readable halts (by simp [crowded]) (by simp)⟩
  | false =>
      have fits : Fits limits request read page.events := limitIff.mp rfl
      simp only [Bool.false_eq_true, if_false] at step
      rcases readable with full | part
      · have whole : page.state ≠ .partly := by simp [full]
        rw [if_neg whole] at step
        cases next : page.next with
        | complete =>
            simp only [next] at step
            have halts : ∀ text, ¬Continues limits request read cursors page text := by
              intro text continues
              rw [continues.next] at next
              cases next
            exact .inl ⟨halts, _, _, step,
              .of_page finalCounts readIff (.inl full) halts (by simp [next]) (by simp)⟩
        | cancelled =>
            simp only [next] at step
            have halts : ∀ text, ¬Continues limits request read cursors page text := by
              intro text continues
              rw [continues.next] at next
              cases next
            exact .inl ⟨halts, _, _, step,
              .of_page finalCounts readIff (.inl full) halts (by simp [next, full, fits]) (by simp)⟩
        | cursor text =>
            simp only [next, finalCounts.seen] at step
            by_cases repeated : page.events = [] ∨ text ∈ cursors
            · rw [if_pos repeated] at step
              have halts : ∀ other, ¬Continues limits request read cursors page other := by
                intro other continues
                have same := continues.next
                rw [next] at same
                cases same
                exact repeated.elim continues.nonempty continues.fresh
              exact .inl ⟨halts, _, _, step,
                .of_page finalCounts readIff (.inl full) halts (by simp [next]) (by simp)⟩
            · rw [if_neg repeated] at step
              have fresh := not_or.mp repeated
              have counted := fitted fits
              exact .inr ⟨text, ⟨final.events, final.bytes, text :: cursors⟩,
                ⟨full, fits, fresh.1, next, fresh.2⟩,
                ⟨counted.events, counted.bytes, rfl, counted.count_le, counted.bytes_le⟩, step⟩
      · rw [if_pos part] at step
        have halts : ∀ text, ¬Continues limits request read cursors page text := by
          intro text continues
          rw [continues.state] at part
          cases part
        exact .inl ⟨halts, _, _, step,
          .of_page finalCounts readIff (.inr part) halts (by simp [part]) (by simp)⟩

/-- The loop over the pages, when every event it reads has a usable time. -/
theorem readPages_of_usable {read : List ObservedEvent} {cursors : List String} {tally : Tally}
    {answers : List Answer} (counts : tally.Counts limits request read cursors)
    (usable : ∀ event, Reaches limits request (Answer.Reads limits request event) read cursors
      answers → event.Usable) :
    ∃ completion events, readPages limits request answers tally = .ok (completion, events) ∧
      PagesRead limits request read cursors answers completion events := by
  induction answers generalizing read cursors tally with
  | nil =>
      refine ⟨_, _, rfl, ?_⟩
      exact ⟨by simp [Reaches], by simp [Reaches], by simp,
        fun _ => ⟨[], cursors, tally, by simpa using counts, rfl, by simp [Reaches]⟩⟩
  | cons answer rest ih =>
      cases answer with
      | unsupported =>
          have stops : ∀ page text, Answer.unsupported = .page page →
              ¬Continues limits request read cursors page text := by simp
          refine ⟨_, _, rfl, ?_, ?_, fun _ => rfl, fun supported => absurd rfl supported⟩
          · rw [reaches_of_stops stops]
            simp [Answer.Cancels]
          · rw [reaches_of_stops stops]
            simp
      | failed =>
          exact ⟨_, _, rfl, .of_stop counts (by simp) (by simp [Answer.Cancels])
            (by simp [Answer.Reads]) (by simp) (by simp)⟩
      | malformed =>
          exact ⟨_, _, rfl, .of_stop counts (by simp) (by simp [Answer.Cancels])
            (by simp [Answer.Reads]) (by simp) (by simp)⟩
      | page page =>
          by_cases readable : page.state = .complete ∨ page.state = .partly
          · rcases readPages_read rest counts readable (fun event reads =>
              usable event (.inl ⟨page, rfl, readable, reads⟩)) with
              ⟨-, ended⟩ | ⟨text, next, continues, nextCounts, step⟩
            · exact ended
            · rcases ih nextCounts (fun event reads =>
                usable event ((reaches_of_continues continues).mpr (.inr reads))) with
                ⟨completion, events, done, later⟩
              exact ⟨completion, events, step.trans done, .of_continues continues later⟩
          · have neither := not_or.mp readable
            rcases readPages_refused rest counts neither.1 neither.2 with
              ⟨completion, done, ended⟩
            exact ⟨completion, _, done, ended⟩

/-- An unusable observation time fails the visit. -/
theorem readPages_of_unusable {read : List ObservedEvent} {cursors : List String} {tally : Tally}
    {answers : List Answer} (counts : tally.Counts limits request read cursors)
    (unusable : ∃ event, Reaches limits request (Answer.Reads limits request event) read cursors
      answers ∧ ¬event.Usable) :
    readPages limits request answers tally = .error .observation := by
  induction answers generalizing read cursors tally with
  | nil =>
      rcases unusable with ⟨event, reads, -⟩
      cases reads
  | cons answer rest ih =>
      rcases unusable with ⟨event, reads, bad⟩
      -- only a page can be read, or be passed on the way to one
      have isPage : ∃ page, answer = .page page ∧
          (page.state = .complete ∨ page.state = .partly) := by
        rcases reads with ⟨page, same, readable, -⟩ | ⟨page, text, same, continues, -⟩
        · exact ⟨page, same, readable⟩
        · exact ⟨page, same, .inl continues.state⟩
      rcases isPage with ⟨page, rfl, readable⟩
      by_cases here : ∃ other, ReadsOf limits request read page.events other ∧ ¬other.Usable
      · have failed := readEvents_of_unusable counts here
        rcases readable with state | state
        · simp only [readPages, state, failed, bind, Except.bind]
        · simp only [readPages, state, failed, bind, Except.bind]
      · have usable : ∀ other, ReadsOf limits request read page.events other → other.Usable := by
          intro other otherReads
          by_contra unusable
          exact here ⟨other, otherReads, unusable⟩
        rcases readPages_read rest counts readable usable with
          ⟨halts, -⟩ | ⟨text, next, continues, nextCounts, step⟩
        · rw [reaches_of_stops fun other text same => by cases same; exact halts text] at reads
          rcases reads with ⟨other, same, -, now⟩
          cases same
          exact absurd (usable event now) bad
        · rcases (reaches_of_continues continues).mp reads with ⟨other, same, -, now⟩ | later
          · cases same
            exact absurd (usable event now) bad
          · exact step.trans (ih nextCounts ⟨event, later, bad⟩)

end Pages

section Visits

variable {configuration : Configuration} {request : SourceRequest} {plan : ReplayPlan}
  {visit : Visit}

/-- What the transport promises of a visit: it observes the events it delivers between the two
readings of the clock, and delivers what verification accepts. -/
structure Visit.Conforms (visit : Visit) (verification : Verification)
    (limits : AdmissionLimits) (request : SourceRequest) : Prop where
  ordered : visit.started.get ≤ visit.finished.get
  observed : ∀ event, visit.Reads limits request event →
    visit.started.get / 1000 ≤ event.observedMs / 1000 ∧
      event.observedMs / 1000 ≤ visit.finished.get / 1000
  verified : ∀ event, visit.Reads limits request event → ∀ verified ∈ event.wire.verified,
    verification.accepts verified

/-- What the pages of a visit hand over to its replay. -/
theorem PagesRead.events_spec {completion : SourceCompletion} {events : List AdmittedEvent}
    {limits : AdmissionLimits}
    (pages : PagesRead limits request [] [] visit.answers completion events) :
    events.length ≤ request.maximumEvents ∧
      (events.map (·.rawLength)).sum ≤ request.maximumBytes ∧
      (∀ admitted ∈ events, ¬visit.Unsupported limits request ∧
        ∃ event, visit.Reads limits request event ∧
          event.counted limits request = some admitted) ∧
      (¬visit.Unsupported limits request → ∀ event, visit.Reads limits request event →
        ∀ admitted ∈ event.counted limits request, admitted ∈ events) := by
  by_cases unsupported : completion = .unsupported
  · have none := pages.cleared unsupported
    have reached := pages.unsupported.mp unsupported
    subst none
    exact ⟨by simp, by simp, by simp, fun supported => absurd reached supported⟩
  · have supported : ¬visit.Unsupported limits request := mt pages.unsupported.mpr unsupported
    rcases pages.kept unsupported with ⟨consumed, seen, final, counts, rfl, readIff⟩
    refine ⟨counts.count_le, counts.admitted_bytes, ?_, ?_⟩
    · intro admitted admittedMem
      rw [counts.events, List.nil_append] at admittedMem
      rcases List.mem_filterMap.mp admittedMem with ⟨event, eventMem, counted⟩
      exact ⟨supported, event, (readIff event).mpr eventMem, counted⟩
    · intro _ event reads admitted counted
      rw [counts.events, List.nil_append]
      exact List.mem_filterMap.mpr ⟨event, (readIff event).mp reads, counted⟩

theorem Tally.counts_empty (limits : AdmissionLimits) (request : SourceRequest) :
    Tally.empty.Counts limits request [] [] where
  events := rfl
  bytes := rfl
  seen := rfl
  count_le := Nat.zero_le _
  bytes_le := Nat.zero_le _

/-- What a fetched replay was made of.  A visit is cut off at its deadline. -/
theorem pages_of_fetched {replay : SourceReplay}
    (fetched : fetchReconciliationSource configuration request plan visit = .ok replay) :
    (∀ event, visit.Reads configuration.limits request event → event.Usable) ∧
      ∃ completion events,
        PagesRead configuration.limits request [] [] visit.answers completion events ∧
          ((request.deadline ≤ visit.finished.get ∧ plan.finish request .incompleteTimeout
              visit.started.get request.deadline events = .ok replay) ∨
            (visit.finished.get < request.deadline ∧ plan.finish request completion
              visit.started.get visit.finished.get events = .ok replay)) := by
  simp only [fetchReconciliationSource, bind_eq_ok, mapError_eq_ok] at fetched
  rcases fetched with ⟨_, -, ⟨completion, events⟩, read, finished⟩
  have usable : ∀ event, visit.Reads configuration.limits request event → event.Usable := by
    intro event reads
    by_contra bad
    have failed := readPages_of_unusable (Tally.counts_empty configuration.limits request)
      ⟨event, reads, bad⟩
    rw [failed] at read
    cases read
  rcases readPages_of_usable (Tally.counts_empty configuration.limits request) usable with
    ⟨completion', events', read', pages⟩
  rw [read'] at read
  cases read
  refine ⟨usable, completion, events, pages, ?_⟩
  by_cases late : request.deadline ≤ visit.finished.get
  · simp only [late, if_true] at finished
    exact .inl ⟨late, finished⟩
  · simp only [late, if_false] at finished
    exact .inr ⟨not_le.mp late, finished⟩

/-- A fetched source was committable. -/
theorem committable_of_fetched {replay : SourceReplay}
    (fetched : fetchReconciliationSource configuration request plan visit = .ok replay) :
    visit.Committable configuration.limits request := by
  rcases pages_of_fetched fetched with ⟨usable, completion, events, pages, finished⟩
  have kept := pages.events_spec.2.2.2
  have observed : ∀ event, visit.Reads configuration.limits request event →
      1000 ≤ event.observedMs := by
    intro event reads
    have timed := (usable event reads).1
    omega
  rcases finished with ⟨late, finished⟩ | ⟨inTime, finished⟩
  · have finishes := finish_spec finished
    refine ⟨finishes.started.2.2, observed, fun _ => late, ?_⟩
    intro _ supported event reads admitted counted
    exact (finishes.timely admitted (kept supported event reads admitted counted)).2.2
  · have finishes := finish_spec finished
    refine ⟨finishes.started.2.2, observed, ?_, fun late => absurd inTime (not_lt.mpr late)⟩
    intro cancelled
    exact finishes.timeout.mp (pages.timeout.mpr cancelled)

/-- A fetched replay was finished from events that its visit delivered. -/
theorem finish_of_fetched {replay : SourceReplay}
    (fetched : fetchReconciliationSource configuration request plan visit = .ok replay) :
    ∃ outcome finishedAt events,
      plan.finish request outcome visit.started.get finishedAt events = .ok replay ∧
        finishedAt ≤ visit.finished.get ∧ ∀ admitted ∈ events, ∃ event,
          visit.Reads configuration.limits request event ∧
            event.wire.verified = some admitted.event := by
  rcases pages_of_fetched fetched with ⟨-, completion, events, pages, finished⟩
  have delivered : ∀ admitted ∈ events, ∃ event,
      visit.Reads configuration.limits request event ∧
        event.wire.verified = some admitted.event := by
    intro admitted admittedMem
    rcases pages.events_spec.2.2.1 admitted admittedMem with ⟨-, event, reads, counted⟩
    exact ⟨event, reads, (counted_spec counted).2.1⟩
  rcases finished with ⟨late, finished⟩ | ⟨-, finished⟩
  · exact ⟨_, _, events, finished, late, delivered⟩
  · exact ⟨_, _, events, finished, le_rfl, delivered⟩

theorem ReadsOf.mem {limits : AdmissionLimits} {read events : List ObservedEvent}
    {event : ObservedEvent} (reads : ReadsOf limits request read events event) :
    event ∈ events := by
  induction events generalizing read with
  | nil => cases reads
  | cons first rest ih =>
      rcases reads with ⟨-, rfl | later⟩
      · exact List.mem_cons_self
      · exact List.mem_cons_of_mem _ (ih later)

/-- What is reached is reached at one of the answers. -/
theorem Reaches.mem {limits : AdmissionLimits} {property : List ObservedEvent → Answer → Prop}
    {read : List ObservedEvent} {cursors : List String} {answers : List Answer}
    (reaches : Reaches limits request property read cursors answers) :
    ∃ answer ∈ answers, ∃ before, property before answer := by
  induction answers generalizing read cursors with
  | nil => cases reaches
  | cons answer rest ih =>
      rcases reaches with here | ⟨page, text, -, -, later⟩
      · exact ⟨answer, List.mem_cons_self, read, here⟩
      · rcases ih later with ⟨other, otherMem, held⟩
        exact ⟨other, List.mem_cons_of_mem _ otherMem, held⟩

/-- An event that a visit reads is on one of its pages. -/
theorem Visit.Reads.delivered {limits : AdmissionLimits} {event : ObservedEvent}
    (reads : visit.Reads limits request event) :
    ∃ page, .page page ∈ visit.answers ∧ event ∈ page.events := by
  rcases Reaches.mem reads with ⟨answer, answerMem, before, page, rfl, -, readsOf⟩
  exact ⟨page, answerMem, ReadsOf.mem readsOf⟩

/-- A committable visit yields a replay. -/
theorem fetched_of_committable {verification : Verification}
    (configured : ∃ source ∈ configuration.sources, source.sourceId = request.sourceId)
    (requested : request.id = plan.requestId)
    (started : request.attemptStartedAt ≤ visit.started.get)
    (conforms : visit.Conforms verification configuration.limits request)
    (committable : visit.Committable configuration.limits request) :
    ∃ replay, fetchReconciliationSource configuration request plan visit = .ok replay := by
  have usable : ∀ event, visit.Reads configuration.limits request event → event.Usable := by
    intro event reads
    have early := committable.observed event reads
    have bounded := (conforms.observed event reads).2
    have representable := visit.finished.bounded
    constructor
    · omega
    · omega
  rcases readPages_of_usable (Tally.counts_empty configuration.limits request) usable with
    ⟨completion, events, read, pages⟩
  rcases pages.events_spec with ⟨fits, small, origin, -⟩
  have named : (configuration.sources.any fun source =>
      source.sourceId == request.sourceId) = true := by
    rcases configured with ⟨source, sourceMem, same⟩
    exact List.any_eq_true.mpr ⟨source, sourceMem, by simp [same]⟩
  have consistent : Consistent (events.map (·.event.record)) := by
    have accepted : ∀ admitted ∈ events, verification.accepts admitted.event := by
      intro admitted admittedMem
      rcases origin admitted admittedMem with ⟨-, event, reads, counted⟩
      exact conforms.verified event reads _ (counted_spec counted).2.1
    intro left leftMem right rightMem
    rcases List.mem_map.mp leftMem with ⟨first, firstMem, rfl⟩
    rcases List.mem_map.mp rightMem with ⟨second, secondMem, rfl⟩
    exact verification.agrees _ _ (accepted first firstMem) (accepted second secondMem)
  have within : ∀ admitted ∈ events, visit.started.get ≤ admitted.observedAt.get * 1000 + 999 ∧
      admitted.observedAt.get * 1000 ≤ visit.finished.get := by
    intro admitted admittedMem
    rcases origin admitted admittedMem with ⟨-, event, reads, counted⟩
    have window := conforms.observed event reads
    rw [← (counted_spec counted).1] at window
    constructor
    · omega
    · omega
  have sameTrade : ∀ admitted ∈ events, admitted.event.tradeId = request.tradeId := by
    intro admitted admittedMem
    rcases origin admitted admittedMem with ⟨-, event, -, counted⟩
    exact (counted_spec counted).2.2.1
  by_cases late : request.deadline ≤ visit.finished.get
  · have finished := finish_of_timely requested
      ⟨started, committable.started.le, committable.started⟩
      (by simp : SourceCompletion.incompleteTimeout = .incompleteTimeout ↔
        request.deadline ≤ request.deadline)
      (fun admitted admittedMem => ⟨sameTrade admitted admittedMem,
        (within admitted admittedMem).1, by
          rcases origin admitted admittedMem with ⟨supported, event, reads, counted⟩
          exact committable.late late supported event reads admitted counted⟩)
      consistent fits small (by simp)
    rcases finished with ⟨replay, done⟩
    exact ⟨replay, by
      simp only [fetchReconciliationSource, named, read, require, if_true, bind, Except.bind,
        late, done, Except.mapError]⟩
  · have uncancelled : completion ≠ .incompleteTimeout := by
      intro timeout
      exact late (committable.cancelled (pages.timeout.mp timeout))
    have finished := finish_of_timely requested
      ⟨started, conforms.ordered, committable.started⟩
      (⟨fun timeout => absurd timeout uncancelled, fun inTime => absurd inTime late⟩ :
        completion = .incompleteTimeout ↔ request.deadline ≤ visit.finished.get)
      (fun admitted admittedMem => ⟨sameTrade admitted admittedMem, within admitted admittedMem⟩)
      consistent fits small pages.cleared
    rcases finished with ⟨replay, done⟩
    exact ⟨replay, by
      simp only [fetchReconciliationSource, named, read, require, if_true, bind, Except.bind,
        late, if_false, done, Except.mapError]⟩

end Visits

section Attempts

/-- What a fetched replay reports about its visit; a visit is cut off at its deadline. -/
theorem finishes_of_fetched {configuration : Configuration} {request : SourceRequest}
    {plan : ReplayPlan} {visit : Visit} {replay : SourceReplay}
    (fetched : fetchReconciliationSource configuration request plan visit = .ok replay) :
    ∃ outcome finishedAt events,
      replay.Finishes plan request outcome visit.started.get finishedAt events ∧
        finishedAt ≤ visit.finished.get := by
  rcases finish_of_fetched fetched with ⟨outcome, finishedAt, events, finished, cutOff, -⟩
  exact ⟨outcome, finishedAt, events, finish_spec finished, cutOff⟩

variable [Sha256]

/-- The facts of a fetched replay belong to the trade it was planned for. -/
theorem trade_of_fetched {configuration : Configuration} {attempt : AttemptPlan}
    {request : SourceRequest} {prior : Option SourceCursor} {plan : ReplayPlan} {visit : Visit}
    {replay : SourceReplay}
    (planned : ReplayPlan.fromRequest attempt request configuration prior = .ok plan)
    (fetched : fetchReconciliationSource configuration request plan visit = .ok replay) :
    ∀ fact ∈ replay.facts, fact.record.tradeId = replay.plan.tradeId := by
  rcases finishes_of_fetched fetched with ⟨outcome, finishedAt, events, finishes, -⟩
  intro fact factMem
  rcases finishes.facts fact factMem with ⟨event, eventMem, same⟩
  have sameTrade := (finishes.timely event eventMem).1
  rw [finishes.planned, (fromRequest_spec planned).trade, same]
  exact sameTrade

/-- The replays of an attempt, each with the request and the visit it comes from. -/
theorem fetchSources_spec {configuration : Configuration} {plan : AttemptPlan}
    {requests : List SourceRequest} {visits : List (Option SourceCursor × Visit)}
    {replays : List SourceReplay} (sameLength : visits.length = requests.length)
    (fetched : fetchSources configuration plan requests visits = .ok replays) :
    List.Forall₂
      (fun (replay : SourceReplay) (entry : SourceRequest × Option SourceCursor × Visit) =>
      ∃ replayPlan, ReplayPlan.fromRequest plan entry.1 configuration entry.2.1 = .ok replayPlan ∧
        fetchReconciliationSource configuration entry.1 replayPlan entry.2.2 = .ok replay)
      replays (requests.zip visits) := by
  induction requests generalizing visits replays with
  | nil =>
      simp only [fetchSources, Except.ok.injEq] at fetched
      rw [← fetched]
      exact .nil
  | cons request requests ih =>
      cases visits with
      | nil => simp at sameLength
      | cons entry visits =>
          simp only [fetchSources, bind_eq_ok, mapError_eq_ok, pure_eq_ok] at fetched
          rcases fetched with ⟨replayPlan, planned, replay, visited, later, rest, rfl⟩
          exact .cons ⟨replayPlan, planned, visited⟩ (ih (by simpa using sameLength) rest)

theorem fetchSources_of_each {configuration : Configuration} {plan : AttemptPlan}
    {requests : List SourceRequest} {visits : List (Option SourceCursor × Visit)}
    (each : ∀ entry ∈ requests.zip visits, ∃ replayPlan replay,
      ReplayPlan.fromRequest plan entry.1 configuration entry.2.1 = .ok replayPlan ∧
        fetchReconciliationSource configuration entry.1 replayPlan entry.2.2 = .ok replay) :
    ∃ replays, fetchSources configuration plan requests visits = .ok replays := by
  induction requests generalizing visits with
  | nil => exact ⟨[], rfl⟩
  | cons request requests ih =>
      cases visits with
      | nil => exact ⟨[], rfl⟩
      | cons entry visits =>
          rcases each (request, entry) (by simp) with ⟨replayPlan, replay, planned, visited⟩
          have others : ∀ other ∈ requests.zip visits, ∃ replayPlan replay,
              ReplayPlan.fromRequest plan other.1 configuration other.2.1 = .ok replayPlan ∧
                fetchReconciliationSource configuration other.1 replayPlan other.2.2 =
                  .ok replay := by
            intro other otherMem
            exact each other (List.mem_cons_of_mem _ otherMem)
          rcases ih others with ⟨later, rest⟩
          refine ⟨replay :: later, ?_⟩
          simp only [fetchSources, planned, visited, rest, Except.mapError, bind, Except.bind, pure,
            Except.pure]

/-- The clock of the attempt does not run backwards. -/
def ClockOrdered (startedAt : UnixMilliseconds) (visits : List (Option SourceCursor × Visit)) :
    Prop :=
  (startedAt.get :: visits.flatMap fun entry =>
    [entry.2.started.get, entry.2.finished.get]).Pairwise (· ≤ ·)

/-- Every source is fetched, and while the lease has not expired the commit of the replays passes
every check it makes before its transaction. -/
def AttemptCommittable (lease : Lease) (configuration : Configuration) (plan : AttemptPlan)
    (visits : List (Option SourceCursor × Visit)) : Prop :=
  ∃ replays, fetchSources configuration plan plan.requests visits = .ok replays ∧
    ∀ now, (∀ entry ∈ visits, entry.2.finished.get ≤ now) → now < lease.leaseExpires.get →
      admitsReplays lease plan replays = true

theorem replayMatches_of_fetched {lease : Lease} {configuration : Configuration}
    {startedAt : UnixMilliseconds} {plan : AttemptPlan} {request : SourceRequest}
    {source : SourceConfiguration} {prior : Option SourceCursor} {visit : Visit}
    {replayPlan : ReplayPlan} {replay : SourceReplay}
    (planned : plan.For lease configuration startedAt)
    (requested : request.For lease.job startedAt.get plan.deadline source)
    (resumed : ReplayPlan.fromRequest plan request configuration prior = .ok replayPlan)
    (fetched : fetchReconciliationSource configuration request replayPlan visit = .ok replay)
    (unexpired : visit.finished.get < lease.leaseExpires.get) :
    replayMatches lease plan replay request = true := by
  rcases finishes_of_fetched fetched with ⟨outcome, finishedAt, events, finishes, cutOff⟩
  have made := fromRequest_spec resumed
  have moved : replay.eligibleCursor.isSome = true → replay.result.finishedAt / 1000 ≠ 0 := by
    intro eligible
    have present : replay.cursorCandidate ≠ none := by
      intro absent
      simp [SourceReplay.eligibleCursor, absent] at eligible
    rcases List.exists_mem_of_ne_nil _ (mt finishes.cursor_none.mpr present) with ⟨fact, factMem⟩
    rcases finishes.facts fact factMem with ⟨event, eventMem, -⟩
    have window := (finishes.timely event eventMem).2.2
    have positive := event.observedAt.positive
    rw [finishes.result.2.2.2.1]
    omega
  have early : replay.result.finishedAt < lease.leaseExpires.get := by
    rw [finishes.result.2.2.2.1]
    omega
  have unmoved : (!(replay.eligibleCursor.isSome && replay.result.finishedAt / 1000 == 0)) =
      true := by
    cases eligible : replay.eligibleCursor.isSome with
    | false => simp
    | true => simpa using moved eligible
  have sameTrade : replay.plan.tradeId = lease.job.tradeId := by
    rw [finishes.planned, made.trade, requested.trade]
  simp only [replayMatches, Bool.and_eq_true, beq_iff_eq, decide_eq_true_eq]
  refine ⟨⟨⟨⟨⟨⟨⟨⟨⟨⟨?_, finishes.result.1⟩, ?_⟩, ?_⟩, ?_⟩, sameTrade⟩, ?_⟩, ?_⟩, early⟩, ?_⟩,
    unmoved⟩
  · rw [finishes.planned, made.request_id]
  · rw [finishes.planned, made.source]
  · rw [finishes.planned, made.trade]
  · rw [finishes.planned, made.isRequired]
  · rw [finishes.planned, made.policy, planned.policy]
  · rw [finishes.planned, made.selector]
  · exact finishes.result.2.2.2.2.symm

/-- An attempt is fetched and can be committed exactly when each of its visits is committable. -/
theorem attempt_committable_iff (verification : Verification) {lease : Lease}
    {configuration : Configuration} {startedAt : UnixMilliseconds} {plan : AttemptPlan}
    {visits : List (Option SourceCursor × Visit)}
    (claimed : AttemptPlan.fromClaim lease configuration startedAt = .ok plan)
    (sameLength : visits.length = plan.requests.length)
    (clock : ClockOrdered startedAt visits)
    (conforms : ∀ entry ∈ plan.requests.zip visits,
      entry.2.2.Conforms verification configuration.limits entry.1) :
    AttemptCommittable lease configuration plan visits ↔
      ∀ entry ∈ plan.requests.zip visits, entry.2.2.Committable configuration.limits entry.1 := by
  have planned := fromClaim_spec claimed
  have sources := List.forall₂_iff_get.mp planned.requests
  constructor
  · rintro ⟨replays, fetched, -⟩ entry entryMem
    have each := List.forall₂_iff_get.mp (fetchSources_spec sameLength fetched)
    rcases List.mem_iff_getElem.mp entryMem with ⟨index, bound, rfl⟩
    rcases each.2 index (by omega) bound with ⟨replayPlan, -, visited⟩
    exact committable_of_fetched visited
  · intro committable
    have requestOf : ∀ entry ∈ plan.requests.zip visits, ∃ source ∈ configuration.sources,
        entry.1.For lease.job startedAt.get plan.deadline source := by
      intro entry entryMem
      rcases List.mem_iff_getElem.mp (List.of_mem_zip entryMem).1 with ⟨index, bound, same⟩
      have made := sources.2 index bound (by omega)
      simp only [List.get_eq_getElem, same] at made
      exact ⟨_, List.getElem_mem _, made⟩
    have fetched : ∃ replays, fetchSources configuration plan plan.requests visits =
        .ok replays := by
      refine fetchSources_of_each ?_
      intro entry entryMem
      rcases requestOf entry entryMem with ⟨source, sourceMem, requested⟩
      rcases fromRequest_of_planned planned (List.of_mem_zip entryMem).1 entry.2.1 with
        ⟨replayPlan, resumed⟩
      have begun : startedAt.get ≤ entry.2.2.started.get := by
        have later := (List.pairwise_cons.mp clock).1
        exact later _ (List.mem_flatMap.mpr ⟨entry.2, (List.of_mem_zip entryMem).2, by simp⟩)
      rcases fetched_of_committable ⟨source, sourceMem, requested.source_id.symm⟩
        (fromRequest_spec resumed).request_id.symm (by rw [requested.started]; exact begun)
        (conforms entry entryMem) (committable entry entryMem) with ⟨replay, visited⟩
      exact ⟨replayPlan, replay, resumed, visited⟩
    rcases fetched with ⟨replays, done⟩
    refine ⟨replays, done, ?_⟩
    intro now finished unexpired
    have each := List.forall₂_iff_get.mp (fetchSources_spec sameLength done)
    have lengths : replays.length = plan.requests.length := by
      rw [each.1, List.length_zip, sameLength, Nat.min_self]
    simp only [admitsReplays, Bool.and_eq_true, beq_iff_eq, decide_eq_true_eq]
    refine ⟨⟨⟨⟨⟨lengths, planned.job⟩, planned.generation⟩,
      planned.policy.trans planned.sameWorld⟩, planned.before⟩, ?_⟩
    refine List.all_eq_true.mpr ?_
    intro pair pairMem
    rcases List.mem_iff_getElem.mp pairMem with ⟨index, bound, rfl⟩
    rw [List.length_zip] at bound
    rcases each.2 index (by omega) (by rw [List.length_zip]; omega) with
      ⟨replayPlan, resumed, visited⟩
    simp only [List.get_eq_getElem, List.getElem_zip] at resumed visited
    have entryMem : (plan.requests[index], visits[index]) ∈ plan.requests.zip visits := by
      have inside : index < (plan.requests.zip visits).length := by
        rw [List.length_zip]
        omega
      have zipped := List.getElem_mem inside
      rwa [List.getElem_zip] at zipped
    rcases requestOf _ entryMem with ⟨source, -, requested⟩
    have early := finished visits[index] (List.getElem_mem _)
    rw [List.getElem_zip]
    exact replayMatches_of_fetched planned requested resumed visited (by omega)

end Attempts

section Exceptions

namespace Sample

local instance : Sha256 := ⟨Hashing.sha256⟩

/-- Only the proposal is a verified event. -/
def verification : Verification where
  accepts event := event = proposal.event
  agrees left right leftAccepted rightAccepted := by
    rw [leftAccepted, rightAccepted]
    exact ⟨fun _ _ => rfl, fun _ => rfl⟩

/-- The relay delivers the proposal on its only page. -/
def delivered : Visit where
  started := claimedAt
  answers := [.page ⟨.complete, [⟨⟨2, some proposal.event, by simp [proposal, event]⟩, 1000001500⟩],
    .complete⟩]
  finished := finalizedAt

/-- The relay cancels the request within a second. -/
def cancelledByRelay : Visit where
  started := claimedAt
  answers := [.page ⟨.cancelled, [], .complete⟩]
  finished := finalizedAt

theorem fromClaim_plan : AttemptPlan.fromClaim lease configuration claimedAt = .ok plan := by
  decide +kernel

theorem delivered_reads {limits : AdmissionLimits} {request : SourceRequest}
    {event : ObservedEvent} (reads : delivered.Reads limits request event) :
    event.wire.verified = some proposal.event ∧ event.observedMs = 1000001500 := by
  simp only [Visit.Reads, delivered, Reaches, Answer.Reads, and_false, exists_false,
    or_false] at reads
  rcases reads with ⟨page, same, -, read⟩
  cases same
  simp only [ReadsOf, or_false] at read
  rw [read.2]
  exact ⟨rfl, rfl⟩

theorem delivered_conforms : delivered.Conforms verification configuration.limits request where
  ordered := by decide
  observed event reads := by
    rw [(delivered_reads reads).2]
    decide
  verified event reads := by
    rw [(delivered_reads reads).1]
    rintro _ ⟨⟩
    rfl

theorem delivered_committable : delivered.Committable configuration.limits request where
  started := by decide
  observed event reads := by
    rw [(delivered_reads reads).2]
    decide
  cancelled cancelled := by
    simp [Visit.Cancelled, delivered, Reaches, Answer.Cancels] at cancelled
  late late := absurd late (by decide)

/-- An attempt whose relay delivers the proposal in time is committable. -/
theorem delivered_attempt_committable :
    AttemptPlan.fromClaim lease configuration claimedAt = .ok plan ∧
      ClockOrdered claimedAt [(none, delivered)] ∧
      delivered.Conforms verification configuration.limits request ∧
      delivered.Committable configuration.limits request ∧
      AttemptCommittable lease configuration plan [(none, delivered)] := by
  have ordered : ClockOrdered claimedAt [(none, delivered)] := by
    unfold ClockOrdered
    decide
  refine ⟨fromClaim_plan, ordered, delivered_conforms, delivered_committable,
    (attempt_committable_iff verification fromClaim_plan rfl ordered ?_).mpr ?_⟩
  · intro entry entryMem
    rw [List.mem_singleton.mp entryMem]
    exact delivered_conforms
  · intro entry entryMem
    rw [List.mem_singleton.mp entryMem]
    exact delivered_committable

/-- A relay that cancels within a second fails the whole attempt, though its answer is one the
transport may give and the clock has not reached the deadline. -/
theorem cancelled_attempt_fails :
    AttemptPlan.fromClaim lease configuration claimedAt = .ok plan ∧
      ClockOrdered claimedAt [(none, cancelledByRelay)] ∧
      cancelledByRelay.Conforms verification configuration.limits request ∧
      cancelledByRelay.finished.get < request.deadline ∧
      fetchSources configuration plan plan.requests [(none, cancelledByRelay)] =
        .error (.replay .invalidInput) ∧
      ¬AttemptCommittable lease configuration plan [(none, cancelledByRelay)] := by
  have failed : fetchSources configuration plan plan.requests [(none, cancelledByRelay)] =
      .error (.replay .invalidInput) := by
    decide +kernel
  have unread : ∀ event, ¬cancelledByRelay.Reads configuration.limits request event := by
    intro event reads
    simp [Visit.Reads, cancelledByRelay, Reaches, Answer.Reads] at reads
  refine ⟨fromClaim_plan, ?_, ⟨by decide, ?_, ?_⟩, by decide, failed, ?_⟩
  · unfold ClockOrdered
    decide
  · intro event reads
    exact absurd reads (unread event)
  · intro event reads
    exact absurd reads (unread event)
  · rintro ⟨replays, fetched, -⟩
    rw [failed] at fetched
    cases fetched

end Sample

end Exceptions

end Rhi
