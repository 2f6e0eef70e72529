import Rhi.Fetch

/-!
# Ingest of one source

`fetch_source` reads the pages of one relay for one trade, sorts what it received, admits it event
by event and hands the result to `commit_source_result`.  The transport is the one of the attempts:
a list of answers, beyond which every call fails.
-/

namespace Rhi

open Relational Transactional

/-- `ConfiguredSource`, without what only the request carries. -/
structure ConfiguredSource where
  sourceId : SourceId
  policy : EvidencePolicyDigest
  maximumEvents : Nat
  maximumBytes : Nat
  admissionLimits : AdmissionLimits
deriving DecidableEq

/-- `RhiTradeSourceAttempt`, without what only the request carries. -/
structure SourceAttempt where
  observedAt : ObservedAt
  maximumFuture : Nat
deriving DecidableEq

section Pages

/-- What the loop over the pages of `fetch_source` carries along. -/
structure Received where
  candidates : List WireEvent
  events : Nat
  bytes : Nat
  cursors : List String
deriving DecidableEq

def Received.nothing : Received := ⟨[], 0, 0, []⟩

/-- The loop over the events of a page.  A limit leaves a count above the maximum behind. -/
def receiveEvents (source : ConfiguredSource) : List ObservedEvent → Received → Received
  | [], received => received
  | observed :: rest, received =>
      if source.maximumEvents < received.events + 1 then
        { received with events := received.events + 1 }
      else if source.maximumBytes < received.bytes + observed.wire.rawLength then
        { received with events := source.maximumEvents + 1 }
      else
        receiveEvents source rest { received with
          candidates := received.candidates ++ [observed.wire]
          events := received.events + 1
          bytes := received.bytes + observed.wire.rawLength }

/-- The loop over the pages, with the class it ends in.  Unlike an attempt, a failed call leaves
the source unknown, and an unsupported one keeps what was received before it. -/
def receivePages (source : ConfiguredSource) :
    List Answer → Received → SourceCompletion × Received
  | [], received => (.incompleteUnknown, received)
  | .unsupported :: _, received => (.unsupported, received)
  | .failed :: _, received | .malformed :: _, received => (.incompleteUnknown, received)
  | .page page :: rest, received =>
      match page.state with
      | .unavailable | .failedRetryable => (.incompleteUnavailable, received)
      | .failedTerminal => (.incompleteUnknown, received)
      | .cancelled => (.incompleteTimeout, received)
      | .complete | .partly =>
          let received := receiveEvents source page.events received
          if source.maximumEvents < received.events then
            (.incompleteResourceLimit, received)
          else if page.state = .partly then
            (.incompleteUnknown, received)
          else
            match page.next with
            | .complete => (.complete, received)
            | .cancelled => (.incompleteTimeout, received)
            | .cursor text =>
                if page.events = [] ∨ text ∈ received.cursors then
                  (.incompleteUnknown, received)
                else
                  receivePages source rest { received with cursors := text :: received.cursors }

end Pages

section Candidates

/-- `compare_candidate`, up to ties. -/
def AdmittedEvent.before (left right : AdmittedEvent) : Prop :=
  left.event.authoredAt < right.event.authoredAt ∨
    (left.event.authoredAt = right.event.authoredAt ∧
      (left.event.eventId < right.event.eventId ∨
        (left.event.eventId = right.event.eventId ∧
          left.event.eventSignature ≤ right.event.eventSignature)))

instance : DecidableRel AdmittedEvent.before := fun left right => by
  unfold AdmittedEvent.before
  infer_instance

/-- What the loop over the sorted candidates carries along. -/
structure Candidates where
  admitted : List AdmittedEvent
  duplicates : Nat
  cursorCandidate : Option SourceCursor
deriving DecidableEq

def Candidates.none : Candidates := ⟨[], 0, .none⟩

/-- One admitted event of the trade: a duplicate of a signed event is only counted. -/
def Candidates.accept (candidates : Candidates) (event : AdmittedEvent) : Candidates :=
  if candidates.admitted.any fun known => known.event.eventId == event.event.eventId &&
      known.event.eventSignature == event.event.eventSignature then
    { candidates with duplicates := candidates.duplicates + 1 }
  else {
    candidates with
    admitted := candidates.admitted ++ [event]
    cursorCandidate := some
      (candidates.cursorCandidate.elim event.event.cursor (·.latest event.event.cursor)) }

/-- The events of the candidates that are admitted and belong to the trade, in the order of
`compare_candidate`.  Admission looks at one event at a time, so that it may come before sorting. -/
def relevantEvents (source : ConfiguredSource) (attempt : SourceAttempt) (trade : TradeId)
    (candidates : List WireEvent) : List AdmittedEvent :=
  ((candidates.filterMap (admitTradeMutationEvent source.admissionLimits attempt.observedAt
    attempt.maximumFuture)).filter fun admitted =>
      admitted.event.tradeId == trade).insertionSort AdmittedEvent.before

def acceptAll (events : List AdmittedEvent) (candidates : Candidates) : Candidates :=
  events.foldl Candidates.accept candidates

theorem accept_admitted_subset (candidates : Candidates) (event : AdmittedEvent) :
    (candidates.accept event).admitted ⊆ candidates.admitted ++ [event] := by
  unfold Candidates.accept
  split
  · exact List.subset_append_left _ _
  · exact List.Subset.refl _

theorem acceptAll_admitted_subset (events : List AdmittedEvent) (candidates : Candidates) :
    (acceptAll events candidates).admitted ⊆ candidates.admitted ++ events := by
  induction events generalizing candidates with
  | nil => simp [acceptAll]
  | cons event rest ih =>
      intro kept keptMem
      rcases List.mem_append.mp (ih (candidates.accept event) keptMem) with earlier | later
      · rcases List.mem_append.mp (accept_admitted_subset candidates event earlier) with old | new
        · exact List.mem_append_left _ old
        · rw [List.mem_singleton.mp new]
          simp
      · simp [later]

/-- `fetch_source`. -/
def fetchSource (source : ConfiguredSource) (attempt : SourceAttempt) (trade : TradeId)
    (answers : List Answer) : FetchedSource trade :=
  let (completion, received) := receivePages source answers .nothing
  let relevant := relevantEvents source attempt trade received.candidates
  let accepted := acceptAll relevant .none
  { completion
    receivedEvents := min received.events source.maximumEvents
    duplicateEvents := accepted.duplicates
    admitted := accepted.admitted
    rejectedEvents := received.candidates.length - relevant.length
    cursorCandidate := accepted.cursorCandidate
    same_trade := by
      intro event eventMem
      have chosen := acceptAll_admitted_subset relevant .none eventMem
      simp only [Candidates.none, List.nil_append] at chosen
      have admitted := (List.mem_insertionSort _).mp chosen
      simpa using (List.mem_filter.mp admitted).2 }

end Candidates

end Rhi
