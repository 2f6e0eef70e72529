import Rhi.Commit

/-!
# Fetching the sources of an attempt

`fetch_reconciliation_source` reads the pages of one relay until something ends the source, and
turns what it admitted into a replay.  A transport is described by its answers to the successive
calls of one source: the byte limit ends the loop after finitely many pages, so a list of answers
covers every behaviour, and a call beyond the list fails.
-/

namespace Rhi

open Relational Transactional

section Transport

/-- `FetchTargetState`. -/
inductive TargetAnswer where
  | complete
  | partly
  | unavailable
  | failedRetryable
  | cancelled
  | failedTerminal
deriving DecidableEq, Repr

/-- `NextPage`. -/
inductive NextPage where
  | complete
  | cancelled
  | cursor (text : String)
deriving DecidableEq, Repr

/-- An event of a page, with the instant the transport observed it at. -/
structure ObservedEvent where
  wire : WireEvent
  observedMs : Nat
deriving DecidableEq

/-- A page that is valid for its request and reports on its only target. -/
structure Page where
  state : TargetAnswer
  events : List ObservedEvent
  next : NextPage
deriving DecidableEq

/-- The answer to one call of `fetch`. -/
inductive Answer where
  | unsupported
  | failed
  /-- A page that does not validate, or has no single outcome for the target. -/
  | malformed
  | page (page : Page)
deriving DecidableEq

/-- One source as the attempt visits it: the clock before the first call, the answers, and the
clock after the last one. -/
structure Visit where
  started : UnixMilliseconds
  answers : List Answer
  finished : UnixMilliseconds
deriving DecidableEq

end Transport

inductive FetchError where
  | configuration
  | observation
  | replay (error : ReplayError)
deriving DecidableEq, Repr

/-- `RhiTradeMutationObservedAtUnixSeconds::new`. -/
def ObservedAt.new (seconds : Nat) : Option ObservedAt :=
  if valid : 1 ≤ seconds ∧ seconds ≤ maxInteger then
    some ⟨seconds, valid.1, valid.2⟩
  else
    none

section Pages

/-- What the loop over the pages carries along. -/
structure Tally where
  events : List AdmittedEvent
  bytes : Nat
  cursors : List String
deriving DecidableEq

def Tally.empty : Tally := ⟨[], 0, []⟩

/-- An event of a page as far as the attempt counts it: admitted, and of the requested trade. -/
def admitObserved (limits : AdmissionLimits) (trade : TradeId) (observedAt : ObservedAt)
    (wire : WireEvent) : Option AdmittedEvent :=
  (admitTradeMutationEvent limits observedAt 0 wire).filter fun admitted =>
    admitted.event.tradeId == trade

/-- The loop over the events of a page; it reports whether a limit ended the source.  An event is
counted before it is admitted. -/
def readEvents (limits : AdmissionLimits) (request : SourceRequest) :
    List ObservedEvent → Tally → Except FetchError (Bool × Tally)
  | [], tally => .ok (false, tally)
  | event :: rest, tally =>
      if request.maximumEvents ≤ tally.events.length ∨
          request.maximumBytes < tally.bytes + event.wire.rawLength then
        .ok (true, tally)
      else do
        let observedAt ← orError (ObservedAt.new (event.observedMs / 1000)) .observation
        readEvents limits request rest { tally with
          events := tally.events ++
            (admitObserved limits request.tradeId observedAt event.wire).toList
          bytes := tally.bytes + event.wire.rawLength }

/-- The loop over the pages of a source, with the class it ends in and the events it keeps. -/
def readPages (limits : AdmissionLimits) (request : SourceRequest) :
    List Answer → Tally → Except FetchError (SourceCompletion × List AdmittedEvent)
  | [], tally => .ok (.incompleteUnavailable, tally.events)
  | .unsupported :: _, _ => .ok (.unsupported, [])
  | .failed :: _, tally => .ok (.incompleteUnavailable, tally.events)
  | .malformed :: _, tally => .ok (.incompleteUnknown, tally.events)
  | .page page :: rest, tally =>
      match page.state with
      | .unavailable | .failedRetryable => .ok (.incompleteUnavailable, tally.events)
      | .cancelled => .ok (.incompleteTimeout, tally.events)
      | .failedTerminal => .ok (.incompleteUnknown, tally.events)
      | .complete | .partly => do
          let (limited, tally) ← readEvents limits request page.events tally
          if limited then
            pure (.incompleteResourceLimit, tally.events)
          else if page.state = .partly then
            pure (.incompleteUnknown, tally.events)
          else
            match page.next with
            | .complete => pure (.complete, tally.events)
            | .cancelled => pure (.incompleteTimeout, tally.events)
            | .cursor text =>
                if page.events = [] ∨ text ∈ tally.cursors then
                  pure (.incompleteUnknown, tally.events)
                else
                  readPages limits request rest { tally with cursors := text :: tally.cursors }

/-- `fetch_reconciliation_source`: a source that did not finish before its deadline is cut off
there. -/
def fetchReconciliationSource (configuration : Configuration) (request : SourceRequest)
    (plan : ReplayPlan) (visit : Visit) : Except FetchError SourceReplay := do
  require (configuration.sources.any fun source => source.sourceId == request.sourceId)
    .configuration
  let (completion, events) ← readPages configuration.limits request visit.answers .empty
  let result := if request.deadline ≤ visit.finished.get then
      plan.finish request .incompleteTimeout visit.started.get request.deadline events
    else
      plan.finish request completion visit.started.get visit.finished.get events
  result.mapError .replay

/-- The fetching part of `execute_reconciliation_attempt`: the requests of a plan in order, each
with the cursor read for it and the visit of its source. -/
def fetchSources [Sha256] (configuration : Configuration) (plan : AttemptPlan) :
    List SourceRequest → List (Option SourceCursor × Visit) →
      Except FetchError (List SourceReplay)
  | request :: requests, (prior, visit) :: visits => do
      let replayPlan ←
        (ReplayPlan.fromRequest plan request configuration prior).mapError .replay
      let replay ← fetchReconciliationSource configuration request replayPlan visit
      let replays ← fetchSources configuration plan requests visits
      pure (replay :: replays)
  | _, _ => .ok []

end Pages

end Rhi
