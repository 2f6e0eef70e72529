import Rhi.Attempt.Effects

/-!
# Finishing a source

`finish` pulls the admitted events of a source one at a time and gives up with the first one beyond
the bounds of its request.  What it makes of the events it accepts does not depend on their order.
-/

namespace Rhi

open Relational Transactional

section Iterators

variable {State Item : Type}

/-- The items of the calls of `next` up to the first that returns nothing. -/
inductive Yields (next : State → Option (Item × State)) : State → List Item → Prop where
  | nil {state : State} (ended : next state = none) : Yields next state []
  | cons {state rest : State} {item : Item} {items : List Item}
      (pulled : next state = some (item, rest)) (others : Yields next rest items) :
      Yields next state (item :: items)

end Iterators

section Pulling

variable {State : Type} (next : State → Option (AdmittedEvent × State))

/-- The turn of `ingest_bounded_facts` for one event, within the remaining room. -/
def boundedFact (trade : TradeId) (startedAt finishedAt : Nat) (event : AdmittedEvent)
    (events bytes : Nat) : Except ReplayError ReplayFact := do
  require (decide (0 < events)) .resourceLimit
  let fact ← replayFact trade startedAt finishedAt event
  require (decide (fact.originalBytes ≤ bytes)) .resourceLimit
  pure fact

/-- `ingest_bounded_facts` over an iterator, with the number of calls of `next`; at most `pulls` of
them are made. -/
def pullBoundedFacts (trade : TradeId) (startedAt finishedAt : Nat) :
    Nat → State → Nat → Nat → Nat × Except ReplayError (List ReplayFact)
  | 0, _, _, _ => (0, .ok [])
  | pulls + 1, state, events, bytes =>
      match next state with
      | none => (1, .ok [])
      | some (event, state) =>
          match boundedFact trade startedAt finishedAt event events bytes with
          | .error error => (1, .error error)
          | .ok fact =>
              let rest := pullBoundedFacts trade startedAt finishedAt pulls state (events - 1)
                (bytes - fact.originalBytes)
              (rest.1 + 1, do
                let facts ← rest.2
                pure (fact :: facts))

/-- `finish` over an iterator, with the number of calls of `next`. -/
def ReplayPlan.finishFrom (plan : ReplayPlan) (request : SourceRequest)
    (outcome : SourceCompletion) (startedAt finishedAt : Nat) (state : State) :
    Nat × Except ReplayError SourceReplay :=
  let checked : Except ReplayError SourceResult := do
    require (request.id == plan.requestId) .invalidInput
    orError (SourceResult.new request outcome startedAt finishedAt 0 0) .invalidInput
  match checked with
  | .error error => (0, .error error)
  | .ok _ =>
      let pulled := pullBoundedFacts next request.tradeId startedAt finishedAt
        (request.maximumEvents + 1) state request.maximumEvents request.maximumBytes
      (pulled.1, do
        let candidates ← pulled.2
        let canonical ← canonicalize candidates
        let result ← orError (SourceResult.new request outcome startedAt finishedAt
          canonical.facts.length canonical.acceptedOriginalBytes) .invalidInput
        pure {
          plan, result
          duplicateObservations := canonical.duplicateObservations
          cursorCandidate := canonical.cursorCandidate
          firstObservedAt := canonical.firstObservedAt
          facts := canonical.facts })

end Pulling

section Calls

variable {State : Type} {next : State → Option (AdmittedEvent × State)} {trade : TradeId}
  {startedAt finishedAt : Nat}

theorem pullBoundedFacts_calls (pulls : Nat) (state : State) (events bytes : Nat) :
    (pullBoundedFacts next trade startedAt finishedAt pulls state events bytes).1 ≤ pulls := by
  induction pulls generalizing state events bytes with
  | zero => exact Nat.le_refl 0
  | succ pulls ih =>
      rw [pullBoundedFacts]
      cases next state with
      | none => exact Nat.succ_le_succ (Nat.zero_le pulls)
      | some pulled =>
          rcases pulled with ⟨event, rest⟩
          dsimp only
          cases boundedFact trade startedAt finishedAt event events bytes with
          | error error => exact Nat.succ_le_succ (Nat.zero_le pulls)
          | ok fact => exact Nat.succ_le_succ (ih rest (events - 1) (bytes - fact.originalBytes))

/-- With more calls than room the iterator is read to its end, or the loop fails. -/
theorem yields_of_pulled {pulls : Nat} {state : State} {events bytes : Nat}
    {facts : List ReplayFact} (room : events < pulls)
    (pulled : (pullBoundedFacts next trade startedAt finishedAt pulls state events bytes).2 =
      .ok facts) : ∃ items, Yields next state items := by
  induction pulls generalizing state events bytes facts with
  | zero => omega
  | succ pulls ih =>
      rw [pullBoundedFacts] at pulled
      cases advanced : next state with
      | none => exact ⟨[], .nil advanced⟩
      | some one =>
          rcases one with ⟨event, rest⟩
          rw [advanced] at pulled
          dsimp only at pulled
          cases turned : boundedFact trade startedAt finishedAt event events bytes with
          | error error =>
              rw [turned] at pulled
              cases pulled
          | ok fact =>
              rw [turned] at pulled
              simp only [bind_eq_ok, pure_eq_ok] at pulled
              rcases pulled with ⟨others, pulled, -⟩
              have positive : 0 < events := by
                simp only [boundedFact, bind_eq_ok, require_eq_ok, decide_eq_true_eq] at turned
                rcases turned with ⟨_, positive, -⟩
                exact positive
              rcases ih (by omega) pulled with ⟨items, yields⟩
              exact ⟨event :: items, .cons advanced yields⟩

/-- An iterator that ends is ingested like the list of its items. -/
theorem pullBoundedFacts_of_yields {pulls : Nat} {state : State} {items : List AdmittedEvent}
    {events bytes : Nat} (yields : Yields next state items) (room : events < pulls) :
    (pullBoundedFacts next trade startedAt finishedAt pulls state events bytes).2 =
      ingestBoundedFacts trade startedAt finishedAt items events bytes := by
  induction yields generalizing pulls events bytes with
  | nil ended =>
      cases pulls with
      | zero => omega
      | succ pulls =>
          rw [pullBoundedFacts, ended]
          rfl
  | cons pulled others ih =>
      rename_i state rest event items
      cases pulls with
      | zero => omega
      | succ pulls =>
          rw [pullBoundedFacts, pulled, ingestBoundedFacts]
          dsimp only
          by_cases open_ : 0 < events
          · have continued : ∀ bytes, (pullBoundedFacts next trade startedAt finishedAt pulls rest
                (events - 1) bytes).2 =
                  ingestBoundedFacts trade startedAt finishedAt items (events - 1) bytes :=
              fun bytes => ih (by omega)
            simp only [boundedFact, open_, decide_true, require, if_true]
            cases replayFact trade startedAt finishedAt event with
            | error error => rfl
            | ok fact =>
                by_cases small : fact.originalBytes ≤ bytes
                · simp only [bind, Except.bind, small, decide_true, if_true, pure, Except.pure,
                    continued]
                · simp only [bind, Except.bind, small, decide_false, Bool.false_eq_true, if_false]
          · simp only [boundedFact, open_, decide_false, require, Bool.false_eq_true, if_false]
            rfl

theorem finishFrom_calls {plan : ReplayPlan} {request : SourceRequest}
    {outcome : SourceCompletion} {state : State} :
    (plan.finishFrom next request outcome startedAt finishedAt state).1 ≤
      request.maximumEvents + 1 := by
  rw [ReplayPlan.finishFrom]
  dsimp only
  split
  · exact Nat.zero_le _
  · exact pullBoundedFacts_calls _ _ _ _

/-- Over an iterator that ends, `finish` is what it is over the list of its items. -/
theorem finishFrom_of_yields {plan : ReplayPlan} {request : SourceRequest}
    {outcome : SourceCompletion} {state : State} {items : List AdmittedEvent}
    (yields : Yields next state items) :
    (plan.finishFrom next request outcome startedAt finishedAt state).2 =
      plan.finish request outcome startedAt finishedAt items := by
  have ingested : (pullBoundedFacts next request.tradeId startedAt finishedAt
      (request.maximumEvents + 1) state request.maximumEvents request.maximumBytes).2 =
        ingestBoundedFacts request.tradeId startedAt finishedAt items request.maximumEvents
          request.maximumBytes :=
    pullBoundedFacts_of_yields yields (Nat.lt_succ_self request.maximumEvents)
  rw [ReplayPlan.finishFrom, ReplayPlan.finish]
  dsimp only
  rw [ingested]
  by_cases requested : (request.id == plan.requestId) = true
  · simp only [requested, require, if_true]
    cases SourceResult.new request outcome startedAt finishedAt 0 0 with
    | none => rfl
    | some result => rfl
  · simp only [requested, require, if_false, Bool.false_eq_true]
    rfl

/-- `finish` succeeds over an iterator only when it has read all of it. -/
theorem yields_of_finishFrom {plan : ReplayPlan} {request : SourceRequest}
    {outcome : SourceCompletion} {state : State} {replay : SourceReplay}
    (done : (plan.finishFrom next request outcome startedAt finishedAt state).2 = .ok replay) :
    ∃ items, Yields next state items := by
  rw [ReplayPlan.finishFrom] at done
  dsimp only at done
  split at done
  · cases done
  · simp only [bind_eq_ok] at done
    rcases done with ⟨candidates, pulled, -⟩
    exact yields_of_pulled (Nat.lt_succ_self request.maximumEvents) pulled

end Calls

section Arrival

variable {trade : TradeId} {startedAt finishedAt : Nat}

/-- Accepted events fit the room there was for them. -/
theorem room_of_ingested {events : List AdmittedEvent} {room bytes : Nat}
    {facts : List ReplayFact}
    (done : ingestBoundedFacts trade startedAt finishedAt events room bytes = .ok facts) :
    events.length ≤ room ∧ (events.map (·.rawLength)).sum ≤ bytes := by
  induction events generalizing room bytes facts with
  | nil => simp
  | cons event rest ih =>
      simp only [ingestBoundedFacts, bind_eq_ok, require_eq_ok, decide_eq_true_eq, pure_eq_ok,
        replayFact_eq_ok] at done
      rcases done with ⟨_, open_, fact, ⟨-, -, rfl⟩, _, small, others, done, -⟩
      have continued := ih done
      have raw : event.fact.originalBytes = event.rawLength := rfl
      simp only [List.length_cons, List.map_cons, List.sum_cons]
      omega

/-- The events a source brings are ingested in any order or in none. -/
theorem ingested_perm {events shuffled : List AdmittedEvent} {room bytes : Nat}
    {facts : List ReplayFact} (perm : events.Perm shuffled)
    (done : ingestBoundedFacts trade startedAt finishedAt events room bytes = .ok facts) :
    facts = events.map (·.fact) ∧
      ingestBoundedFacts trade startedAt finishedAt shuffled room bytes =
        .ok (shuffled.map (·.fact)) := by
  rcases room_of_ingested done with ⟨fits, small⟩
  rcases ingestBoundedFacts_spec done with ⟨named, timely⟩
  refine ⟨named, ingestBoundedFacts_of_timely ?_ ?_ ?_⟩
  · exact perm.length_eq ▸ fits
  · exact (perm.map (·.rawLength)).sum_eq ▸ small
  · exact fun event eventMem => timely event (perm.mem_iff.mpr eventMem)

theorem finish_perm {plan : ReplayPlan} {request : SourceRequest} {outcome : SourceCompletion}
    {events shuffled : List AdmittedEvent} {replay : SourceReplay} (perm : events.Perm shuffled)
    (done : plan.finish request outcome startedAt finishedAt events = .ok replay) :
    plan.finish request outcome startedAt finishedAt shuffled = .ok replay := by
  simp only [ReplayPlan.finish, bind_eq_ok, pure_eq_ok] at done ⊢
  rcases done with ⟨_, requested, result, fresh, candidates, ingested, canonical, canonicalized,
    made⟩
  rcases ingested_perm perm ingested with ⟨rfl, again⟩
  exact ⟨_, requested, result, fresh, _, again, canonical,
    canonicalize_perm (perm.map (·.fact)) canonicalized, made⟩

end Arrival

section Results

variable {State : Type}

/-- What a finished source reports stays within its request. -/
structure SourceReplay.WithinRequest (replay : SourceReplay) (request : SourceRequest) : Prop where
  events : replay.result.acceptedEventCount ≤ request.maximumEvents
  bytes : replay.result.acceptedEventBytes ≤ request.maximumBytes
  empty : replay.result.acceptedEventCount = 0 ↔ replay.result.acceptedEventBytes = 0

theorem finish_bounded {plan : ReplayPlan} {request : SourceRequest} {outcome : SourceCompletion}
    {startedAt finishedAt : Nat} {events : List AdmittedEvent} {replay : SourceReplay}
    (done : plan.finish request outcome startedAt finishedAt events = .ok replay) :
    replay.WithinRequest request := by
  simp only [ReplayPlan.finish, bind_eq_ok, orError_eq_ok, pure_eq_ok] at done
  rcases done with ⟨_, -, _, -, candidates, -, canonical, -, result, made, rfl⟩
  unfold SourceResult.new at made
  split at made
  · rename_i valid
    cases made
    exact ⟨valid.2.2.2.2.1, valid.2.2.2.2.2.1, valid.2.2.2.2.2.2.1⟩
  · cases made

/-- The cursor that may move a checkpoint: only of a complete source, beyond the prior cursor, and
the greatest of the accepted events. -/
structure SourceReplay.Advances (replay : SourceReplay) (plan : ReplayPlan)
    (outcome : SourceCompletion) (cursor : SourceCursor) : Prop where
  complete : outcome = .complete
  beyond : ∀ prior ∈ plan.priorCursor, prior.lt cursor = true
  accepted : ∃ fact ∈ replay.facts, cursor = fact.cursor
  greatest : ∀ fact ∈ replay.facts, cursor.lt fact.cursor = false

theorem SourceReplay.Finishes.advances {replay : SourceReplay} {plan : ReplayPlan}
    {request : SourceRequest} {outcome : SourceCompletion} {startedAt finishedAt : Nat}
    {events : List AdmittedEvent} {cursor : SourceCursor}
    (finishes : replay.Finishes plan request outcome startedAt finishedAt events)
    (eligible : cursor ∈ replay.eligibleCursor) : replay.Advances plan outcome cursor := by
  unfold SourceReplay.eligibleCursor at eligible
  split at eligible
  · rename_i complete
    rw [Option.mem_def, Option.filter_eq_some_iff] at eligible
    rcases eligible with ⟨candidate, beyond⟩
    exact {
      complete := finishes.result.2.1.symm.trans complete
      beyond := by
        intro prior isPrior
        rw [finishes.planned, Option.mem_def.mp isPrior, Option.all_some] at beyond
        exact beyond
      accepted := finishes.cursor_mem cursor candidate
      greatest := finishes.cursor_max cursor candidate }
  · cases eligible

/-- A source is pulled at most once more than its request allows events.  When it finishes, its
iterator has ended, and any iterator over the same events finishes alike. -/
theorem finish_bounded_order_independent (next : State → Option (AdmittedEvent × State))
    (state : State) (plan : ReplayPlan) (request : SourceRequest) (outcome : SourceCompletion)
    (startedAt finishedAt : Nat) :
    (plan.finishFrom next request outcome startedAt finishedAt state).1 ≤
      request.maximumEvents + 1 ∧
    ∀ replay, (plan.finishFrom next request outcome startedAt finishedAt state).2 = .ok replay →
      replay.WithinRequest request ∧
      (∃ events, Yields next state events ∧
        ∀ (Other : Type) (other : Other → Option (AdmittedEvent × Other)) (start : Other)
          (shuffled : List AdmittedEvent), events.Perm shuffled → Yields other start shuffled →
            (plan.finishFrom other request outcome startedAt finishedAt start).2 = .ok replay) ∧
      ∀ cursor ∈ replay.eligibleCursor, replay.Advances plan outcome cursor := by
  refine ⟨finishFrom_calls, ?_⟩
  intro replay done
  rcases yields_of_finishFrom done with ⟨events, yields⟩
  rw [finishFrom_of_yields yields] at done
  refine ⟨finish_bounded done, ⟨events, yields, ?_⟩, ?_⟩
  · intro Other other start shuffled perm otherYields
    rw [finishFrom_of_yields otherYields]
    exact finish_perm perm done
  · exact fun cursor eligible => (finish_spec done).advances eligible

end Results

end Rhi
