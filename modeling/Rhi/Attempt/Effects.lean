import Rhi.Attempt.Canonical

/-!
# What an attempt plans and what a source becomes

A plan asks every configured source once, within its own absolute deadline.  The replay of a source
keeps one fact per signed event, in the order of the source; it exists as soon as its times agree
with the request, because verified events never contradict each other.
-/

namespace Rhi

open Relational Transactional

section Finish

/-- The fact an admitted event becomes. -/
def AdmittedEvent.fact (admitted : AdmittedEvent) : ReplayFact :=
  ⟨admitted.event.record, admitted.rawLength, admitted.observedAt⟩

/-- The second of an observation meets the interval of its source. -/
def AdmittedEvent.Timely (admitted : AdmittedEvent) (startedAt finishedAt : Nat) : Prop :=
  startedAt ≤ admitted.observedAt.get * 1000 + 999 ∧ admitted.observedAt.get * 1000 ≤ finishedAt

theorem replayFact_eq_ok {trade : TradeId} {startedAt finishedAt : Nat} {event : AdmittedEvent}
    {fact : ReplayFact} : replayFact trade startedAt finishedAt event = .ok fact ↔
      event.event.tradeId = trade ∧ event.Timely startedAt finishedAt ∧ fact = event.fact := by
  simp only [replayFact, bind_eq_ok, require_eq_ok, beq_iff_eq, decide_eq_true_eq, orError_eq_ok,
    fromAdmitted_eq, Option.some.injEq, pure_eq_ok]
  constructor
  · rintro ⟨-, sameTrade, -, timely, record, rfl, rfl⟩
    exact ⟨sameTrade, timely, rfl⟩
  · rintro ⟨sameTrade, timely, rfl⟩
    exact ⟨(), sameTrade, (), timely, _, rfl, rfl⟩

theorem ingestBoundedFacts_spec {trade : TradeId} {startedAt finishedAt : Nat}
    {events : List AdmittedEvent} {room bytes : Nat} {facts : List ReplayFact}
    (done : ingestBoundedFacts trade startedAt finishedAt events room bytes = .ok facts) :
    facts = events.map (·.fact) ∧ ∀ event ∈ events,
      event.event.tradeId = trade ∧ event.Timely startedAt finishedAt := by
  induction events generalizing room bytes facts with
  | nil =>
      simp only [ingestBoundedFacts, Except.ok.injEq] at done
      exact ⟨by simp [← done], by simp⟩
  | cons event rest ih =>
      simp only [ingestBoundedFacts, bind_eq_ok, pure_eq_ok, replayFact_eq_ok] at done
      rcases done with ⟨_, -, fact, ⟨sameTrade, timely, rfl⟩, _, -, others, done, rfl⟩
      rcases ih done with ⟨rfl, each⟩
      refine ⟨rfl, ?_⟩
      intro other otherMem
      rcases List.mem_cons.mp otherMem with rfl | later
      · exact ⟨sameTrade, timely⟩
      · exact each other later

theorem ingestBoundedFacts_of_timely {trade : TradeId} {startedAt finishedAt : Nat}
    {events : List AdmittedEvent} {room bytes : Nat} (fits : events.length ≤ room)
    (small : (events.map (·.rawLength)).sum ≤ bytes)
    (timely : ∀ event ∈ events, event.event.tradeId = trade ∧ event.Timely startedAt finishedAt) :
    ingestBoundedFacts trade startedAt finishedAt events room bytes =
      .ok (events.map (·.fact)) := by
  induction events generalizing room bytes with
  | nil => rfl
  | cons event rest ih =>
      simp only [List.length_cons, List.map_cons, List.sum_cons] at fits small
      have first := timely event (by simp)
      have others := ih (by omega : rest.length ≤ room - 1)
        (by omega : (rest.map (·.rawLength)).sum ≤ bytes - event.rawLength)
        fun other otherMem => timely other (by simp [otherMem])
      have made := replayFact_eq_ok.mpr ⟨first.1, first.2, rfl⟩
      have open_ : 0 < room := by omega
      have least : event.fact.originalBytes ≤ bytes := by
        have same : event.fact.originalBytes = event.rawLength := rfl
        omega
      simp only [ingestBoundedFacts, bind_eq_ok, require_eq_ok, decide_eq_true_eq, pure_eq_ok]
      exact ⟨(), open_, _, made, (), least, _, others, rfl⟩

/-- What a finished source tells about its visit. -/
structure SourceReplay.Finishes (replay : SourceReplay) (plan : ReplayPlan)
    (request : SourceRequest) (outcome : SourceCompletion) (startedAt finishedAt : Nat)
    (events : List AdmittedEvent) : Prop where
  requested : request.id = plan.requestId
  planned : replay.plan = plan
  started : request.attemptStartedAt ≤ startedAt ∧ startedAt ≤ finishedAt ∧
    startedAt < request.deadline
  timeout : outcome = .incompleteTimeout ↔ request.deadline ≤ finishedAt
  timely : ∀ event ∈ events,
    event.event.tradeId = request.tradeId ∧ event.Timely startedAt finishedAt
  result : replay.result.requestId = request.id ∧ replay.result.outcome = outcome ∧
    replay.result.startedAt = startedAt ∧ replay.result.finishedAt = finishedAt ∧
    replay.result.acceptedEventCount = replay.facts.length
  facts : ∀ fact ∈ replay.facts, ∃ event ∈ events, fact = event.fact
  represented : ∀ event ∈ events, ∃ fact ∈ replay.facts, fact.record = event.event.record
  cursor_none : replay.cursorCandidate = none ↔ replay.facts = []
  cursor_mem : ∀ cursor ∈ replay.cursorCandidate, ∃ fact ∈ replay.facts, cursor = fact.cursor
  cursor_max : ∀ cursor ∈ replay.cursorCandidate, ∀ fact ∈ replay.facts,
    cursor.lt fact.cursor = false

theorem finish_spec {plan : ReplayPlan} {request : SourceRequest} {outcome : SourceCompletion}
    {startedAt finishedAt : Nat} {events : List AdmittedEvent} {replay : SourceReplay}
    (done : plan.finish request outcome startedAt finishedAt events = .ok replay) :
    replay.Finishes plan request outcome startedAt finishedAt events := by
  simp only [ReplayPlan.finish, bind_eq_ok, require_eq_ok, beq_iff_eq, orError_eq_ok,
    pure_eq_ok] at done
  rcases done with ⟨_, requested, _, -, candidates, ingested, canonical, canonicalized, result,
    made, rfl⟩
  rcases ingestBoundedFacts_spec ingested with ⟨rfl, timely⟩
  have of := of_canonicalize canonicalized
  unfold SourceResult.new at made
  split at made
  · rename_i valid
    cases made
    have perm := List.perm_insertionSort ReplayFact.before (events.map (·.fact))
    refine {
      requested, planned := rfl, started := ⟨valid.1, valid.2.1, valid.2.2.1⟩
      timeout := valid.2.2.2.1, timely, result := ⟨rfl, rfl, rfl, rfl, rfl⟩
      facts := ?_, represented := ?_, cursor_none := of.cursor.none
      cursor_mem := of.cursor.mem, cursor_max := of.cursor.max }
    · intro fact factMem
      have seen := perm.subset (of.sublist.subset factMem)
      rcases List.mem_map.mp seen with ⟨event, eventMem, rfl⟩
      exact ⟨event, eventMem, rfl⟩
    · intro event eventMem
      rcases of.represented event.fact (perm.symm.subset (List.mem_map_of_mem eventMem)) with
        ⟨fact, factMem, same, -⟩
      exact ⟨fact, factMem, same⟩
  · cases made

/-- A source whose times agree with its request has a replay. -/
theorem finish_of_timely {plan : ReplayPlan} {request : SourceRequest}
    {outcome : SourceCompletion} {startedAt finishedAt : Nat} {events : List AdmittedEvent}
    (requested : request.id = plan.requestId)
    (started : request.attemptStartedAt ≤ startedAt ∧ startedAt ≤ finishedAt ∧
      startedAt < request.deadline)
    (timeout : outcome = .incompleteTimeout ↔ request.deadline ≤ finishedAt)
    (timely : ∀ event ∈ events,
      event.event.tradeId = request.tradeId ∧ event.Timely startedAt finishedAt)
    (consistent : Consistent (events.map (·.event.record)))
    (fits : events.length ≤ request.maximumEvents)
    (small : (events.map (·.rawLength)).sum ≤ request.maximumBytes)
    (unsupported : outcome = .unsupported → events = []) :
    ∃ replay, plan.finish request outcome startedAt finishedAt events = .ok replay := by
  have records : (events.map (·.fact)).map (·.record) = events.map (·.event.record) := by
    simp [AdmittedEvent.fact]
  have countable : ¬Overflowing (events.map (·.fact)) := by
    have eventsFit := request.events_fit
    have bytesFit := request.bytes_fit
    refine not_overflowing_of_bounds ?_ ?_
    · rw [List.length_map]
      omega
    · rw [List.map_map]
      exact small.trans_lt bytesFit
  rcases canonicalize_of_consistent (records ▸ consistent) countable with
    ⟨canonical, canonicalized⟩
  have of := of_canonicalize canonicalized
  have sorted := (List.perm_insertionSort ReplayFact.before (events.map (·.fact)))
  have count : canonical.facts.length ≤ events.length := by
    have shorter := of.sublist.length_le
    rw [sorted.length_eq, List.length_map] at shorter
    exact shorter
  have total : canonical.acceptedOriginalBytes ≤ (events.map (·.rawLength)).sum := by
    have smaller := (of.sublist.map (·.originalBytes)).sum_le_sum (by simp)
    rw [(sorted.map (·.originalBytes)).sum_eq, List.map_map] at smaller
    rw [of.bytes]
    exact smaller
  have positive : canonical.facts.length = 0 ↔ canonical.acceptedOriginalBytes = 0 := by
    rw [of.bytes]
    cases facts : canonical.facts with
    | nil => simp
    | cons fact rest =>
        have seen := sorted.subset (of.sublist.subset (facts ▸ List.mem_cons_self))
        rcases List.mem_map.mp seen with ⟨event, -, same⟩
        have raw := event.raw_positive
        have bytes : fact.originalBytes = event.rawLength := by rw [← same]; rfl
        simp only [List.length_cons, List.map_cons, List.sum_cons]
        omega
  have empty : outcome = .unsupported →
      canonical.facts.length = 0 ∧ canonical.acceptedOriginalBytes = 0 := by
    intro unsupportedOutcome
    have none : canonical.facts.length = 0 := by
      rw [unsupported unsupportedOutcome] at count
      simpa using count
    exact ⟨none, positive.mp none⟩
  have first : SourceResult.new request outcome startedAt finishedAt 0 0 =
      some ⟨request.id, outcome, startedAt, finishedAt, 0, 0⟩ :=
    if_pos ⟨started.1, started.2.1, started.2.2, timeout, Nat.zero_le _, Nat.zero_le _, Iff.rfl,
      fun _ => ⟨rfl, rfl⟩⟩
  have second : SourceResult.new request outcome startedAt finishedAt canonical.facts.length
      canonical.acceptedOriginalBytes = some ⟨request.id, outcome, startedAt, finishedAt,
        canonical.facts.length, canonical.acceptedOriginalBytes⟩ :=
    if_pos ⟨started.1, started.2.1, started.2.2, timeout, count.trans fits, total.trans small,
      positive, empty⟩
  refine ⟨{
    plan
    result := ⟨request.id, outcome, startedAt, finishedAt, canonical.facts.length,
      canonical.acceptedOriginalBytes⟩
    duplicateObservations := canonical.duplicateObservations
    cursorCandidate := canonical.cursorCandidate
    firstObservedAt := canonical.firstObservedAt
    facts := canonical.facts }, ?_⟩
  simp only [ReplayPlan.finish, bind_eq_ok, require_eq_ok, beq_iff_eq, orError_eq_ok, pure_eq_ok]
  exact ⟨(), requested, _, first, _, ingestBoundedFacts_of_timely fits small timely, canonical,
    canonicalized, _, second, rfl⟩

end Finish

section Planning

theorem absoluteDeadline_spec {startedAt duration ceiling deadline : Nat}
    (made : absoluteDeadline startedAt duration ceiling = .ok deadline) :
    deadline = min (startedAt + duration) ceiling ∧ startedAt < deadline := by
  simp only [absoluteDeadline, bind_eq_ok, require_eq_ok, decide_eq_true_eq, pure_eq_ok] at made
  rcases made with ⟨-, -, -, later, rfl⟩
  exact ⟨rfl, later⟩

variable [Sha256]

/-- The request a source of the configuration gets. -/
structure SourceRequest.For (request : SourceRequest) (job : Job) (startedAt deadline : Nat)
    (source : SourceConfiguration) : Prop where
  source_id : request.sourceId = source.sourceId
  trade : request.tradeId = job.tradeId
  isRequired : request.required = source.required
  selector : request.selectorDigest = Rhi.selectorDigest job.tradeId
  started : request.attemptStartedAt = startedAt
  later : startedAt < request.deadline
  before : request.deadline ≤ deadline
  lookback : request.lookbackSeconds = source.lookbackSeconds
  events : request.maximumEvents = sourceResultMaxEvents
  bytes : request.maximumBytes = sourceResultMaxBytes

theorem sourceRequest_spec {job : Job} {startedAt deadline : Nat} {source : SourceConfiguration}
    {request : SourceRequest} (made : sourceRequest job startedAt deadline source = .ok request) :
    request.For job startedAt deadline source := by
  simp only [sourceRequest, bind_eq_ok, pure_eq_ok] at made
  rcases made with ⟨sourceDeadline, bounded, rfl⟩
  rcases absoluteDeadline_spec bounded with ⟨least, later⟩
  exact ⟨rfl, rfl, rfl, rfl, rfl, later, by simp only [least]; exact Nat.min_le_right _ _, rfl, rfl,
    rfl⟩

theorem sourceRequests_spec {job : Job} {startedAt deadline : Nat}
    {sources : List SourceConfiguration} {requests : List SourceRequest}
    (made : sourceRequests job startedAt deadline sources = .ok requests) :
    List.Forall₂ (fun request source => request.For job startedAt deadline source) requests
      sources := by
  induction sources generalizing requests with
  | nil =>
      simp only [sourceRequests, Except.ok.injEq] at made
      rw [← made]
      exact .nil
  | cons source rest ih =>
      simp only [sourceRequests, bind_eq_ok, pure_eq_ok] at made
      rcases made with ⟨request, first, others, later, rfl⟩
      exact .cons (sourceRequest_spec first) (ih later)

/-- What a plan made from a claim is. -/
structure AttemptPlan.For (plan : AttemptPlan) (lease : Lease) (configuration : Configuration)
    (startedAt : UnixMilliseconds) : Prop where
  id : plan.id = attemptId lease.job.id lease.job.attemptCount
  job : plan.jobId = lease.job.id
  generation : plan.inputGeneration = lease.job.inputGeneration
  policy : plan.policyDigest = configuration.policy
  sameWorld : configuration.policy = lease.job.policyDigest
  leased : lease.job.state = .leased
  attempted : lease.job.attemptCount ≠ 0
  before : plan.deadline ≤ lease.leaseExpires.get
  requests : List.Forall₂
    (fun request source => request.For lease.job startedAt.get plan.deadline source)
    plan.requests configuration.sources

theorem fromClaim_spec {lease : Lease} {configuration : Configuration}
    {startedAt : UnixMilliseconds} {plan : AttemptPlan}
    (made : AttemptPlan.fromClaim lease configuration startedAt = .ok plan) :
    plan.For lease configuration startedAt := by
  simp only [AttemptPlan.fromClaim, bind_eq_ok, require_eq_ok, Bool.and_eq_true, beq_iff_eq,
    bne_iff_ne, decide_eq_true_eq, pure_eq_ok] at made
  rcases made with ⟨-, ⟨leased, attempted⟩, -, -, -, sameWorld, -, -, -, -, deadline, bounded,
    requests, requested, rfl⟩
  have least := (absoluteDeadline_spec bounded).1
  exact {
    id := rfl, job := rfl, generation := rfl, policy := rfl, sameWorld, leased, attempted
    before := by simp only [least]; exact Nat.min_le_right _ _
    requests := sourceRequests_spec requested }

/-- What a replay plan keeps of its request. -/
structure ReplayPlan.For (replay : ReplayPlan) (request : SourceRequest)
    (configuration : Configuration) (prior : Option SourceCursor) : Prop where
  request_id : replay.requestId = request.id
  source : replay.sourceId = request.sourceId
  trade : replay.tradeId = request.tradeId
  isRequired : replay.required = request.required
  policy : replay.policyDigest = configuration.policy
  selector : replay.selectorDigest = request.selectorDigest
  resumed : replay.priorCursor = prior
  window : ∃ source ∈ configuration.sources, source.sourceId = request.sourceId ∧
    replay.since = replaySince request.attemptStartedAt source.lookbackSeconds
      source.overlapSeconds prior

theorem fromRequest_spec {attempt : AttemptPlan} {request : SourceRequest}
    {configuration : Configuration} {prior : Option SourceCursor} {replay : ReplayPlan}
    (made : ReplayPlan.fromRequest attempt request configuration prior = .ok replay) :
    replay.For request configuration prior := by
  simp only [ReplayPlan.fromRequest, bind_eq_ok, require_eq_ok, orError_eq_ok, pure_eq_ok] at made
  rcases made with ⟨-, -, -, -, source, found, -, -, rfl⟩
  have named := List.find?_some found
  simp only [beq_iff_eq] at named
  exact ⟨rfl, rfl, rfl, rfl, rfl, rfl, rfl, source, List.mem_of_find?_eq_some found, named, rfl⟩

omit [Sha256] in
/-- The identifiers of the configured sources are distinct. -/
theorem Configuration.eq_of_sourceId {configuration : Configuration}
    {left right : SourceConfiguration} (leftMem : left ∈ configuration.sources)
    (rightMem : right ∈ configuration.sources) (same : left.sourceId = right.sourceId) :
    left = right := by
  by_contra different
  have ordered := configuration.sources_sorted
  rcases List.mem_iff_getElem.mp leftMem with ⟨first, firstBound, rfl⟩
  rcases List.mem_iff_getElem.mp rightMem with ⟨second, secondBound, rfl⟩
  rw [List.pairwise_iff_getElem] at ordered
  rcases Nat.lt_trichotomy first second with less | equal | greater
  · have increasing := ordered first second firstBound secondBound less
    rw [same] at increasing
    exact String.lt_irrefl _ increasing
  · subst equal
    exact different rfl
  · have increasing := ordered second first secondBound firstBound greater
    rw [same] at increasing
    exact String.lt_irrefl _ increasing

/-- Every request of a plan can be resumed from any cursor. -/
theorem fromRequest_of_planned {lease : Lease} {configuration : Configuration}
    {startedAt : UnixMilliseconds} {plan : AttemptPlan} {request : SourceRequest}
    (planned : plan.For lease configuration startedAt) (requested : request ∈ plan.requests)
    (prior : Option SourceCursor) :
    ∃ replay, ReplayPlan.fromRequest plan request configuration prior = .ok replay := by
  rcases List.mem_iff_getElem.mp requested with ⟨index, bound, rfl⟩
  have sameLength := planned.requests.length_eq
  have each := List.forall₂_iff_get.mp planned.requests
  have made := each.2 index bound (by omega)
  simp only [List.get_eq_getElem] at made
  have sourceMem : configuration.sources[index] ∈ configuration.sources :=
    List.getElem_mem (by omega)
  cases found : configuration.sources.find? fun source =>
      source.sourceId == plan.requests[index].sourceId with
  | none =>
      have missing := List.find?_eq_none.mp found _ sourceMem
      simp [made.source_id] at missing
  | some source =>
      have named := List.find?_some found
      simp only [beq_iff_eq] at named
      have same := configuration.eq_of_sourceId (List.mem_of_find?_eq_some found) sourceMem
        (named.trans made.source_id)
      have known : (plan.requests.any fun candidate =>
          candidate.id == plan.requests[index].id) = true :=
        List.any_eq_true.mpr ⟨_, List.getElem_mem bound, by simp⟩
      have lookback : (source.lookbackSeconds == plan.requests[index].lookbackSeconds) = true := by
        rw [same, made.lookback]
        simp
      cases result : ReplayPlan.fromRequest plan plan.requests[index] configuration prior with
      | ok replay => exact ⟨replay, rfl⟩
      | error error =>
          simp only [ReplayPlan.fromRequest, known, found, lookback, planned.policy, require,
            orError, beq_self_eq_true, if_true, bind, Except.bind, pure, Except.pure] at result
          cases result

end Planning

end Rhi
