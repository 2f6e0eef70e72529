import Rhi.Attempt.Finish
import Rhi.Commit.Idempotence
import Rhi.Daemon
import Rhi.Manifest.Preimages

/-!
# The identities of a fetched attempt

The preimages are injective over values that their integers can hold.  A plan made from a claim and
the replays that its visits finish stay within these bounds, so that each of their identities is
the identity of what it was made of, and what a worker commits is sealed.
-/

namespace Rhi

open Relational Transactional

section Facts

/-- The facts of admitted events fit into an inventory. -/
theorem commitFacts_of_admitted {facts : List ReplayFact}
    (admitted : ∀ fact ∈ facts, ∃ event : AdmittedEvent, fact = event.fact) :
    ∃ commits : List CommitFact, commits.map (fun fact => (fact.record, fact.observedAt)) =
      facts.map fun fact => (fact.record, fact.observedAt) := by
  induction facts with
  | nil => exact ⟨[], rfl⟩
  | cons fact facts ih =>
      rcases ih fun other otherMem => admitted other (List.mem_cons_of_mem _ otherMem) with
        ⟨commits, same⟩
      rcases admitted fact List.mem_cons_self with ⟨event, rfl⟩
      have kind : event.event.eventKind < 2 ^ 32 := by
        have member := event.event.kind_mem
        simp only [eventKinds, List.mem_cons, List.not_mem_nil, or_false] at member
        omega
      have schema : event.event.record.schemaVersion < 2 ^ 16 := (by decide : 1 < 2 ^ 16)
      have small : maxInteger < 2 ^ 64 := by decide
      have authored := event.authored_le.trans_lt small
      have content : event.event.content.length < 2 ^ 64 := event.content_le.trans_lt (by decide)
      have json : event.event.canonicalEventJson.length < 2 ^ 64 :=
        event.json_le.trans_lt (by decide)
      exact ⟨⟨event.event.record, event.observedAt, schema, kind, authored, content, json⟩ ::
        commits, by simp [same, AdmittedEvent.fact]⟩

theorem inventory_of_admitted {facts : List ReplayFact}
    (admitted : ∀ fact ∈ facts, ∃ event : AdmittedEvent, fact = event.fact)
    (few : facts.length < 2 ^ 32) : ∃ inventory : Inventory, inventory.Of facts := by
  rcases commitFacts_of_admitted admitted with ⟨commits, same⟩
  have lengths := congrArg List.length same
  simp only [List.length_map] at lengths
  exact ⟨⟨commits, by omega⟩, same⟩

end Facts

section Fetching

variable {configuration : Configuration} {request : SourceRequest} {plan : ReplayPlan}
  {visit : Visit} {replay : SourceReplay}

/-- A repetition is counted in 32 bits. -/
theorem duplicates_of_finish {outcome : SourceCompletion} {startedAt finishedAt : Nat}
    {events : List AdmittedEvent}
    (done : plan.finish request outcome startedAt finishedAt events = .ok replay) :
    replay.duplicateObservations < 2 ^ 32 := by
  simp only [ReplayPlan.finish, bind_eq_ok, pure_eq_ok] at done
  rcases done with ⟨_, -, _, -, candidates, -, canonical, canonicalized, result, -, rfl⟩
  exact (of_canonicalize canonicalized).few

/-- What a fetched replay reports fits its integers. -/
structure SourceReplay.Fits (replay : SourceReplay) (request : SourceRequest) : Prop where
  requested : replay.result.requestId = replay.plan.requestId
  started : replay.result.startedAt ≤ maxInteger
  finished : replay.result.finishedAt ≤ maxInteger
  within : replay.WithinRequest request
  counted : replay.result.acceptedEventCount = replay.facts.length
  duplicates : replay.duplicateObservations < 2 ^ 32
  candidate : ∀ cursor ∈ replay.cursorCandidate, cursor.createdAt ≤ maxInteger
  admitted : ∀ fact ∈ replay.facts, ∃ event : AdmittedEvent, fact = event.fact

theorem fits_of_fetched
    (fetched : fetchReconciliationSource configuration request plan visit = .ok replay) :
    replay.Fits request ∧ replay.plan = plan := by
  rcases finish_of_fetched fetched with ⟨outcome, finishedAt, events, finished, cutOff, -⟩
  have finishes := finish_spec finished
  rcases finishes.result with ⟨requestId, -, started, ended, counted⟩
  have admitted : ∀ fact ∈ replay.facts, ∃ event : AdmittedEvent, fact = event.fact := by
    intro fact factMem
    rcases finishes.facts fact factMem with ⟨event, -, same⟩
    exact ⟨event, same⟩
  refine ⟨{
    requested := by rw [requestId, finishes.requested, finishes.planned]
    started := by rw [started]; exact visit.started.bounded
    finished := by rw [ended]; exact cutOff.trans visit.finished.bounded
    within := finish_bounded finished
    counted
    duplicates := duplicates_of_finish finished
    candidate := ?_
    admitted }, finishes.planned⟩
  intro cursor candidate
  rcases finishes.cursor_mem cursor candidate with ⟨fact, factMem, rfl⟩
  rcases admitted fact factMem with ⟨event, rfl⟩
  exact event.authored_le

end Fetching

section Planning

variable [Sha256] {configuration : Configuration}

omit [Sha256] in
/-- The start of a query is not later than the attempt or the cursor. -/
theorem replaySince_le {startedAt lookback overlap : Nat} {prior : Option SourceCursor}
    (started : startedAt ≤ maxInteger) (resumed : ∀ cursor ∈ prior, cursor.createdAt ≤ maxInteger) :
    replaySince startedAt lookback overlap prior ≤ maxInteger := by
  cases prior with
  | none =>
      simp only [replaySince]
      omega
  | some cursor =>
      have bounded := resumed cursor rfl
      simp only [replaySince]
      omega

/-- The identity of a replay plan, and the overlap and start it names. -/
structure ReplayPlan.Identified (plan : ReplayPlan) : Prop where
  id : plan.id = replayId plan.requestId plan.priorCursor plan.overlapSeconds plan.since
  overlap : plan.overlapSeconds ≤ 86400

theorem identified_of_fromRequest {attempt : AttemptPlan} {request : SourceRequest}
    {prior : Option SourceCursor} {plan : ReplayPlan}
    (planned : ReplayPlan.fromRequest attempt request configuration prior = .ok plan) :
    plan.Identified := by
  simp only [ReplayPlan.fromRequest, bind_eq_ok, orError_eq_ok, pure_eq_ok] at planned
  rcases planned with ⟨-, -, -, -, source, -, -, -, rfl⟩
  exact ⟨rfl, source.overlap_bounds.2⟩

/-- A request of a plan was made for one of its sources. -/
theorem sourceRequest_of_mem {job : Job} {startedAt deadline : Nat}
    {sources : List SourceConfiguration} {requests : List SourceRequest}
    (made : sourceRequests job startedAt deadline sources = .ok requests) {request : SourceRequest}
    (requestMem : request ∈ requests) :
    ∃ source ∈ sources, sourceRequest job startedAt deadline source = .ok request := by
  induction sources generalizing requests with
  | nil =>
      cases made
      cases requestMem
  | cons source rest ih =>
      simp only [sourceRequests, bind_eq_ok, pure_eq_ok] at made
      rcases made with ⟨first, planned, others, later, rfl⟩
      rcases List.mem_cons.mp requestMem with rfl | otherMem
      · exact ⟨source, List.mem_cons_self, planned⟩
      · rcases ih later otherMem with ⟨other, otherMem, planned⟩
        exact ⟨other, List.mem_cons_of_mem _ otherMem, planned⟩

variable {lease : Lease} {now : UnixMilliseconds} {plan : AttemptPlan}

/-- What a plan made from a claim consists of. -/
theorem sourceRequests_of_fromClaim
    (claimed : AttemptPlan.fromClaim lease configuration now = .ok plan) :
    sourceRequests lease.job now.get plan.deadline configuration.sources = .ok plan.requests ∧
      plan.attemptStartedAt = now.get ∧ plan.requests ≠ [] := by
  have sameLength := (fromClaim_spec claimed).requests.length_eq
  have present := configuration.sources_count
  simp only [AttemptPlan.fromClaim, bind_eq_ok, pure_eq_ok] at claimed
  rcases claimed with ⟨-, -, -, -, -, -, -, -, -, -, deadline, -, requests, made, rfl⟩
  refine ⟨made, rfl, ?_⟩
  intro empty
  have length := congrArg List.length empty
  simp only [List.length_nil] at length
  simp only at sameLength
  omega

end Planning

section Attempts

variable [Sha256] {configuration : Configuration} {lease : Lease} {now : UnixMilliseconds}
  {plan : AttemptPlan}

/-- A replay that was fetched for a request of a plan, from a cursor of a checkpoint. -/
def SealedReplay.FetchedFor (entry : SealedReplay) (plan : AttemptPlan)
    (configuration : Configuration) : Prop :=
  ∃ request ∈ plan.requests, ∃ prior visit, (∀ cursor ∈ prior, cursor.createdAt ≤ maxInteger) ∧
    fetchSealed configuration plan request prior visit = some entry

theorem fetchSealed_spec {request : SourceRequest} {prior : Option SourceCursor} {visit : Visit}
    {entry : SealedReplay}
    (fetched : fetchSealed configuration plan request prior visit = some entry) :
    ∃ replayPlan, ReplayPlan.fromRequest plan request configuration prior = .ok replayPlan ∧
      fetchReconciliationSource configuration request replayPlan visit = .ok entry.replay := by
  unfold fetchSealed at fetched
  split at fetched
  · cases fetched
  · rename_i replayPlan planned
    split at fetched
    · cases fetched
    · rename_i replay visited
      cases fetched
      exact ⟨replayPlan, planned, visited⟩

/-- What the identities of an attempt are identities of. -/
structure AttemptPlan.Identifies (plan : AttemptPlan) (replays : List SealedReplay) : Prop where
  attempt : ∃ attempt : SealedAttempt, attempt.plan = plan ∧ attempt.sealed = replays
  requests : ∀ request ∈ plan.requests, ∃ material : RequestIdentityMaterial,
    material.attemptId = plan.id ∧ request.Identified material
  plans : ∀ entry ∈ replays, ∃ identity : ReplayIdentity,
    identity.requestId = entry.replay.plan.requestId ∧
      identity.priorCursor = entry.replay.plan.priorCursor ∧
      identity.overlapSeconds = entry.replay.plan.overlapSeconds ∧
      identity.sinceUnixSeconds = entry.replay.plan.since ∧ entry.replay.plan.id = identity.id
  results : ∀ entry ∈ replays, ∃ (sized : entry.replay.Sized) (inventory : Inventory),
    inventory.Of entry.replay.facts ∧ ∀ ordinal (ordinal_fits : ordinal < 2 ^ 32),
      sourceResultDigest plan.id ordinal entry.replay = SourceResultInput.digest
        ⟨plan.id, ordinal, entry.replay.intoCommitParts sized inventory, ordinal_fits⟩

/-- What one fetched replay is bounded by and identified by. -/
structure SealedReplay.Fetched (entry : SealedReplay) : Prop where
  fits : ∃ request, entry.replay.Fits request ∧ request.maximumBytes = sourceResultMaxBytes
  identified : entry.replay.plan.Identified
  prior : ∀ cursor ∈ entry.replay.plan.priorCursor, cursor.createdAt ≤ maxInteger
  since : entry.replay.plan.since ≤ maxInteger

theorem SealedReplay.FetchedFor.fetched {entry : SealedReplay}
    (fetchedFor : entry.FetchedFor plan configuration)
    (claimed : AttemptPlan.fromClaim lease configuration now = .ok plan) :
    entry.Fetched := by
  rcases fetchedFor with ⟨request, requestMem, prior, visit, resumed, sealedFetch⟩
  rcases fetchSealed_spec sealedFetch with ⟨replayPlan, planned, visited⟩
  rcases fits_of_fetched visited with ⟨fits, samePlan⟩
  rcases sourceRequest_of_mem (sourceRequests_of_fromClaim claimed).1 requestMem with
    ⟨source, -, made⟩
  have request_for := sourceRequest_spec made
  have plan_for := fromRequest_spec planned
  refine ⟨⟨request, fits, request_for.bytes⟩, ?_, ?_, ?_⟩
  · rw [samePlan]
    exact identified_of_fromRequest planned
  · rw [samePlan, plan_for.resumed]
    exact resumed
  · rcases plan_for.window with ⟨source, -, -, since⟩
    rw [samePlan, since, request_for.started]
    exact replaySince_le now.bounded resumed

theorem SealedReplay.Fetched.bounded {entry : SealedReplay} (fetched : entry.Fetched) :
    entry.replay.Bounded := by
  rcases fetched.fits with ⟨request, fits, bytes⟩
  have accepted := fits.within.bytes
  rw [bytes] at accepted
  have overlap := fetched.identified.overlap
  exact ⟨fits.started, fits.finished, accepted.trans (by decide), fetched.prior,
    overlap.trans (by decide), fetched.since, fits.candidate⟩

theorem SealedReplay.Fetched.sized {entry : SealedReplay} (fetched : entry.Fetched) :
    entry.replay.Sized := by
  have small : maxInteger < 2 ^ 64 := by decide
  rcases fetched.bounded with ⟨started, finished, bytes, prior, overlap, since, candidate⟩
  rcases fetched.fits with ⟨request, fits, -⟩
  exact {
    prior := fun cursor isPrior => (prior cursor isPrior).trans_lt small
    overlap := overlap.trans_lt small
    since := since.trans_lt small
    started := started.trans_lt small
    finished := finished.trans_lt small
    count := fits.within.events.trans_lt request.events_fit
    bytes := bytes.trans_lt small
    duplicates := fits.duplicates
    candidate := fun cursor isCandidate => (candidate cursor isCandidate).trans_lt small
    requested := fits.requested }

theorem SealedReplay.Fetched.inventory {entry : SealedReplay} (fetched : entry.Fetched) :
    ∃ inventory : Inventory, inventory.Of entry.replay.facts := by
  rcases fetched.fits with ⟨request, fits, -⟩
  refine inventory_of_admitted fits.admitted ?_
  rw [← fits.counted]
  exact fits.within.events.trans_lt request.events_fit

/-- The attempt of a claim, with the replays fetched for it, is sealed and identified. -/
theorem identifies_of_fetched {replays : List SealedReplay}
    (claimed : AttemptPlan.fromClaim lease configuration now = .ok plan)
    (generation : lease.job.inputGeneration ≤ maxInteger)
    (fetchedFor : ∀ entry ∈ replays, entry.FetchedFor plan configuration) :
    plan.Identifies replays := by
  have claim := fromClaim_spec claimed
  rcases sourceRequests_of_fromClaim claimed with ⟨made, started, requested⟩
  have fetched : ∀ entry ∈ replays, entry.Fetched :=
    fun entry entryMem => (fetchedFor entry entryMem).fetched claimed
  refine ⟨?_, ?_, ?_, ?_⟩
  · exact ⟨{
      plan
      sealed := replays
      requested
      generation_le := by rw [claim.generation]; exact generation
      started_le := by rw [started]; exact now.bounded
      deadline_le := claim.before.trans lease.leaseExpires.bounded
      bounded := fun entry entryMem => (fetched entry entryMem).bounded }, rfl, rfl⟩
  · intro request requestMem
    rcases sourceRequest_of_mem made requestMem with ⟨source, -, planned⟩
    rcases identified_of_sourceRequest planned with ⟨material, sameAttempt, identified⟩
    exact ⟨material, by rw [sameAttempt, claim.id], identified⟩
  · intro entry entryMem
    have sized := (fetched entry entryMem).sized
    exact ⟨⟨entry.replay.plan.requestId, entry.replay.plan.priorCursor,
      entry.replay.plan.overlapSeconds, entry.replay.plan.since, sized.prior, sized.overlap,
      sized.since⟩, rfl, rfl, rfl, rfl, (fetched entry entryMem).identified.id⟩
  · intro entry entryMem
    rcases (fetched entry entryMem).inventory with ⟨inventory, of⟩
    exact ⟨(fetched entry entryMem).sized, inventory, of, fun ordinal ordinal_fits =>
      sourceResultDigest_eq _ of plan.id ordinal ordinal_fits⟩

end Attempts

end Rhi
