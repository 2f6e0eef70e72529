import Rhi.Presence.Repetitions

/-!
# Recording of outcomes

An executor that submitted an attempt records what it observed.  The schedule it asks for does not
always exist: the last attempt leaves none, but the delay is drawn as for any other.  What is
recorded can be recorded again, and in no other way.
-/

namespace Rhi

open Relational Transactional

namespace Recording

section Answers

variable [Sha256] [TradeEvidence] [PresenceEvents]

/-- In every run an executor that submitted an attempt, whose lease stands and has not expired by
its clock, answers with its commit exactly when the tables take the outcome, the clock has not gone
back, and the delay it draws is one the outcome can be scheduled with. -/
theorem submitted_outcomes_recorded :
    (∀ (moves : List Publication.PublishersMove) (index : Nat)
      (prepared : PreparedAttempt) (finishedAt : UnixMilliseconds),
      (Publication.Publishers.exec moves .initial).executors index = .submitting prepared →
      Publication.Stands prepared (Publication.Publishers.exec moves .initial).service.store →
      finishedAt.get < prepared.lease.expiresAt → ∀ observed sample,
        (∃ commit, Publication.answer prepared .acknowledged finishedAt observed sample
          (Publication.Publishers.exec moves .initial).service.store = .ok commit) ↔
          Publication.Takes prepared (Publication.Publishers.exec moves .initial).service.store ∧
            prepared.startedAt.get ≤ finishedAt.get ∧
            Schedulable prepared.lease.outbox.maxAttempts prepared.target.attemptCount
              finishedAt.get
              (Publication.retryDelay prepared (Publication.closedOutcome observed) sample)
              (Publication.closedOutcome observed)) ∧
    ∀ (moves : List Presence.Move) (prepared : PreparedPresence) (finishedAt : UnixMilliseconds),
      prepared ∈ (Presence.System.exec moves .initial).attempts →
      Presence.Stands prepared (Presence.System.exec moves .initial).store →
      finishedAt.get < prepared.lease.expiresAt → ∀ observed sample,
        (∃ commit, Presence.answer prepared .acknowledged finishedAt observed sample
          (Presence.System.exec moves .initial).store = .ok commit) ↔
          Presence.Takes prepared (Presence.System.exec moves .initial).store ∧
            (prepared.lease.outbox.row.updatedAt ≤ finishedAt.get ∧
              prepared.startedAt ≤ finishedAt.get) ∧
            Schedulable presenceMaxAttempts prepared.target.attemptCount finishedAt.get
              (Presence.retryDelay prepared (Publication.closedOutcome observed) sample)
              (Publication.closedOutcome observed) := by
  constructor
  · intro moves index prepared finishedAt isSubmitting stands early observed sample
    exact Publication.answer_iff isSubmitting stands early observed sample
  · intro moves prepared finishedAt preparedMem stands early observed sample
    exact Presence.answer_iff preparedMem stands early observed sample

/-- In every run the records of a prepared attempt agree: repeated, a record gives the same commit
and changes nothing, and nothing else is recorded of the attempt. -/
theorem outcomes_replay_safe :
    (∀ (moves : List Publication.Move) (prepared : PreparedAttempt) (host : Host),
      Publication.ReplaySafe prepared host (Publication.exec moves .initial).store) ∧
    (∀ (moves : List Publication.PublishersMove) (index : Nat) (prepared : PreparedAttempt),
      (Publication.Publishers.exec moves .initial).executors index = .submitting prepared →
      Publication.Seen prepared.lease (Publication.Publishers.exec moves .initial).service.store) ∧
    ∀ (moves : List Presence.Move) (prepared : PreparedPresence),
      prepared ∈ (Presence.System.exec moves .initial).attempts →
      Presence.ReplaySafe prepared (Presence.System.exec moves .initial) := by
  refine ⟨?_, ?_, ?_⟩
  · intro moves prepared host
    exact Publication.replaySafe_of_orderly (Publication.orderly_exec moves)
  · intro moves index prepared isSubmitting
    exact ((Publication.handing_exec moves).submitting index prepared isSubmitting).seen
  · intro moves prepared preparedMem
    exact Presence.replaySafe_of_lawful (Presence.lawful_exec moves) preparedMem
      (Presence.handed_exec moves prepared preparedMem)

end Answers

section Exceptions

namespace Sample

open Rhi.Sample Publication.Sample

local instance : Sha256 := ⟨Hashing.sha256⟩

local instance : TradeEvidence where
  Mutation := Unit
  mutationId _ := none
  tradeId _ := trade
  acceptsSourceId _ := true
  acceptsSourceResult _ _ _ := true
  manifest _ := none
  decode _ := none
  reduce _ _ _ _ := ⟨none, none, .missing, 0, [], [], [], [], false⟩

local instance : PresenceEvents := Presence.Sample.instPresenceEvents

/-- The first attempt at a publication is submitted. -/
def submitted (authorized : Publication.Authorized) : List Publication.PublishersMove :=
  (blocked authorized .failed).dropLast

def submission (authorized : Publication.Authorized) : Option PreparedAttempt :=
  match (Publication.Publishers.exec (submitted authorized) .initial).executors 0 with
  | .submitting prepared => some prepared
  | _ => none

theorem submission_eq_some {authorized : Publication.Authorized} {prepared : PreparedAttempt}
    (isSubmission : submission authorized = some prepared) :
    (Publication.Publishers.exec (submitted authorized) .initial).executors 0 =
      .submitting prepared := by
  unfold submission at isSubmission
  split at isSubmission
  case h_1 attempt isAttempt =>
    cases isSubmission
    exact isAttempt
  case h_2 => cases isSubmission

def finishedAt : UnixMilliseconds := ⟨1000003500, answered_bounded⟩

/-- The only attempt of an outbox fails well before its lease expires.  The delay that is drawn for
it cannot be scheduled, and the outcome is not recorded. -/
theorem final_failure_not_recorded :
    ∃ prepared ∈ submission once, finishedAt.get < prepared.lease.expiresAt ∧
      prepared.startedAt.get ≤ finishedAt.get ∧
      prepared.target.attemptCount = prepared.lease.outbox.maxAttempts ∧
      Publication.answer prepared .acknowledged finishedAt .failed 1
        (Publication.Publishers.exec (submitted once) .initial).service.store =
          .error .invalidInput := by
  decide +kernel

/-- The profile of the service is committed. -/
def presenceCommitted : List Presence.Move := Presence.Sample.desired ++
  [.commit .acknowledged Presence.Sample.documents Presence.Sample.committedAt]

/-- It is claimed. -/
def presenceClaimed : List Presence.Move :=
  presenceCommitted ++ [.claim .acknowledged owner Presence.Sample.committedAt]

/-- The first attempt at the profile is submitted. -/
def presenceSubmitted : List Presence.Move := presenceClaimed ++
  (Presence.System.exec presenceClaimed .initial).leases.map fun lease =>
    .prepare .acknowledged lease Presence.Sample.committedAt

def presenceFinishedAt : UnixMilliseconds := ⟨1700000000500, by decide⟩

/-- The submitted attempt at the profile meets what the records of its outcome ask for. -/
theorem presence_evaluated :
    ∃ prepared ∈ (Presence.System.exec presenceSubmitted .initial).attempts,
      (presenceFinishedAt.get < prepared.lease.expiresAt ∧
        Presence.storedRow prepared.lease.outbox.row.outboxId
          (Presence.System.exec presenceSubmitted .initial).store =
            some prepared.lease.outbox.row ∧
        (Presence.validateCurrentDesired prepared.lease.outbox.row
            (Presence.System.exec presenceSubmitted .initial).store = .ok () ∧
          (∀ attempt ∈ (Presence.System.exec presenceSubmitted .initial).store.attempts.rows,
            attempt.attemptId ≠ prepared.attemptId) ∧
          prepared.lease.outbox.row.revision < maxInteger ∧
          prepared.target.revision < maxInteger) ∧
        (prepared.lease.outbox.row.updatedAt ≤ presenceFinishedAt.get ∧
          prepared.startedAt ≤ presenceFinishedAt.get) ∧
        Schedulable presenceMaxAttempts prepared.target.attemptCount presenceFinishedAt.get
          (Presence.retryDelay prepared (Publication.closedOutcome .failed) 1)
          (Publication.closedOutcome .failed)) ∧
      (Presence.recordPresenceOutcome .readWriteExisting .acknowledged prepared presenceFinishedAt
        .failed 1 (Presence.System.exec presenceSubmitted .initial).store).1.toOption.isSome =
          true := by
  decide +kernel

/-- With a second attempt left both failures are recorded. -/
theorem earlier_failures_recorded :
    (∃ prepared ∈ submission again, ∃ commit,
      Publication.answer prepared .acknowledged finishedAt .failed 1
        (Publication.Publishers.exec (submitted again) .initial).service.store = .ok commit) ∧
    ∃ prepared ∈ (Presence.System.exec presenceSubmitted .initial).attempts, ∃ commit,
      Presence.answer prepared .acknowledged presenceFinishedAt .failed 1
        (Presence.System.exec presenceSubmitted .initial).store = .ok commit := by
  constructor
  · have facts : ∃ prepared ∈ submission again, finishedAt.get < prepared.lease.expiresAt ∧
        (∃ row ∈ Publication.outboxRow prepared.lease.outbox.id
            (Publication.Publishers.exec (submitted again) .initial).service.store,
          prepared.lease.outbox = row.record (some prepared.lease.owner) ∧
          row.leaseOwner = some prepared.lease.owner.bytes ∧ row.state = .leased ∧
          row.leaseExpires = some prepared.lease.expiresAt) ∧
        ((∀ attempt ∈ (Publication.Publishers.exec (submitted again)
            .initial).service.store.deliveries.rows, attempt.attemptId ≠ prepared.attemptId) ∧
          prepared.lease.outbox.revision < maxInteger ∧ prepared.target.revision < maxInteger) ∧
        prepared.startedAt.get ≤ finishedAt.get ∧
        Schedulable prepared.lease.outbox.maxAttempts prepared.target.attemptCount finishedAt.get
          (Publication.retryDelay prepared (Publication.closedOutcome .failed) 1)
          (Publication.closedOutcome .failed) := by
      decide +kernel
    rcases facts with ⟨prepared, isSubmission, early, ⟨row, stored, outbox, owned, leased, expires⟩,
      ⟨fresh, room, targetRoom⟩, forward, schedulable⟩
    exact ⟨prepared, isSubmission, (submitted_outcomes_recorded.1 (submitted again) 0 prepared
      finishedAt (submission_eq_some isSubmission) ⟨row, stored, outbox, owned, leased, expires⟩
      early .failed 1).mpr
        ⟨⟨fresh, room, targetRoom⟩, forward, schedulable⟩⟩
  · rcases presence_evaluated with ⟨prepared, preparedMem, ⟨early, stands,
      ⟨current, fresh, room, targetRoom⟩, forward, schedulable⟩, -⟩
    exact ⟨prepared, preparedMem, (submitted_outcomes_recorded.2 presenceSubmitted prepared
      presenceFinishedAt preparedMem stands early .failed 1).mpr
        ⟨⟨current, fresh, room, targetRoom⟩, forward, schedulable⟩⟩

/-- The attempt at the required relay is submitted. -/
def prepared : List Publication.Move :=
  claimed ++ leased.toList.map fun lease => .prepare .acknowledged lease publishedAt

def attempt : Option PreparedAttempt := leased.bind Publication.Sample.prepared

/-- Its acceptance is recorded twice with one commit, and it is not recorded as a rejection.  The
same holds of the failure of the profile. -/
theorem acceptance_recorded_once :
    (∃ prepared ∈ attempt, ∃ commit after,
      Publication.recordPublicationOutcome host.mode .acknowledged prepared finishedAt .accepted 0
        (Publication.exec Sample.prepared .initial).store = (.ok commit, after) ∧
      Publication.recordPublicationOutcome host.mode .acknowledged prepared finishedAt .accepted 0
        after = (.ok commit, after) ∧
      ∃ error, Publication.recordPublicationOutcome host.mode .acknowledged prepared finishedAt
        .rejected 0 after = (.error error, after)) ∧
    ∃ prepared ∈ (Presence.System.exec presenceSubmitted .initial).attempts, ∃ commit after,
      Presence.recordPresenceOutcome .readWriteExisting .acknowledged prepared presenceFinishedAt
        .failed 1 (Presence.System.exec presenceSubmitted .initial).store = (.ok commit, after) ∧
      Presence.recordPresenceOutcome .readWriteExisting .acknowledged prepared presenceFinishedAt
        .failed 1 after = (.ok commit, after) ∧
      ∃ error, Presence.recordPresenceOutcome .readWriteExisting .acknowledged prepared
        presenceFinishedAt .rejected 0 after = (.error error, after) := by
  constructor
  · have facts : ∃ prepared ∈ attempt, (Publication.recordPublicationOutcome host.mode .acknowledged
        prepared finishedAt .accepted 0
          (Publication.exec Sample.prepared .initial).store).1.toOption.isSome = true := by
      decide +kernel
    rcases facts with ⟨prepared, isAttempt, recorded⟩
    refine ⟨prepared, isAttempt, ?_⟩
    have safe := outcomes_replay_safe.1 Sample.prepared prepared host
    generalize result : Publication.recordPublicationOutcome host.mode .acknowledged prepared
      finishedAt .accepted 0 (Publication.exec Sample.prepared .initial).store = first at recorded
    rcases first with ⟨error | commit, after⟩
    · cases recorded
    · exact ⟨commit, after, rfl, (safe.repeated _ _ _ _ _ result [] rfl).1,
        safe.different _ _ _ _ _ result [] .acknowledged finishedAt .rejected 0 (by decide)⟩
  · rcases presence_evaluated with ⟨prepared, preparedMem, -, recorded⟩
    refine ⟨prepared, preparedMem, ?_⟩
    have safe := outcomes_replay_safe.2.2 presenceSubmitted prepared preparedMem
    generalize result : Presence.recordPresenceOutcome .readWriteExisting .acknowledged prepared
      presenceFinishedAt .failed 1 (Presence.System.exec presenceSubmitted .initial).store = first
      at recorded
    rcases first with ⟨error | commit, after⟩
    · cases recorded
    · exact ⟨commit, after, rfl, (safe.repeated _ _ _ _ _ result [] rfl).1,
        safe.different _ _ _ _ _ result [] .acknowledged presenceFinishedAt .rejected 0 (by decide)⟩

end Sample

end Exceptions

end Recording

end Rhi
