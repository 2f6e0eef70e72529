import Mathlib.Order.Bounds.Basic
import Rhi.Publication.Errors

/-!
# What an outbox says about its targets

In every run that makes one attempt at a time the state of an outbox is a function of its required
targets, a claimed outbox has a due target, and no transaction breaks an invariant.
-/

namespace Rhi

open Relational Transactional

namespace Publication

section Consistency

/-- The instants at which the required targets that are not accepted go on. -/
def Snapshot.instants (current : Snapshot) : Set Nat :=
  { instant | ∃ target ∈ current.targets, target.required = true ∧ target.state ≠ .accepted ∧
    target.nextAttempt = some instant }

/-- A required target at which nothing more is tried. -/
def GivenUp (maxAttempts : Nat) (target : TargetRow) : Prop :=
  target.state = .rejected ∨ target.state = .authRequired ∨
    (target.state.retryable = true ∧ maxAttempts ≤ target.attemptCount)

/-- The state of an outbox is the summary of its targets. -/
structure Snapshot.Consistent (current : Snapshot) : Prop where
  single : (current.targets.countP fun target => target.state == .submitted) ≤ 1
  leased : ∀ target ∈ current.targets, target.state = .submitted → current.row.state = .leased
  pending : current.row.state = .pending →
    (∃ instant, current.row.nextAttempt = some instant ∧ IsLeast current.instants instant) ∧
      ∀ target ∈ current.targets, target.required = true → target.state ≠ .accepted →
        target.attemptCount < current.row.maxAttempts
  complete : current.row.state = .complete ↔
    ∀ target ∈ current.targets, target.required = true → target.state = .accepted
  blocked : current.row.state = .blocked ↔ ∃ target ∈ current.targets, target.required = true ∧
    GivenUp current.row.maxAttempts target

theorem isBlocking_iff {maxAttempts : Nat} {target : TargetRow} :
    target.isBlocking maxAttempts = true ↔ target.state = .rejected ∨ target.state = .authRequired ∨
      (target.state.retryable = true ∧ maxAttempts ≤ target.attemptCount ∧
        target.nextAttempt = none) := by
  simp [TargetRow.isBlocking, or_assoc, and_assoc]

variable [Sha256] {current : Snapshot}

theorem Snapshot.Live.givenUp_iff (live : current.Live) {target : TargetRow}
    (targetMem : target ∈ current.targets) (required : target.required = true) :
    GivenUp current.row.maxAttempts target ↔
      target.isBlocking current.row.maxAttempts = true := by
  rw [isBlocking_iff]
  constructor
  · rintro (rejected | refused | ⟨retryable, used⟩)
    · exact .inl rejected
    · exact .inr (.inl refused)
    · refine .inr (.inr ⟨retryable, used, ?_⟩)
      cases scheduled : target.nextAttempt with
      | none => rfl
      | some instant =>
          have spare := live.startable.isOpen target targetMem required (by rw [scheduled]; rfl)
          omega
  · rintro (rejected | refused | ⟨retryable, used, -⟩)
    · exact .inl rejected
    · exact .inr (.inl refused)
    · exact .inr (.inr ⟨retryable, used⟩)

theorem Snapshot.Live.consistent (live : current.Live) (requires : current.RequiresSome) :
    current.Consistent := by
  have coherent := live.coherent
  have tracked := coherent.attended.tracked
  have decided := coherent.decided
  have blocks : ∀ target ∈ current.targets, target.required = true →
      target.isBlocking current.row.maxAttempts = true → current.row.state = .blocked := by
    intro target targetMem required blocking
    cases state : current.row.state with
    | pending =>
        rw [(decided.undecided (.inl state) requires).2 target targetMem required] at blocking
        cases blocking
    | leased =>
        rw [(decided.undecided (.inr state) requires).2 target targetMem required] at blocking
        cases blocking
    | complete =>
        exact absurd (decided.complete state target targetMem required)
          (Snapshot.isBlocking_spec blocking).1
    | blocked => rfl
  refine ⟨?_, ?_, ?_, ⟨decided.complete, ?_⟩, ?_⟩
  · rw [List.countP_eq_length_filter]
    rcases coherent.submitted with none | ⟨target, -, -, single⟩
    · rw [none]
      exact Nat.zero_le 1
    · rw [single]
      exact Nat.le_refl 1
  · intro target targetMem submitted
    simpa using tracked.held target targetMem submitted
  · intro pending
    have quiet : Quiet current.targets := by
      intro target targetMem submitted
      have leased := tracked.held target targetMem submitted
      simp [pending] at leased
    have unblocked := (decided.undecided (.inl pending) requires).2
    have scheduled : ∀ target ∈ current.targets, target.required = true →
        target.state ≠ .accepted → target.nextAttempt.isSome = true :=
      fun target targetMem required unaccepted => (tracked.isSome_of_unblocked quiet targetMem
        unaccepted (unblocked target targetMem required)).2
    constructor
    · rcases (decided.undecided (.inl pending) requires).1 with
        ⟨target, targetMem, required, unaccepted⟩
      rcases Option.isSome_iff_exists.mp (scheduled target targetMem required unaccepted) with
        ⟨instant, isInstant⟩
      have listed : instant ∈ (current.targets.filter (·.required)).filterMap (·.nextAttempt) :=
        List.mem_filterMap.mpr ⟨target, List.mem_filter.mpr ⟨targetMem, required⟩, isInstant⟩
      rcases Option.isSome_iff_exists.mp (List.isSome_min?_of_mem listed) with ⟨least, found⟩
      refine ⟨least, (decided.least pending requires).trans found, ?_, ?_⟩
      · rcases List.mem_filterMap.mp (List.min?_mem found) with ⟨first, firstMem, isFirst⟩
        rcases List.mem_filter.mp firstMem with ⟨stored, firstRequired⟩
        refine ⟨first, stored, firstRequired, ?_, isFirst⟩
        intro accepted
        have retryable := tracked.scheduled first stored (by rw [isFirst]; rfl)
        rw [accepted] at retryable
        cases retryable
      · rintro other ⟨later, laterMem, laterRequired, -, isLater⟩
        exact (List.min?_eq_some_iff.mp found).2 other (List.mem_filterMap.mpr
          ⟨later, List.mem_filter.mpr ⟨laterMem, laterRequired⟩, isLater⟩)
    · intro target targetMem required unaccepted
      exact live.startable.isOpen target targetMem required
        (scheduled target targetMem required unaccepted)
  · intro accepted
    cases state : current.row.state with
    | pending =>
        rcases (decided.undecided (.inl state) requires).1 with
          ⟨target, targetMem, required, unaccepted⟩
        exact absurd (accepted target targetMem required) unaccepted
    | leased =>
        rcases (decided.undecided (.inr state) requires).1 with
          ⟨target, targetMem, required, unaccepted⟩
        exact absurd (accepted target targetMem required) unaccepted
    | complete => rfl
    | blocked =>
        rcases decided.blocked state with ⟨target, targetMem, required, blocking⟩
        exact absurd (accepted target targetMem required) (Snapshot.isBlocking_spec blocking).1
  · constructor
    · intro blocked
      rcases decided.blocked blocked with ⟨target, targetMem, required, blocking⟩
      exact ⟨target, targetMem, required, (live.givenUp_iff targetMem required).mpr blocking⟩
    · rintro ⟨target, targetMem, required, givenUp⟩
      exact blocks target targetMem required ((live.givenUp_iff targetMem required).mp givenUp)

end Consistency

section Readiness

variable [Sha256]

/-- The holder of a lease finds a due target at the instant of its claim. -/
structure Ready (lease : PublicationLease) (now : Nat) (current : Snapshot) : Prop where
  held : Held lease current.row
  early : now < lease.expiresAt
  forward : current.row.updatedAt ≤ now
  quiet : Quiet current.targets
  due : ∃ target ∈ current.targets, target.isDue current.row.maxAttempts now = true

theorem ready_of_claimNext {owner : LeaseOwner} {now : UnixMilliseconds}
    {binding : AuthorityBinding} {store next : Store} {lease : PublicationLease}
    (live : Every Snapshot.Live store)
    (done : claimNext owner now binding store = .ok (some lease, next)) :
    ∃ current, snapshot lease.outbox.id next = some current ∧ Ready lease now.get current := by
  rcases claimNext_spec done with ⟨current, selected, stepped, held⟩
  have isLive := live _ _ stepped.before
  rcases readClaimableOutbox_spec selected with ⟨rowMem, pending, instant, scheduled, reached⟩
  refine ⟨_, stepped.after, held, ?_, Nat.le_refl _, ?_, ?_⟩
  · have expires : some (now.get + current.row.attemptDeadline) = some lease.expiresAt :=
      held.expires
    have checked := store.outbox.checked current.row rowMem
    simp only [publicationOutbox, Bool.and_eq_true, decide_eq_true_eq] at checked
    have deadline := checked.1.2.2.2.2.2.2.2.2.2.1
    have isExpiry := Option.some.inj expires
    omega
  · intro target targetMem submitted
    have leased := isLive.coherent.attended.tracked.held target targetMem submitted
    simp [pending] at leased
  · rcases isLive.startable.due pending with ⟨start, isStart, target, targetMem, isDue⟩
    rw [scheduled] at isStart
    cases isStart
    refine ⟨target, targetMem, ?_⟩
    rcases TargetRow.isDue_spec isDue with ⟨retryable, spare, next, isNext, due⟩
    have later : next ≤ now.get := due.trans reached
    change target.isDue current.row.maxAttempts now.get = true
    simp [TargetRow.isDue, retryable, spare, isNext, later]

theorem claimNext_of_claimed {mode : HostMode} {disposition : Disposition} {owner : LeaseOwner}
    {now : UnixMilliseconds} {authority : PublicationAuthority} {store : Store}
    {lease : PublicationLease}
    (claimed : (claimNextPublication mode disposition owner now authority store).1 =
      .ok (some lease)) :
    ∃ binding, AuthorityBinding.fromAuthority authority = some binding ∧
      claimNext owner now binding store = .ok (some lease,
        (claimNextPublication mode disposition owner now authority store).2) := by
  unfold claimNextPublication at claimed ⊢
  split at claimed
  · cases claimed
  · rename_i writable
    rw [if_neg writable]
    split at claimed
    · cases claimed
    · rename_i binding isBinding
      exact ⟨binding, isBinding, transaction_ok claimed⟩

/-- A ready executor submits, unless the database refuses the write. -/
theorem prepare_of_ready {mode : HostMode} {disposition : Disposition} {lease : PublicationLease}
    {now : UnixMilliseconds} {store : Store} {current : Snapshot} {error : PublicationErrorKind}
    (orderly : Orderly store) (attended : current.Attended)
    (read : snapshot lease.outbox.id store = some current) (ready : Ready lease now.get current)
    (failed : (prepareNextPublicationTarget mode disposition lease now store).1 = .error error) :
    error = .invalidMode ∨ error = .storage ∨ error = .commitOutcomeUnknown := by
  unfold prepareNextPublicationTarget at failed
  split at failed
  · cases failed
    exact .inl rfl
  · right
    rcases transaction_error failed with rfl | rfl | ⟨failure, result, rfl⟩
    · exact .inl rfl
    · exact .inr rfl
    · rw [(prepareNext_error orderly read attended ready.held ready.early ready.forward ready.due
        result).1]
      exact .inl rfl

end Readiness

section Runs

variable [Sha256] [TradeEvidence]

def Move.retries : Move → Bool
  | .retry .. => true
  | _ => false

theorem fair_of_once {moves : List Move} {service : Service}
    (once : Transition.Along Move.apply Move.Once moves service)
    (unretried : ∀ move ∈ moves, move.retries = false) :
    Transition.Along Move.apply Move.Fair moves service := by
  induction moves generalizing service with
  | nil => trivial
  | cons move moves ih =>
      refine ⟨⟨once.1, ?_⟩, ih once.2 fun later laterMem => unretried later (by simp [laterMem])⟩
      have notRetry := unretried move (by simp)
      cases move with
      | retry => cases notRetry
      | _ => trivial

/-- In a run without retries that makes one attempt at a time, the state of every outbox with a
required target is the summary of its targets; whoever claims finds a due target; and neither a
verdict nor the search for an expired lease of the same authority breaks an invariant. -/
theorem outboxes_summarize_targets {moves : List Move}
    (once : Transition.Along Move.apply Move.Once moves .initial)
    (unretried : ∀ move ∈ moves, move.retries = false) :
    (∀ id current, snapshot id (exec moves .initial).store = some current →
      current.RequiresSome → current.Consistent) ∧
    (∀ (host : Host) owner now (authorized : Authorized) lease,
      (claimNextPublication host.mode .acknowledged owner now authorized.authority
        (exec moves .initial).store).1 = .ok (some lease) →
      (∃ target ∈ targetsOf lease.outbox.id (claimNextPublication host.mode .acknowledged owner now
          authorized.authority (exec moves .initial).store).2,
        target.isDue lease.outbox.maxAttempts now.get = true) ∧
      ∀ disposition error, (prepareNextPublicationTarget host.mode disposition lease now
          (claimNextPublication host.mode .acknowledged owner now authorized.authority
            (exec moves .initial).store).2).1 = .error error →
        error ≠ .notReady ∧ error ≠ .invariant) ∧
    (∀ input state settled,
      validateLease input.lease input.finishedAt (exec moves .initial).store = .ok () →
      writeOutcome input (exec moves .initial).store = .ok (state, settled) →
      ∃ decided, disposition input.lease.outbox
        (readTargets input.lease.outbox.id settled.targets.rows) = .ok decided) ∧
    (∀ lease now delay settled row,
      outboxRow lease.outbox.id (exec moves .initial).store = some row → Held lease row →
      recoverTargets lease now delay ((readTargets lease.outbox.id
        (exec moves .initial).store.targets.rows).filter fun target => target.state == .submitted)
        (exec moves .initial).store = .ok settled →
      ∃ decided, disposition lease.outbox
        (readTargets lease.outbox.id settled.targets.rows) = .ok decided) ∧
    (∀ now binding row,
      readExpiredOutbox now.get (exec moves .initial).store.outbox.rows = some row →
      Bound binding row →
      readExpiredCandidate now binding (exec moves .initial).store ≠ .error .invariant) := by
  have orderly := orderly_exec moves
  have live := live_exec (fair_of_once once unretried)
  have coherent : Every Snapshot.Coherent (exec moves .initial).store :=
    fun id current read => (live id current read).coherent
  generalize (exec moves .initial).store = store at orderly live coherent
  refine ⟨fun id current read requires => (live id current read).consistent requires, ?_, ?_,
    ?_, ?_⟩
  · intro host owner now authorized lease claimed
    rcases claimNext_of_claimed claimed with ⟨binding, -, done⟩
    have orderlyNext := orderly_apply (.claim .acknowledged owner now authorized)
      ⟨store, some host⟩ orderly
    have liveNext := live_apply (.claim .acknowledged owner now authorized) ⟨store, some host⟩
      ⟨trivial, trivial⟩ orderly live
    rcases ready_of_claimNext live done with ⟨current, read, ready⟩
    constructor
    · rw [(snapshot_eq_some.mp read).2.1, ready.held.maxAttempts]
      exact ready.due
    · intro disposition error failed
      have attended := (liveNext _ _ read).coherent.attended
      rcases prepare_of_ready orderlyNext attended read ready failed with rfl | rfl | rfl
      all_goals decide
  · intro input state settled valid written
    rcases validateLease_spec valid with ⟨-, row, stored, held⟩
    have read : snapshot input.lease.outbox.id store = some ⟨row,
        targetsOf input.lease.outbox.id store, deliveriesOf input.lease.outbox.id store⟩ :=
      snapshot_eq_some.mpr ⟨stored, rfl, rfl⟩
    have isCoherent := coherent _ _ read
    rcases writeOutcome_spec written read held.maxAttempts with
      ⟨schedule, old, settles, -, -, settledRead⟩
    have decides := @disposition_of_settled _ _ _ _ _ _ (some input.lease.owner) isCoherent.sound
      isCoherent.attended (.one rfl settles) (isCoherent.sound.settle settles) settledRead
    rwa [← held.outbox] at decides
  · intro lease now delay settled row stored held recovered
    have read : snapshot lease.outbox.id store = some ⟨row, targetsOf lease.outbox.id store,
        deliveriesOf lease.outbox.id store⟩ := snapshot_eq_some.mpr ⟨stored, rfl, rfl⟩
    have isCoherent := coherent _ _ read
    rw [readTargets_of_sorted isCoherent.sound.sorted] at recovered
    rcases recoverTargets_spec recovered read held.maxAttempts with
      ⟨last, recovers, -, settledRead⟩
    have settlement := recovers.settlement isCoherent.sound isCoherent.attended
    have decides := @disposition_of_settled _ _ _ _ _ _ (some lease.owner) isCoherent.sound
      isCoherent.attended settlement (settlement.sound isCoherent.sound) settledRead
    rwa [← held.outbox] at decides
  · intro now binding row selected bound broken
    rcases (readExpiredCandidate_invariant coherent).mp broken with ⟨oldest, isOldest, unbound⟩
    rw [selected] at isOldest
    cases isOldest
    exact unbound bound

end Runs

section Exceptions

namespace Sample

open Rhi.Sample

local instance : Sha256 := ⟨Hashing.sha256⟩

local instance : TradeEvidence where
  Mutation := Unit
  mutationId _ := none
  tradeId _ := trade
  acceptsSourceId _ := true
  acceptsSourceResult _ _ _ := true
  manifest _ := none
  decode _ := none
  reduce _ _ _ _ := ⟨none, none, .missing, 0, [], [], [], [], false⟩

def backup : SourceId := ⟨"trade-backup", by decide⟩

/-- Two relays, the second of them optional, with one attempt each. -/
def document : PublicationDocument where
  configuration := configuration.binding.normalizedConfig
  relays := [⟨source, true, true⟩, ⟨backup, true, false⟩]
  publication := .required [source, backup] ⟨1, 1000, 10000, 5000⟩
  queueCapacity := 4

def authorized : Authorized :=
  ⟨document, (deriveAuthority document).get (by decide +kernel), (Option.some_get _).symm⟩

def signed : SignedAttestation :=
  ⟨{ attestation with
      signedEventDigest := Sha256.digest attestation.signedEvent
      leased := rfl
      attempted := by decide }, rfl⟩

theorem calls_publish : ∀ call ∈ calls, call.publishes = false := by simp [calls, Call.publishes]

/-- The report is signed and its publication is committed. -/
def finalized : List Move :=
  calls.pmap Move.service calls_publish ++
    [.finalize .acknowledged signed authorized finalizedAt]

def outbox : Digest :=
  outboxId signed.attestation.eventId authorized.authority.authority authorized.authority.targetSet

def publishedAt : UnixMilliseconds := ⟨1000003000, by decide⟩

def claimed : List Move := finalized ++ [.claim .acknowledged owner publishedAt authorized]

def leased : Option PublicationLease :=
  (claimNextPublication host.mode .acknowledged owner publishedAt authorized.authority
    (exec finalized .initial).store).1.toOption.join

def prepared (lease : PublicationLease) : Option PreparedAttempt :=
  (prepareNextPublicationTarget host.mode .acknowledged lease publishedAt
    (exec claimed .initial).store).1.toOption

theorem answered_bounded : 1000003500 ≤ maxInteger := by decide

/-- The required relay accepts the report on its only attempt. -/
def accepted : List Move := claimed ++
  (leased.toList.map fun lease => .prepare .acknowledged lease publishedAt) ++
  ((leased.bind prepared).toList.map fun prepared =>
    .record .acknowledged prepared ⟨1000003500, answered_bounded⟩ .accepted 0)

/-- One lease is used for two attempts. -/
def twice : List Move := claimed ++
  (leased.toList.flatMap fun lease => [.prepare .acknowledged lease publishedAt,
    .prepare .acknowledged lease publishedAt])

/-- What the two runs do and leave. -/
theorem runs_evaluated :
    ((∀ move ∈ accepted, move.retries = false) ∧ (∀ move ∈ twice, move.retries = false) ∧
      (∃ current ∈ snapshot outbox (exec accepted .initial).store,
        (∃ target ∈ current.targets, target.required = true) ∧ current.row.state = .complete ∧
          ¬(current.row.state = .blocked ↔ ∃ target ∈ current.targets, target.required = true ∧
            (target.state = .rejected ∨ target.state = .authRequired ∨
              current.row.maxAttempts ≤ target.attemptCount))) ∧
      ∃ current ∈ snapshot outbox (exec twice .initial).store,
        ¬(current.targets.countP fun target => target.state == .submitted) ≤ 1) ∧
    ∀ lease ∈ leased, ∀ target ∈ targetsOf lease.outbox.id (exec claimed .initial).store,
      target.state ≠ .submitted := by
  decide +kernel

/-- Neither run retries.  In the first the outbox is complete although its required target has used
its attempts; in the second two targets of one outbox are under way. -/
theorem outbox_complete_with_used_attempts :
    (∀ move ∈ accepted, move.retries = false) ∧ (∀ move ∈ twice, move.retries = false) ∧
    (∃ current ∈ snapshot outbox (exec accepted .initial).store,
      (∃ target ∈ current.targets, target.required = true) ∧ current.row.state = .complete ∧
        ¬(current.row.state = .blocked ↔ ∃ target ∈ current.targets, target.required = true ∧
          (target.state = .rejected ∨ target.state = .authRequired ∨
            current.row.maxAttempts ≤ target.attemptCount))) ∧
    ∃ current ∈ snapshot outbox (exec twice .initial).store,
      ¬(current.targets.countP fun target => target.state == .submitted) ≤ 1 :=
  runs_evaluated.1

/-- Attempts at an outbox without one under way are made one at a time. -/
theorem once_of_quiet {moves : List Move} {lease : Option PublicationLease}
    {prepare : PublicationLease → Option PreparedAttempt} {finished : UnixMilliseconds}
    (once : Transition.Along Move.apply Move.Once moves .initial)
    (quiet : ∀ held ∈ lease, Quiet (targetsOf held.outbox.id (exec moves .initial).store)) :
    Transition.Along Move.apply Move.Once (moves ++
      (lease.toList.map fun held => .prepare .acknowledged held publishedAt) ++
      ((lease.bind prepare).toList.map fun attempt =>
        .record .acknowledged attempt finished .accepted 0)) .initial := by
  rw [List.append_assoc, Transition.Along.append]
  refine ⟨once, ?_⟩
  cases lease with
  | none => simp [Transition.Along]
  | some held =>
      have isQuiet : Quiet (targetsOf held.outbox.id (exec moves .initial).store) := quiet held rfl
      cases isPrepared : prepare held with
      | none => exact ⟨fun _ _ _ => isQuiet, by simp [isPrepared, Transition.Along]⟩
      | some attempt =>
          exact ⟨fun _ _ _ => isQuiet, by simp [isPrepared, Transition.Along, Move.Once]⟩

/-- The first of these runs makes one attempt at a time, and ends in a consistent outbox. -/
theorem accepted_summarized :
    (∃ current ∈ snapshot outbox (exec accepted .initial).store,
      current.row.state = .complete) ∧
    ∀ id current, snapshot id (exec accepted .initial).store = some current →
      current.RequiresSome → current.Consistent := by
  rcases runs_evaluated with ⟨⟨unretried, -, ⟨current, isCurrent, -, complete, -⟩, -⟩, quiet⟩
  have claimedOnce : Transition.Along Move.apply Move.Once claimed .initial := by
    simp [claimed, finalized, calls, Transition.Along, Move.Once]
  exact ⟨⟨current, isCurrent, complete⟩,
    (outboxes_summarize_targets (once_of_quiet claimedOnce quiet) unretried).1⟩

end Sample

end Exceptions

end Publication

end Rhi
