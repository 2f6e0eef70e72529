import Rhi.Publication.History
import Rhi.Publication.Log

/-!
# Retries of blocked outboxes

A retry schedules the targets of a blocked outbox again but gives them no attempts.  In a run that
retries no outbox with a used-up required target, whoever claims an outbox has a target to submit.
-/

namespace Rhi

open Relational Transactional

namespace Publication

section Deliverability

variable [Sha256] [TradeEvidence]

/-- The move retries no outbox one of whose required targets has used its attempts. -/
def PublishersMove.Reopens (state : Publishers) : PublishersMove → Prop
  | .executor _ _ | .crash _ => True
  | .other move _ => move.Reopens state.service

omit [TradeEvidence] in
theorem reopens_of_call {move : PublishersMove} {state : Publishers} {call : Move}
    (reopens : move.Reopens state) (isCall : move.call state = some call) :
    call.Reopens state.service := by
  cases move with
  | crash index => cases isCall
  | other move external =>
      cases isCall
      exact reopens
  | executor index move =>
      simp only [PublishersMove.call] at isCall
      split at isCall
      · have internal := Executor.call_spec isCall
        cases call with
        | retry => cases internal
        | _ => trivial
      · cases isCall

/-- The attempt is one at a target of its outbox, under the identity that belongs to it. -/
structure Submits (prepared : PreparedAttempt) (store : Store) : Prop where
  identified : deriveAttemptId prepared.publication.outboxId prepared.publication.eventDigest
    prepared.target.targetOrdinal prepared.target.attemptCount = prepared.attemptId
  listed : ∃ target ∈ targetsOf prepared.lease.outbox.id store,
    target.targetOrdinal = prepared.target.targetOrdinal

omit [TradeEvidence] in
theorem submits_of_prepareNext {lease : PublicationLease} {now : UnixMilliseconds}
    {store next : Store} {prepared : PreparedAttempt} (orderly : Orderly next)
    (coherent : Every Snapshot.Coherent next)
    (done : prepareNext lease now store = .ok (prepared, next)) : Submits prepared next := by
  rcases prepareNext_spec done with
    ⟨current, old, held, stepped, rfl, -, isTarget, oldMem, -, committed⟩
  rcases snapshot_eq_some.mp stepped.after with ⟨stored, targets, -⟩
  have written : prepared.target ∈ (current.prepare prepared.attemptId now.get old).targets := by
    rw [isTarget]
    exact exchanged_mem oldMem
  have submitted : prepared.target.state = .submitted := by
    rw [isTarget]
    rfl
  constructor
  · have identified := (coherent _ _ stepped.after).attended.identified prepared.target written
      submitted
    have named : prepared.target.lastAttemptId = some prepared.attemptId := by
      rw [isTarget]
      rfl
    rcases readCommitted_of_committed orderly.committed stored with ⟨event, -, isEvent, read⟩
    rw [read] at committed
    rw [named] at identified
    rw [← Except.ok.inj committed, isEvent.digest]
    exact (Option.some.inj identified).symm
  · refine ⟨prepared.target, ?_, rfl⟩
    rw [targets]
    exact written

omit [TradeEvidence] in
theorem Submits.advance {prepared : PreparedAttempt} {move : Move} {service : Service}
    {after : Store} (submits : Submits prepared service.store) (orderly : Orderly service.store)
    (advance : Advance move service after) : Submits prepared after := by
  rcases submits.listed with ⟨target, targetMem, ordinal⟩
  refine ⟨submits.identified, ?_⟩
  cases stored : outboxRow prepared.lease.outbox.id service.store with
  | none =>
      rw [(orderly.referenced _ stored).1] at targetMem
      cases targetMem
  | some row =>
      have read : snapshot prepared.lease.outbox.id service.store = some ⟨row, _, _⟩ :=
        snapshot_eq_some.mpr ⟨stored, rfl, rfl⟩
      rcases follows_of_advance advance read with ⟨next, isNext, follows⟩
      rcases follows.targets target targetMem with ⟨successor, successorMem, same, -⟩
      rw [(snapshot_eq_some.mp isNext).2.1]
      exact ⟨successor, successorMem, same.trans ordinal⟩

/-- Every holder of a lease has a due target, and every submission is one of its outbox. -/
structure Deliverable (state : Publishers) : Prop where
  disciplined : Disciplined state
  live : Every Snapshot.Live state.service.store
  ready : ∀ index now lease, state.executors index = .claimed now lease →
    ∀ current, snapshot lease.outbox.id state.service.store = some current →
      Held lease current.row → Ready lease now.get current
  submits : ∀ index prepared, state.executors index = .submitting prepared →
    Submits prepared state.service.store

theorem deliverable_apply (move : PublishersMove) (state : Publishers)
    (reopens : move.Reopens state) (deliverable : Deliverable state) :
    Deliverable (state.apply move) := by
  have disciplined := deliverable.disciplined
  have next := disciplined_apply move state disciplined
  refine ⟨next, ?_, ?_, ?_⟩
  · rw [service_apply]
    cases isCall : move.call state with
    | none => exact deliverable.live
    | some call =>
        exact live_apply call state.service
          ⟨disciplined.once isCall, reopens_of_call reopens isCall⟩
          disciplined.orderly deliverable.live
  · intro index now lease isClaimed current read held
    rcases claimed_of_apply disciplined isClaimed with ⟨before, unchanged⟩ | ⟨owner, binding, done⟩
    · rw [snapshot_congr (unchanged _ (snapshot_eq_some.mp read).1 held)] at read
      exact deliverable.ready index now lease before current read held
    · rcases ready_of_claimNext deliverable.live done with ⟨claimed, isClaimed, ready⟩
      rw [read] at isClaimed
      cases isClaimed
      exact ready
  · intro index prepared isSubmitting
    rcases submitting_of_apply isSubmitting with already | ⟨now, lease, -, done⟩
    · rcases advance_of_publishers move disciplined.orderly with ⟨call, advance⟩
      exact (deliverable.submits index prepared already).advance disciplined.orderly advance
    · exact submits_of_prepareNext next.orderly next.coherent done

theorem deliverable_exec {moves before : List PublishersMove}
    (reopens : Transition.Along Publishers.apply (fun state move => move.Reopens state) moves
      .initial)
    (reached : before <+: moves) : Deliverable (Publishers.exec before .initial) := by
  refine reopens.invariant_of_isPrefix deliverable_apply ?_ reached
  refine ⟨disciplined_exec [], ?_, ?_, ?_⟩
  · intro id current read
    cases read
  · intro index now lease isClaimed
    cases isClaimed
  · intro index prepared isSubmitting
    cases isSubmitting

end Deliverability

section Iterations

variable [Sha256] [TradeEvidence]

omit [TradeEvidence] in
/-- A holder that lost its lease is told so; another finds a due target. -/
theorem Deliverable.prepare_error {state : Publishers} {index : Nat} {now : UnixMilliseconds}
    {lease : PublicationLease} {disposition : Disposition} {error : PublicationErrorKind}
    (deliverable : Deliverable state) (isClaimed : state.executors index = .claimed now lease)
    (failed : (prepareNextPublicationTarget .readWriteExisting disposition lease now
      state.service.store).1 = .error error) :
    error ≠ .notReady ∧ error ≠ .invariant := by
  have orderly := deliverable.disciplined.orderly
  cases valid : validateLease lease now.get state.service.store with
  | error failure =>
      have lost := validateLease_error orderly.sound valid
      subst lost
      have result : prepareNext lease now state.service.store = .error .leaseLost := by
        simp only [prepareNext, valid, bind, Except.bind]
      simp only [prepareNextPublicationTarget, ne_eq, not_true_eq_false, if_false] at failed
      rcases transaction_error failed with rfl | rfl | ⟨failure, isFailure, rfl⟩
      · decide
      · decide
      · rw [result] at isFailure
        cases isFailure
        decide
  | ok _ =>
      rcases validateLease_spec valid with ⟨early, row, stored, held⟩
      have read : snapshot lease.outbox.id state.service.store = some ⟨row, _, _⟩ :=
        snapshot_eq_some.mpr ⟨stored, rfl, rfl⟩
      have ready := deliverable.ready index now lease isClaimed _ read held
      have attended := (deliverable.live _ _ read).coherent.attended
      rcases prepare_of_ready orderly attended read ready failed with rfl | rfl | rfl
      all_goals decide

omit [TradeEvidence] in
/-- A record breaks an invariant only when its attempt is in the log already. -/
theorem Deliverable.record_error {state : Publishers} {index : Nat} {prepared : PreparedAttempt}
    {disposition : Disposition} {finishedAt : UnixMilliseconds} {outcome : AttemptOutcome}
    {delay : Nat} {error : PublicationErrorKind} (deliverable : Deliverable state)
    (isSubmitting : state.executors index = .submitting prepared)
    (failed : (recordPublicationOutcome .readWriteExisting disposition prepared finishedAt outcome
      delay state.service.store).1 = .error error)
    (broken : error = .notReady ∨ error = .invariant) :
    ∃ row ∈ state.service.store.deliveries.rows, row.attemptId = prepared.attemptId := by
  have submits := deliverable.submits index prepared isSubmitting
  by_contra fresh
  simp only [recordPublicationOutcome, ne_eq, not_true_eq_false, if_false] at failed
  cases made : RecordInput.fromPrepared prepared finishedAt outcome delay with
  | error refused =>
      rw [made] at failed
      cases failed
      simp only [RecordInput.fromPrepared, submits.identified, bind_eq_error, require_eq_error,
        beq_self_eq_true, reduceCtorEq, false_and, pure_ne_error, and_false, exists_false,
        or_false] at made
      rcases made with ⟨-, rfl⟩ | ⟨-, -, -, rfl⟩ <;> simp at broken
  | ok input =>
      rw [made] at failed
      simp only [RecordInput.fromPrepared, bind_eq_ok, require_eq_ok, pure_eq_ok] at made
      rcases made with ⟨-, -, -, -, -, -, rfl⟩
      rcases transaction_error failed with rfl | rfl | ⟨failure, isFailure, rfl⟩
      · simp [mapPublicationError] at broken
      · simp [mapPublicationError] at broken
      · have kinds := recordOutcome_error deliverable.disciplined.coherent
          (fun row rowMem same => fresh ⟨row, rowMem, same⟩) submits.listed isFailure
        cases failure <;> simp [mapPublicationError] at broken kinds

omit [TradeEvidence] in
/-- A ready holder submits a target of its outbox. -/
theorem Deliverable.prepares {state : Publishers} {index : Nat} {now : UnixMilliseconds}
    {lease : PublicationLease} {row : OutboxRow} (deliverable : Deliverable state)
    (isClaimed : state.executors index = .claimed now lease)
    (stored : outboxRow lease.outbox.id state.service.store = some row) (held : Held lease row)
    (room : ∀ target ∈ targetsOf lease.outbox.id state.service.store,
      target.revision < maxInteger) :
    ∃ prepared, (prepareNextPublicationTarget .readWriteExisting .acknowledged lease now
      state.service.store).1 = .ok prepared ∧ prepared.lease = lease := by
  have read : snapshot lease.outbox.id state.service.store = some ⟨row, _, _⟩ :=
    snapshot_eq_some.mpr ⟨stored, rfl, rfl⟩
  have ready := deliverable.ready index now lease isClaimed _ read held
  cases result : prepareNext lease now state.service.store with
  | error failure =>
      rcases (prepareNext_error deliverable.disciplined.orderly read
        (deliverable.live _ _ read).coherent.attended held ready.early ready.forward ready.due
        result).2 with ⟨target, targetMem, used⟩
      have spare := room target targetMem
      omega
  | ok value =>
      rcases value with ⟨prepared, next⟩
      rcases prepareNext_spec result with ⟨-, -, -, -, sameLease, -⟩
      refine ⟨prepared, ?_, sameLease⟩
      simp only [prepareNextPublicationTarget, ne_eq, not_true_eq_false, if_false,
        transaction_acknowledged result]

omit [TradeEvidence] in
theorem Deliverable.claim_error {state : Publishers} {disposition : Disposition}
    {owner : LeaseOwner} {now : UnixMilliseconds} {authority : PublicationAuthority}
    {error : PublicationErrorKind} (deliverable : Deliverable state)
    (failed : (claimNextPublication .readWriteExisting disposition owner now authority
      state.service.store).1 = .error error)
    (broken : error = .notReady ∨ error = .invariant) :
    ∃ binding ∈ AuthorityBinding.fromAuthority authority, ∃ row,
      readClaimableOutbox now.get state.service.store.outbox.rows = some row ∧
        ¬Bound binding row := by
  simp only [claimNextPublication, ne_eq, not_true_eq_false, if_false] at failed
  cases isBinding : AuthorityBinding.fromAuthority authority with
  | none => simp [isBinding] at failed
  | some binding =>
      rw [isBinding] at failed
      rcases transaction_error failed with rfl | rfl | ⟨failure, result, rfl⟩
      · simp [mapPublicationError] at broken
      · simp [mapPublicationError] at broken
      · cases failure with
        | notReady => exact absurd result claimNext_ne_notReady
        | invariant =>
            exact ⟨binding, rfl, (claimNext_invariant deliverable.disciplined.orderly).mp result⟩
        | _ => simp [mapPublicationError] at broken

omit [TradeEvidence] in
theorem Deliverable.search_error {state : Publishers} {disposition : Disposition}
    {now : UnixMilliseconds} {authority : PublicationAuthority} {error : PublicationErrorKind}
    (deliverable : Deliverable state)
    (failed : readExpiredPublication .readWriteExisting disposition now authority
      state.service.store = .error error)
    (broken : error = .notReady ∨ error = .invariant) :
    ∃ binding ∈ AuthorityBinding.fromAuthority authority, ∃ row,
      readExpiredOutbox now.get state.service.store.outbox.rows = some row ∧
        ¬Bound binding row := by
  simp only [readExpiredPublication, ne_eq, not_true_eq_false, if_false] at failed
  cases isBinding : AuthorityBinding.fromAuthority authority with
  | none => simp [isBinding] at failed
  | some binding =>
      rw [isBinding] at failed
      rcases transaction_error failed with rfl | rfl | ⟨failure, result, rfl⟩
      · simp [mapPublicationError] at broken
      · simp [mapPublicationError] at broken
      · simp only [bind_eq_error, pure_ne_error, and_false, exists_false, or_false] at result
        cases failure with
        | notReady => exact absurd result readExpiredCandidate_ne_notReady
        | invariant =>
            exact ⟨binding, rfl,
              (readExpiredCandidate_invariant deliverable.disciplined.coherent).mp result⟩
        | _ => simp [mapPublicationError] at broken

omit [TradeEvidence] in
theorem Deliverable.recover_error {state : Publishers} {disposition : Disposition}
    {candidate : RecoveryCandidate} {now : UnixMilliseconds} {delay : Nat}
    {error : PublicationErrorKind} (deliverable : Deliverable state)
    (failed : (recoverExpiredPublication disposition candidate now delay
      state.service.store).1 = .error error)
    (broken : error = .notReady ∨ error = .invariant) :
    Collides candidate.outbox.id state.service.store := by
  by_contra apart
  rcases transaction_error failed with rfl | rfl | ⟨failure, result, rfl⟩
  · simp [mapPublicationError] at broken
  · simp [mapPublicationError] at broken
  · have kinds := recoverExpired_error deliverable.disciplined.orderly
      deliverable.disciplined.coherent apart result
    cases failure <;> simp [mapPublicationError] at broken kinds

/-- In every run of executors, crashes, finalizations and retries in which no retried outbox has a
required target with used-up attempts, a pending outbox has a target that is due with it, whoever
claims an outbox submits one of its targets, and no transaction of an iteration returns `NotReady`
or `Invariant`, but for an outbox of another authority, for an attempt that is in the log already,
and for two attempts of one identity. -/
theorem retried_outboxes_deliverable {moves before : List PublishersMove}
    (reopens : Transition.Along Publishers.apply (fun state move => move.Reopens state) moves
      .initial)
    (reached : before <+: moves) :
    (∀ id current,
      snapshot id (Publishers.exec before .initial).service.store = some current →
      current.row.state = .pending → ∃ instant, current.row.nextAttempt = some instant ∧
        ∃ target ∈ current.targets, target.isDue current.row.maxAttempts instant = true) ∧
    (∀ index now lease, (Publishers.exec before .initial).executors index = .claimed now lease →
      (∀ disposition error, (prepareNextPublicationTarget .readWriteExisting disposition lease now
          (Publishers.exec before .initial).service.store).1 = .error error →
        error ≠ .notReady ∧ error ≠ .invariant) ∧
      ∀ row, outboxRow lease.outbox.id (Publishers.exec before .initial).service.store = some row →
        Held lease row →
        (∃ target ∈ targetsOf lease.outbox.id (Publishers.exec before .initial).service.store,
          target.isDue row.maxAttempts now.get = true) ∧
        ((∀ target ∈ targetsOf lease.outbox.id (Publishers.exec before .initial).service.store,
            target.revision < maxInteger) →
          ∃ prepared, (prepareNextPublicationTarget .readWriteExisting .acknowledged lease now
            (Publishers.exec before .initial).service.store).1 = .ok prepared ∧
              prepared.lease = lease)) ∧
    (∀ index prepared, (Publishers.exec before .initial).executors index = .submitting prepared →
      ∀ disposition finishedAt outcome delay error,
        (recordPublicationOutcome .readWriteExisting disposition prepared finishedAt outcome delay
          (Publishers.exec before .initial).service.store).1 = .error error →
        error = .notReady ∨ error = .invariant →
        ∃ row ∈ (Publishers.exec before .initial).service.store.deliveries.rows,
          row.attemptId = prepared.attemptId) ∧
    (∀ disposition owner now authority error,
      (claimNextPublication .readWriteExisting disposition owner now authority
        (Publishers.exec before .initial).service.store).1 = .error error →
      error = .notReady ∨ error = .invariant →
      ∃ binding ∈ AuthorityBinding.fromAuthority authority, ∃ row,
        readClaimableOutbox now.get
          (Publishers.exec before .initial).service.store.outbox.rows = some row ∧
        ¬Bound binding row) ∧
    (∀ disposition now authority error,
      readExpiredPublication .readWriteExisting disposition now authority
        (Publishers.exec before .initial).service.store = .error error →
      error = .notReady ∨ error = .invariant →
      ∃ binding ∈ AuthorityBinding.fromAuthority authority, ∃ row,
        readExpiredOutbox now.get
          (Publishers.exec before .initial).service.store.outbox.rows = some row ∧
        ¬Bound binding row) ∧
    (∀ disposition candidate now delay error,
      (recoverExpiredPublication disposition candidate now delay
        (Publishers.exec before .initial).service.store).1 = .error error →
      error = .notReady ∨ error = .invariant →
      Collides candidate.outbox.id (Publishers.exec before .initial).service.store) := by
  have deliverable := deliverable_exec reopens reached
  refine ⟨?_, ?_, ?_, ?_, ?_, ?_⟩
  · intro id current read pending
    exact (deliverable.live id current read).startable.due pending
  · intro index now lease isClaimed
    constructor
    · intro disposition error failed
      exact deliverable.prepare_error isClaimed failed
    · intro row stored held
      have read : snapshot lease.outbox.id (Publishers.exec before .initial).service.store =
          some ⟨row, _, _⟩ := snapshot_eq_some.mpr ⟨stored, rfl, rfl⟩
      exact ⟨(deliverable.ready index now lease isClaimed _ read held).due,
        deliverable.prepares isClaimed stored held⟩
  · intro index prepared isSubmitting disposition finishedAt outcome delay error failed broken
    exact deliverable.record_error isSubmitting failed broken
  · intro disposition owner now authority error failed broken
    exact deliverable.claim_error failed broken
  · intro disposition now authority error failed broken
    exact deliverable.search_error failed broken
  · intro disposition candidate now delay error failed broken
    exact deliverable.recover_error failed broken

end Iterations

section Exceptions

namespace Sample

open Rhi.Sample

local instance : Sha256 := ⟨Hashing.sha256⟩

local instance : TradeEvidence where
  Mutation := Unit
  mutationId _ := none
  tradeId _ := trade
  acceptsSourceId _ := true
  acceptsSourceResult _ _ _ := true
  manifest _ := none
  decode _ := none
  reduce _ _ _ _ := ⟨none, none, .missing, 0, [], [], [], [], false⟩

/-- One required relay, with the given number of attempts. -/
def soleDocument (attempts : Nat) : PublicationDocument := { document with
  publication := .required [source] ⟨attempts, 1000, 10000, 5000⟩ }

def once : Authorized :=
  ⟨soleDocument 1, (deriveAuthority (soleDocument 1)).get (by decide +kernel),
    (Option.some_get _).symm⟩

def again : Authorized :=
  ⟨soleDocument 2, (deriveAuthority (soleDocument 2)).get (by decide +kernel),
    (Option.some_get _).symm⟩

def retriedAt : UnixMilliseconds := ⟨1000004000, by decide⟩

def soleOutbox (authorized : Authorized) : Digest :=
  outboxId signed.attestation.eventId authorized.authority.authority authorized.authority.targetSet

theorem calls_external : ∀ move ∈ calls.pmap Move.service calls_publish,
    move.isExternal = true := by
  simp [calls, Move.isExternal]

/-- The relay answers the first attempt with the given outcome, which blocks the outbox. -/
def blocked (authorized : Authorized) (outcome : AttemptOutcome) : List PublishersMove :=
  (calls.pmap Move.service calls_publish).pmap PublishersMove.other calls_external ++
    [.other (.finalize .acknowledged signed authorized finalizedAt) rfl,
      .executor 0 (.begin .acknowledged publishedAt authorized),
      .executor 0 (.claim .acknowledged owner),
      .executor 0 (.prepare .acknowledged),
      .executor 0 (.record .acknowledged ⟨1000003500, answered_bounded⟩ outcome 0)]

/-- The operator retries, and the executor claims the outbox again. -/
def retried (authorized : Authorized) : List PublishersMove := [
  .other (.retry .acknowledged (soleOutbox authorized) 3 1 retriedAt) rfl,
  .executor 0 (.begin .acknowledged retriedAt authorized),
  .executor 0 (.claim .acknowledged owner)]

def holder (moves : List PublishersMove) : Option PublicationLease :=
  match (Publishers.exec moves .initial).executors 0 with
  | .claimed _ lease => some lease
  | _ => none

theorem holder_eq_some {moves : List PublishersMove} {lease : PublicationLease}
    (isHolder : holder moves = some lease) :
    ∃ now, (Publishers.exec moves .initial).executors 0 = .claimed now lease := by
  unfold holder at isHolder
  split at isHolder
  case h_1 now held isClaimed =>
    cases isHolder
    exact ⟨now, isClaimed⟩
  case h_2 => cases isHolder

/-- A failed attempt was the only one.  The retry succeeds, the outbox is claimed, and nothing of it
is due. -/
theorem exhausted_outbox_not_ready :
    (publicationRetry .acknowledged (soleOutbox once) 3 1 retriedAt
      (Publishers.exec (blocked once .failed) .initial).service.store).1 = .ok () ∧
    ∃ lease ∈ holder (blocked once .failed ++ retried once),
      lease.outbox.id = soleOutbox once ∧
      (prepareNextPublicationTarget .readWriteExisting .acknowledged lease retriedAt
        (Publishers.exec (blocked once .failed ++ retried once) .initial).service.store).1 =
          .error .notReady := by
  decide +kernel

/-- The run of a retry reopens the outbox when its targets have attempts to spare. -/
theorem reopens_retried {authorized : Authorized} {outcome : AttemptOutcome}
    (spare : ∀ row ∈ outboxRow (soleOutbox authorized)
        (Publishers.exec (blocked authorized outcome) .initial).service.store,
      ∀ target ∈ targetsOf (soleOutbox authorized)
          (Publishers.exec (blocked authorized outcome) .initial).service.store,
        target.required = true → target.state ≠ .accepted →
          target.attemptCount < row.maxAttempts) :
    Transition.Along Publishers.apply (fun state move => move.Reopens state)
      (blocked authorized outcome ++ retried authorized) .initial := by
  rw [Transition.Along.append]
  constructor
  · simp [blocked, calls, Transition.Along, PublishersMove.Reopens, Move.Reopens]
  · change Transition.Along _ _ (retried authorized)
      (Publishers.exec (blocked authorized outcome) .initial)
    generalize Publishers.exec (blocked authorized outcome) .initial = state at spare
    exact ⟨spare, trivial, trivial, trivial⟩

/-- A rejected attempt was the first of two.  After the retry the holder of the lease has a target
to submit. -/
theorem rejected_outbox_ready :
    ∃ now lease, (Publishers.exec (blocked again .rejected ++ retried again) .initial).executors 0 =
        .claimed now lease ∧ lease.outbox.id = soleOutbox again ∧
      ∀ disposition error, (prepareNextPublicationTarget .readWriteExisting disposition lease now
          (Publishers.exec (blocked again .rejected ++ retried again) .initial).service.store).1 =
            .error error → error ≠ .notReady ∧ error ≠ .invariant := by
  have facts : (∃ lease ∈ holder (blocked again .rejected ++ retried again),
      lease.outbox.id = soleOutbox again) ∧
      ∀ row ∈ outboxRow (soleOutbox again)
          (Publishers.exec (blocked again .rejected) .initial).service.store,
        ∀ target ∈ targetsOf (soleOutbox again)
            (Publishers.exec (blocked again .rejected) .initial).service.store,
          target.required = true → target.state ≠ .accepted →
            target.attemptCount < row.maxAttempts := by
    decide +kernel
  rcases facts with ⟨⟨lease, isHolder, isOutbox⟩, spare⟩
  rcases holder_eq_some isHolder with ⟨now, isClaimed⟩
  have reopens := reopens_retried spare
  exact ⟨now, lease, isClaimed, isOutbox,
    ((retried_outboxes_deliverable reopens List.prefix_rfl).2.1 0 now lease isClaimed).1⟩

end Sample

end Exceptions

end Publication

end Rhi
