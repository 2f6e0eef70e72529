import Mathlib.Logic.Function.Basic
import Rhi.Publication.Guarantees

/-!
# Publication by several executors

Any number of executors run `execute_next_publication` over one store, each move being one
transaction of one of them; they may crash between any two.  The revision of an outbox fences them:
no two executors hold the same revision, so that an attempt is made only when none is under way.
-/

namespace Rhi

open Relational Transactional

namespace Publication

section System

variable [Sha256] [TradeEvidence]

/-- `sample_retry_delay`: any delay up to the bound. -/
def sampleRetryDelay (cap sample : Nat) : Nat :=
  if cap = 0 then 0 else sample % (cap + 1)

/-- How far an iteration of `execute_next_publication` has come. -/
inductive Executor where
  | idle
  | recovering (now : UnixMilliseconds) (authorized : Authorized) (candidate : RecoveryCandidate)
  | ready (now : UnixMilliseconds) (authorized : Authorized)
  | claimed (now : UnixMilliseconds) (lease : PublicationLease)
  | submitting (prepared : PreparedAttempt)

/-- The next transaction of an iteration, with what the clock, the relay and the entropy give it. -/
inductive ExecutorMove where
  | begin (disposition : Disposition) (now : UnixMilliseconds) (authorized : Authorized)
  | recover (disposition : Disposition) (sample : Nat)
  | claim (disposition : Disposition) (owner : LeaseOwner)
  | prepare (disposition : Disposition)
  | record (disposition : Disposition) (finishedAt : UnixMilliseconds) (observed : AttemptOutcome)
      (sample : Nat)

/-- The outcome an executor records: a submission without an answer is unknown. -/
def closedOutcome : AttemptOutcome → AttemptOutcome
  | .submitted => .unknown
  | outcome => outcome

/-- The delay an executor records with an outcome. -/
def retryDelay (prepared : PreparedAttempt) (outcome : AttemptOutcome) (sample : Nat) : Nat :=
  if outcome.retryable then
    sampleRetryDelay (retryUpperBound prepared.lease.outbox.initialBackoff
      prepared.lease.outbox.maximumBackoff prepared.target.attemptCount) sample
  else
    0

/-- `execute_next_publication`, one transaction at a time.  An error ends the iteration. -/
def Executor.step (mode : HostMode) (move : ExecutorMove) (executor : Executor) (store : Store) :
    Executor × Store :=
  match executor, move with
  | .idle, .begin disposition now authorized =>
      match readExpiredPublication mode disposition now authorized.authority store with
      | .ok none => (.ready now authorized, store)
      | .ok (some candidate) => (.recovering now authorized candidate, store)
      | .error _ => (.idle, store)
  | .recovering now authorized candidate, .recover disposition sample =>
      match recoverExpiredPublication disposition candidate now
        (sampleRetryDelay candidate.retryUpperBound sample) store with
      | (.ok _, store) => (.ready now authorized, store)
      | (.error _, store) => (.idle, store)
  | .ready now authorized, .claim disposition owner =>
      match claimNextPublication mode disposition owner now authorized.authority store with
      | (.ok (some lease), store) => (.claimed now lease, store)
      | (.ok none, store) | (.error _, store) => (.idle, store)
  | .claimed now lease, .prepare disposition =>
      match prepareNextPublicationTarget mode disposition lease now store with
      | (.ok prepared, store) => (.submitting prepared, store)
      | (.error _, store) => (.idle, store)
  | .submitting prepared, .record disposition finishedAt observed sample =>
      let outcome := closedOutcome observed
      (.idle, (recordPublicationOutcome mode disposition prepared finishedAt outcome
        (retryDelay prepared outcome sample) store).2)
  | executor, _ => (executor, store)

/-- The executors and the service they share. -/
structure Publishers where
  service : Service
  executors : Nat → Executor

def Publishers.initial : Publishers := ⟨.initial, fun _ => .idle⟩

/-- The moves of the rest of the system: of the service, of a finalization, or of the operator. -/
def Move.isExternal : Move → Bool
  | .service .. | .finalize .. | .retry .. => true
  | .claim .. | .prepare .. | .record .. | .recover .. => false

inductive PublishersMove where
  | executor (index : Nat) (move : ExecutorMove)
  | crash (index : Nat)
  | other (move : Move) (external : move.isExternal = true)

/-- The executors after a move.  They run while the store is open for writing. -/
def Publishers.apply (move : PublishersMove) (state : Publishers) : Publishers :=
  match move with
  | .executor index move =>
      match state.service.host with
      | some ⟨.readWriteExisting, binding⟩ =>
          let (executor, store) :=
            (state.executors index).step .readWriteExisting move state.service.store
          ⟨⟨store, some ⟨.readWriteExisting, binding⟩⟩,
            Function.update state.executors index executor⟩
      | _ => state
  | .crash index => ⟨state.service, Function.update state.executors index .idle⟩
  | .other move _ => ⟨move.apply state.service, state.executors⟩

/-- The executors after a run. -/
def Publishers.exec (moves : List PublishersMove) (state : Publishers) : Publishers :=
  Transition.exec Publishers.apply moves state

end System

section Calls

variable [Sha256] [TradeEvidence]

/-- The call of the repository that the next transaction of an executor is. -/
def Executor.call (move : ExecutorMove) (executor : Executor) : Option Move :=
  match executor, move with
  | .recovering now _ candidate, .recover disposition sample =>
      some (.recover disposition candidate now
        (sampleRetryDelay candidate.retryUpperBound sample))
  | .ready now authorized, .claim disposition owner =>
      some (.claim disposition owner now authorized)
  | .claimed now lease, .prepare disposition => some (.prepare disposition lease now)
  | .submitting prepared, .record disposition finishedAt observed sample =>
      some (.record disposition prepared finishedAt (closedOutcome observed)
        (retryDelay prepared (closedOutcome observed) sample))
  | _, _ => none

omit [TradeEvidence] in
/-- A transaction of an executor writes what its call writes. -/
theorem step_store (move : ExecutorMove) (executor : Executor) (binding : ConfigBinding)
    (store : Store) :
    (executor.step .readWriteExisting move store).2 =
      (executor.call move).elim store fun call => call.run ⟨.readWriteExisting, binding⟩ store := by
  cases executor with
  | idle =>
      cases move with
      | begin disposition now authorized =>
          simp only [Executor.step, Executor.call, Option.elim]
          split <;> rfl
      | _ => rfl
  | recovering now authorized candidate =>
      cases move with
      | recover disposition sample =>
          simp only [Executor.step, Executor.call, Option.elim, Move.run, if_true]
          split <;> rename_i returned <;> rw [returned]
      | _ => rfl
  | ready now authorized =>
      cases move with
      | claim disposition owner =>
          simp only [Executor.step, Executor.call, Option.elim, Move.run]
          split <;> rename_i returned <;> rw [returned]
      | _ => rfl
  | claimed now lease =>
      cases move with
      | prepare disposition =>
          simp only [Executor.step, Executor.call, Option.elim, Move.run]
          split <;> rename_i returned <;> rw [returned]
      | _ => rfl
  | submitting prepared => cases move <;> rfl

end Calls

section Fencing

variable [Sha256] [TradeEvidence]

/-- The row of a lease has been there: it is not older than the lease. -/
def Seen (lease : PublicationLease) (store : Store) : Prop :=
  ∃ row, outboxRow lease.outbox.id store = some row ∧ lease.outbox.revision ≤ row.revision

omit [Sha256] [TradeEvidence] in
theorem Held.revision {lease : PublicationLease} {row : OutboxRow} (held : Held lease row) :
    lease.outbox.revision = row.revision := by
  rw [held.outbox]
  rfl

omit [TradeEvidence] in
theorem seen_of_advance {move : Move} {service : Service} {after : Store}
    {lease : PublicationLease} (advance : Advance move service after)
    (seen : Seen lease service.store) : Seen lease after := by
  rcases seen with ⟨row, stored, reached⟩
  have carry : contents lease.outbox.id after = contents lease.outbox.id service.store →
      Seen lease after := by
    intro same
    refine ⟨row, ?_, reached⟩
    rw [← stored]
    exact congrArg Prod.fst same
  cases advance with
  | kept same events => exact carry (same _)
  | @opened required signed now opens absent made others event events =>
      refine carry (others _ ?_)
      intro sameId
      rw [sameId, absent] at stored
      cases stored
  | @stepped action id current next stepped takes =>
      by_cases sameId : lease.outbox.id = id
      · refine ⟨next.row, ?_, ?_⟩
        · rw [sameId]
          exact (snapshot_eq_some.mp stepped.after).1
        · have isRow := (snapshot_eq_some.mp stepped.before).1
          rw [← sameId, stored] at isRow
          cases isRow
          rcases stepped.step.revision with ⟨-, same⟩ | raised
          · rw [same]
            exact reached
          · omega
      · exact carry (stepped.touched.others _ sameId)

omit [TradeEvidence] in
/-- A lease that is held after a move was held before it, and only a preparation under the same
revision has changed its targets. -/
theorem held_of_advance {move : Move} {service : Service} {after : Store}
    {lease : PublicationLease} {row : OutboxRow} (advance : Advance move service after)
    (seen : Seen lease service.store) (stored : outboxRow lease.outbox.id after = some row)
    (held : Held lease row) :
    contents lease.outbox.id after = contents lease.outbox.id service.store ∨
      ∃ disposition other now, move = .prepare disposition other now ∧
        other.outbox.id = lease.outbox.id ∧ other.outbox.revision = lease.outbox.revision ∧
        outboxRow lease.outbox.id service.store = some row ∧ Held other row := by
  rcases seen with ⟨before, isBefore, reached⟩
  cases advance with
  | kept same events => exact .inl (same _)
  | @opened required signed now opens absent made others event events =>
      refine .inl (others _ ?_)
      intro sameId
      rw [sameId, absent] at isBefore
      cases isBefore
  | @stepped action id current next stepped takes =>
      by_cases sameId : lease.outbox.id = id
      · have isRow := (snapshot_eq_some.mp stepped.before).1
        have isNext := (snapshot_eq_some.mp stepped.after).1
        rw [← sameId, isBefore] at isRow
        rw [← sameId, stored] at isNext
        cases isRow
        cases isNext
        have revision := held.revision
        rcases stepped.step.revision with ⟨rfl, same⟩ | raised
        · right
          cases move with
          | prepare disposition other startedAt =>
              rcases takes with ⟨-, isOther, otherHeld⟩
              refine ⟨disposition, other, startedAt, rfl, isOther.symm.trans sameId.symm, ?_,
                same ▸ isBefore, same ▸ otherHeld⟩
              rw [otherHeld.revision, revision, same]
          | service => cases takes
          | finalize => cases takes
          | claim => cases takes
          | record => cases takes
          | recover => cases takes
          | retry => cases takes.1
        · omega
      · exact .inl (stepped.touched.others _ sameId)

/-- No two executors hold one revision of an outbox, and who holds the current one finds no attempt
under way. -/
structure Fenced (state : Publishers) : Prop where
  seen : ∀ index now lease, state.executors index = .claimed now lease →
    Seen lease state.service.store
  quiet : ∀ index now lease, state.executors index = .claimed now lease →
    ∀ row, outboxRow lease.outbox.id state.service.store = some row → Held lease row →
      Quiet (targetsOf lease.outbox.id state.service.store)
  apart : ∀ left right now later lease other, left ≠ right →
    state.executors left = .claimed now lease → state.executors right = .claimed later other →
    lease.outbox.id = other.outbox.id → lease.outbox.revision ≠ other.outbox.revision

omit [TradeEvidence] in
/-- A move under which no executor comes to hold a lease, and no holder of a lease is overtaken. -/
theorem Fenced.advance {state : Publishers} {move : Move} {service : Service}
    {executors : Nat → Executor} (fenced : Fenced state)
    (advance : Advance move state.service service.store)
    (fewer : ∀ index now lease, executors index = .claimed now lease →
      state.executors index = .claimed now lease)
    (alone : ∀ disposition other startedAt, move = .prepare disposition other startedAt →
      ∀ index now lease, executors index = .claimed now lease →
        lease.outbox.id = other.outbox.id → lease.outbox.revision ≠ other.outbox.revision) :
    Fenced ⟨service, executors⟩ where
  seen index now lease isClaimed :=
    seen_of_advance advance (fenced.seen index now lease (fewer index now lease isClaimed))
  quiet index now lease isClaimed row stored held := by
    have before := fewer index now lease isClaimed
    have seen := fenced.seen index now lease before
    rcases held_of_advance advance seen stored held with
      same | ⟨disposition, other, startedAt, isPrepare, sameId, sameRevision, -⟩
    · have rows : outboxRow lease.outbox.id service.store =
        outboxRow lease.outbox.id state.service.store := congrArg Prod.fst same
      have targets : targetsOf lease.outbox.id service.store =
        targetsOf lease.outbox.id state.service.store := congrArg (·.2.1) same
      rw [rows] at stored
      rw [targets]
      exact fenced.quiet index now lease before row stored held
    · exact absurd sameRevision.symm (alone disposition other startedAt isPrepare index now lease
        isClaimed sameId.symm)
  apart left right now later lease other different isLeft isRight :=
    fenced.apart left right now later lease other different (fewer left now lease isLeft)
      (fewer right later other isRight)

omit [TradeEvidence] in
/-- An executor comes to hold a lease by a claim, or holds it already and does nothing. -/
theorem step_claimed {move : ExecutorMove} {executor : Executor} {store : Store}
    {now : UnixMilliseconds} {lease : PublicationLease}
    (isClaimed : (executor.step .readWriteExisting move store).1 = .claimed now lease) :
    (executor = .claimed now lease ∧ executor.call move = none) ∨
      ∃ authorized disposition owner, executor = .ready now authorized ∧
        move = .claim disposition owner ∧
        (claimNextPublication .readWriteExisting disposition owner now authorized.authority
          store).1 = .ok (some lease) := by
  cases executor with
  | idle =>
      cases move with
      | begin disposition started authorized =>
          simp only [Executor.step] at isClaimed
          split at isClaimed <;> cases isClaimed
      | _ => cases isClaimed
  | recovering started authorized candidate =>
      cases move with
      | recover disposition sample =>
          simp only [Executor.step] at isClaimed
          split at isClaimed <;> cases isClaimed
      | _ => cases isClaimed
  | ready started authorized =>
      cases move with
      | claim disposition owner =>
          simp only [Executor.step] at isClaimed
          split at isClaimed
          · rename_i returned
            cases isClaimed
            exact .inr ⟨authorized, disposition, owner, rfl, rfl, by rw [returned]⟩
          · cases isClaimed
          · cases isClaimed
      | _ => cases isClaimed
  | claimed started held =>
      cases move with
      | prepare disposition =>
          simp only [Executor.step] at isClaimed
          split at isClaimed <;> cases isClaimed
      | _ => exact .inl ⟨isClaimed, rfl⟩
  | submitting prepared => cases move <;> cases isClaimed

omit [TradeEvidence] in
/-- A claim is newer than every lease of its outbox that was claimed before. -/
theorem Fenced.claim {state : Publishers} {index : Nat} {now : UnixMilliseconds}
    {owner : LeaseOwner} {disposition : Disposition} {authorized : Authorized}
    {lease : PublicationLease} {service : Service} {executors : Nat → Executor}
    (fenced : Fenced state) (coherent : Every Snapshot.Coherent state.service.store)
    (isStore : service.store = (claimNextPublication .readWriteExisting disposition owner now
      authorized.authority state.service.store).2)
    (claimed : (claimNextPublication .readWriteExisting disposition owner now authorized.authority
      state.service.store).1 = .ok (some lease))
    (others : ∀ other, other ≠ index → executors other = state.executors other)
    (isClaimed : executors index = .claimed now lease) : Fenced ⟨service, executors⟩ := by
  rcases claimNext_of_claimed claimed with ⟨binding, -, done⟩
  rw [← isStore] at done
  rcases claimNext_spec done with ⟨current, selected, stepped, held⟩
  rcases snapshot_eq_some.mp stepped.before with ⟨before, targets, -⟩
  rcases snapshot_eq_some.mp stepped.after with ⟨after, claimedTargets, -⟩
  have revision : lease.outbox.revision = current.row.revision + 1 := held.revision
  have advance : Advance (.claim disposition owner now authorized) state.service service.store :=
    .stepped stepped rfl
  -- the executors that held leases before are fenced as by any other move
  have rest : Fenced ⟨service, Function.update executors index .idle⟩ := by
    refine fenced.advance advance ?_ ?_
    · intro other later held isHeld
      by_cases same : other = index
      · subst same
        rw [Function.update_self] at isHeld
        cases isHeld
      · rw [Function.update_of_ne same, others other same] at isHeld
        exact isHeld
    · intro disposition other startedAt impossible
      cases impossible
  have newer : ∀ other later held, other ≠ index → executors other = .claimed later held →
      held.outbox.id = lease.outbox.id → held.outbox.revision < lease.outbox.revision := by
    intro other later held different isHeld sameId
    rw [others other different] at isHeld
    rcases fenced.seen other later held isHeld with ⟨row, stored, reached⟩
    rw [sameId, before] at stored
    cases stored
    omega
  have restOf : ∀ other later held, other ≠ index → executors other = .claimed later held →
      Function.update executors index .idle other = .claimed later held := by
    intro other later held different isHeld
    rw [Function.update_of_ne different]
    exact isHeld
  refine ⟨?_, ?_, ?_⟩
  · intro other later held (isHeld : executors other = .claimed later held)
    by_cases same : other = index
    · subst same
      rw [isClaimed] at isHeld
      cases isHeld
      exact ⟨_, after, Nat.le_of_eq revision⟩
    · exact rest.seen other later held (restOf other later held same isHeld)
  · intro other later held (isHeld : executors other = .claimed later held)
    by_cases same : other = index
    · subst same
      rw [isClaimed] at isHeld
      cases isHeld
      intro row stored isCurrent target targetMem submitted
      have isCoherent := coherent _ _ stepped.before
      have targetMem : target ∈ targetsOf lease.outbox.id service.store := targetMem
      rw [claimedTargets] at targetMem
      have leased := isCoherent.attended.tracked.held target targetMem submitted
      have pending := (readClaimableOutbox_spec selected).2.1
      simp [pending] at leased
    · exact rest.quiet other later held (restOf other later held same isHeld)
  · intro left right later last first second different
      (isLeft : executors left = .claimed later first)
      (isRight : executors right = .claimed last second) sameId
    by_cases leftIs : left = index
    · subst leftIs
      rw [isClaimed] at isLeft
      cases isLeft
      have older := newer right last second (Ne.symm different) isRight sameId.symm
      omega
    · by_cases rightIs : right = index
      · subst rightIs
        rw [isClaimed] at isRight
        cases isRight
        have older := newer left later first different isLeft sameId
        omega
      · exact rest.apart left right later last first second different
          (restOf left later first leftIs isLeft) (restOf right last second rightIs isRight) sameId

end Fencing

section Invariants

variable [Sha256] [TradeEvidence]

/-- A coherent outbox with an exact log. -/
structure Snapshot.Exact (current : Snapshot) : Prop where
  coherent : current.Coherent
  logged : current.Logged
  derived : current.Derived

theorem exact_apply (move : Move) (service : Service) (once : move.Once service)
    (orderly : Orderly service.store) (exact_ : Every Snapshot.Exact service.store) :
    Every Snapshot.Exact (move.apply service).store := by
  refine exact_.advance (advance_of_apply move orderly.referenced orderly.sound) ?_ ?_
  · intro required attestation now opens
    refine ⟨⟨opens.sound attestation now, Opens.attended attestation now,
      Opens.decided attestation now⟩, Opens.logged attestation now, ?_⟩
    intro row rowMem
    cases rowMem
  · intro action current next isOnce _ before step
    have sound := before.coherent.sound
    have attended := before.coherent.attended
    exact ⟨before.coherent.step (isOnce once) step, before.logged.step sound attended step,
      before.derived.step sound attended step⟩

/-- The call of the repository that a move makes. -/
def PublishersMove.call (state : Publishers) : PublishersMove → Option Move
  | .executor index move =>
      if state.service.host.any (·.mode == .readWriteExisting) then
        (state.executors index).call move
      else
        none
  | .crash _ => none
  | .other move _ => some move

omit [TradeEvidence] in
theorem Executor.call_spec {move : ExecutorMove} {executor : Executor} {call : Move}
    (isCall : executor.call move = some call) : call.isExternal = false := by
  cases executor <;> cases move <;> simp only [Executor.call, reduceCtorEq, Option.some.injEq]
    at isCall
  all_goals
    subst isCall
    rfl

theorem run_of_call {call : Move} {service : Service} {host : Host}
    (isOpen : service.host = some host)
    (executes : call.isExternal = false) :
    call.apply service = ⟨call.run host service.store, some host⟩ := by
  cases call with
  | service => cases executes
  | finalize => cases executes
  | retry => cases executes
  | _ => simp only [Move.apply, isOpen]

/-- A move of the system makes its call, or leaves the service alone. -/
theorem service_apply (move : PublishersMove) (state : Publishers) :
    (state.apply move).service =
      (move.call state).elim state.service fun call => call.apply state.service := by
  cases move with
  | crash index => rfl
  | other move external => rfl
  | executor index move =>
      simp only [Publishers.apply, PublishersMove.call]
      cases isHost : state.service.host with
      | none => rfl
      | some host =>
          rcases host with ⟨mode, binding⟩
          cases mode with
          | readOnlyInspection => rfl
          | readWriteExisting =>
              have stored := step_store move (state.executors index) binding state.service.store
              simp only [Option.any_some, beq_self_eq_true, if_true]
              cases isCall : (state.executors index).call move with
              | none =>
                  rw [isCall] at stored
                  simp only [stored, Option.elim_none]
                  rw [← isHost]
              | some call =>
                  rw [isCall] at stored
                  simp only [stored, Option.elim_some]
                  rw [run_of_call isHost (Executor.call_spec isCall)]

/-- An executor runs while the store is open for writing, and stands still otherwise. -/
theorem executor_cases (index : Nat) (move : ExecutorMove) (state : Publishers) :
    (∃ binding, state.service.host = some ⟨.readWriteExisting, binding⟩ ∧
      state.apply (.executor index move) =
        ⟨⟨((state.executors index).step .readWriteExisting move state.service.store).2,
          some ⟨.readWriteExisting, binding⟩⟩, Function.update state.executors index
            ((state.executors index).step .readWriteExisting move state.service.store).1⟩) ∨
      state.apply (.executor index move) = state := by
  simp only [Publishers.apply]
  split
  · rename_i binding isOpen
    exact .inl ⟨binding, isOpen, rfl⟩
  · exact .inr rfl

/-- Executors that are fenced over an orderly store with exact logs. -/
structure Disciplined (state : Publishers) : Prop where
  orderly : Orderly state.service.store
  exact_ : Every Snapshot.Exact state.service.store
  fenced : Fenced state

omit [TradeEvidence] in
theorem Disciplined.coherent {state : Publishers} (disciplined : Disciplined state) :
    Every Snapshot.Coherent state.service.store :=
  fun id current read => (disciplined.exact_ id current read).coherent

omit [TradeEvidence] in
/-- An executor prepares no outbox that has an attempt under way. -/
theorem Disciplined.once {state : Publishers} {move : PublishersMove} {call : Move}
    (disciplined : Disciplined state) (isCall : move.call state = some call) :
    call.Once state.service := by
  cases move with
  | crash index => cases isCall
  | other move external =>
      cases isCall
      cases call with
      | prepare => cases external
      | _ => trivial
  | executor index move =>
      simp only [PublishersMove.call] at isCall
      split at isCall
      · cases isExecutor : state.executors index with
        | claimed now lease =>
            rw [isExecutor] at isCall
            cases move with
            | prepare disposition =>
                cases isCall
                exact disciplined.fenced.quiet index now lease isExecutor
            | _ => cases isCall
        | idle =>
            rw [isExecutor] at isCall
            cases move <;> cases isCall
        | recovering now authorized candidate =>
            rw [isExecutor] at isCall
            cases move <;> cases isCall
            trivial
        | ready now authorized =>
            rw [isExecutor] at isCall
            cases move <;> cases isCall
            trivial
        | submitting prepared =>
            rw [isExecutor] at isCall
            cases move <;> cases isCall
            trivial
      · cases isCall

omit [TradeEvidence] in
theorem claimed_of_prepare {move : ExecutorMove} {executor : Executor} {disposition : Disposition}
    {lease : PublicationLease} {startedAt : UnixMilliseconds}
    (isCall : executor.call move = some (.prepare disposition lease startedAt)) :
    executor = .claimed startedAt lease := by
  cases executor <;> cases move <;>
    simp only [Executor.call, reduceCtorEq, Option.some.injEq, Move.prepare.injEq] at isCall
  rcases isCall with ⟨-, rfl, rfl⟩
  rfl

/-- A transaction of one executor keeps all of them fenced. -/
theorem Disciplined.fenced_executor {state : Publishers} {index : Nat} {move : ExecutorMove}
    {binding : ConfigBinding} (disciplined : Disciplined state)
    (isOpen : state.service.host = some ⟨.readWriteExisting, binding⟩) :
    Fenced ⟨⟨((state.executors index).step .readWriteExisting move state.service.store).2,
        some ⟨.readWriteExisting, binding⟩⟩,
      Function.update state.executors index
        ((state.executors index).step .readWriteExisting move state.service.store).1⟩ := by
  have fenced := disciplined.fenced
  have stored := step_store move (state.executors index) binding state.service.store
  generalize isNext : (state.executors index).step .readWriteExisting move state.service.store =
    next at stored
  have claimedNext : ∀ now lease, next.1 = .claimed now lease →
      ((state.executors index).step .readWriteExisting move state.service.store).1 =
        .claimed now lease := by
    intro now lease isClaimed
    rw [isNext]
    exact isClaimed
  have fewer : (∀ now lease, next.1 = .claimed now lease →
      state.executors index = .claimed now lease) → ∀ other now lease,
      Function.update state.executors index next.1 other = .claimed now lease →
        state.executors other = .claimed now lease := by
    intro own other now lease isClaimed
    by_cases same : other = index
    · subst same
      rw [Function.update_self] at isClaimed
      exact own now lease isClaimed
    · rwa [Function.update_of_ne same] at isClaimed
  cases isCall : (state.executors index).call move with
  | none =>
      rw [isCall] at stored
      have unchanged : next.2 = state.service.store := stored
      have advance : Advance (.service .close rfl) state.service next.2 := by
        rw [unchanged]
        exact advance_refl _ _
      refine @Fenced.advance _ _ _ ⟨next.2, _⟩ _ fenced advance (fewer ?_) ?_
      · intro now lease isClaimed
        rcases step_claimed (claimedNext now lease isClaimed) with
          ⟨same, -⟩ | ⟨authorized, disposition, owner, isReady, rfl, -⟩
        · exact same
        · rw [isReady] at isCall
          cases isCall
      · intro disposition other startedAt impossible
        cases impossible
  | some call =>
      rw [isCall] at stored
      have advance : Advance call state.service next.2 := by
        have advanced := advance_of_apply call disciplined.orderly.referenced
          disciplined.orderly.sound
        rw [run_of_call isOpen (Executor.call_spec isCall)] at advanced
        rw [stored]
        exact advanced
      have notHeld : ∀ now lease, state.executors index = .claimed now lease →
          next.1 ≠ .claimed now lease := by
        intro now lease isExecutor isClaimed
        rcases step_claimed (claimedNext now lease isClaimed) with
          ⟨-, none⟩ | ⟨authorized, disposition, owner, isReady, -⟩
        · rw [isCall] at none
          cases none
        · rw [isExecutor] at isReady
          cases isReady
      by_cases gains : ∃ now lease, next.1 = .claimed now lease
      · rcases gains with ⟨now, lease, isClaimed⟩
        rcases step_claimed (claimedNext now lease isClaimed) with
          ⟨same, -⟩ | ⟨authorized, disposition, owner, isReady, rfl, claimed⟩
        · exact absurd isClaimed (notHeld now lease same)
        · rw [isReady] at isCall
          cases isCall
          refine @Fenced.claim _ _ index now owner disposition authorized lease ⟨next.2, _⟩ _ fenced
            disciplined.coherent stored claimed ?_ ?_
          · intro other different
            exact Function.update_of_ne different _ _
          · rw [Function.update_self]
            exact isClaimed
      · refine @Fenced.advance _ _ _ ⟨next.2, _⟩ _ fenced advance (fewer ?_) ?_
        · intro now lease isClaimed
          exact absurd ⟨now, lease, isClaimed⟩ gains
        · intro disposition other startedAt isPrepare holder now lease isHolder sameId
          subst isPrepare
          have isExecutor := claimed_of_prepare isCall
          have different : holder ≠ index := by
            rintro rfl
            rw [Function.update_self] at isHolder
            exact gains ⟨now, lease, isHolder⟩
          rw [Function.update_of_ne different] at isHolder
          exact fenced.apart holder index now startedAt lease other different isHolder isExecutor
            sameId

theorem disciplined_apply (move : PublishersMove) (state : Publishers)
    (disciplined : Disciplined state) : Disciplined (state.apply move) := by
  have served := service_apply move state
  have stores : Orderly (state.apply move).service.store ∧
      Every Snapshot.Exact (state.apply move).service.store := by
    rw [served]
    cases isCall : move.call state with
    | none => exact ⟨disciplined.orderly, disciplined.exact_⟩
    | some call =>
        exact ⟨orderly_apply call state.service disciplined.orderly,
          exact_apply call state.service (disciplined.once isCall) disciplined.orderly
            disciplined.exact_⟩
  refine ⟨stores.1, stores.2, ?_⟩
  cases move with
  | crash index =>
      refine @Fenced.advance _ _ (.service .close rfl) _ _ disciplined.fenced (advance_refl _ _) ?_
        ?_
      · intro other now lease isClaimed
        by_cases same : other = index
        · subst same
          rw [Function.update_self] at isClaimed
          cases isClaimed
        · rwa [Function.update_of_ne same] at isClaimed
      · intro disposition other startedAt impossible
        cases impossible
  | other move external =>
      refine disciplined.fenced.advance
        (advance_of_apply move disciplined.orderly.referenced disciplined.orderly.sound)
        (fun _ _ _ isClaimed => isClaimed) ?_
      rintro disposition other startedAt rfl
      cases external
  | executor index move =>
      rcases executor_cases index move state with ⟨binding, isOpen, applied⟩ | still
      · rw [applied]
        exact disciplined.fenced_executor isOpen
      · rw [still]
        exact disciplined.fenced

/-- Who holds a lease after a move has claimed it in that move, or held it before; while the lease
is held its outbox does not change. -/
theorem claimed_of_apply {move : PublishersMove} {state : Publishers} {index : Nat}
    {now : UnixMilliseconds} {lease : PublicationLease} (disciplined : Disciplined state)
    (isClaimed : (state.apply move).executors index = .claimed now lease) :
    (state.executors index = .claimed now lease ∧
      ∀ row, outboxRow lease.outbox.id (state.apply move).service.store = some row →
        Held lease row → contents lease.outbox.id (state.apply move).service.store =
          contents lease.outbox.id state.service.store) ∨
      ∃ owner binding, claimNext owner now binding state.service.store =
        .ok (some lease, (state.apply move).service.store) := by
  have unmoved : ∀ {call : Move} {after : Store}, Advance call state.service after →
      state.executors index = .claimed now lease →
      (∀ disposition other startedAt, call = .prepare disposition other startedAt →
        lease.outbox.id = other.outbox.id → lease.outbox.revision ≠ other.outbox.revision) →
      ∀ row, outboxRow lease.outbox.id after = some row → Held lease row →
        contents lease.outbox.id after = contents lease.outbox.id state.service.store := by
    intro call after advance before alone row stored held
    rcases held_of_advance advance (disciplined.fenced.seen index now lease before) stored held with
      same | ⟨disposition, other, startedAt, isPrepare, sameId, sameRevision, -⟩
    · exact same
    · exact absurd sameRevision.symm (alone disposition other startedAt isPrepare sameId.symm)
  cases move with
  | crash crashed =>
      by_cases same : index = crashed
      · subst same
        simp only [Publishers.apply, Function.update_self] at isClaimed
        cases isClaimed
      · simp only [Publishers.apply, Function.update_of_ne same] at isClaimed
        exact .inl ⟨isClaimed, fun _ _ _ => rfl⟩
  | other move external =>
      refine .inl ⟨isClaimed, unmoved (advance_of_apply move disciplined.orderly.referenced
        disciplined.orderly.sound) isClaimed ?_⟩
      rintro disposition other startedAt rfl
      cases external
  | executor moved move =>
      rcases executor_cases moved move state with ⟨binding, isOpen, applied⟩ | still
      · have stored := step_store move (state.executors moved) binding state.service.store
        rw [applied] at isClaimed ⊢
        dsimp only at isClaimed ⊢
        rw [stored]
        by_cases same : index = moved
        · subst same
          rw [Function.update_self] at isClaimed
          rcases step_claimed isClaimed with
            ⟨before, isCall⟩ | ⟨authorized, disposition, owner, isReady, rfl, claimed⟩
          · rw [isCall]
            exact .inl ⟨before, fun _ _ _ => rfl⟩
          · rcases claimNext_of_claimed claimed with ⟨binding, -, done⟩
            rw [isReady]
            exact .inr ⟨owner, binding, done⟩
        · rw [Function.update_of_ne same] at isClaimed
          refine .inl ⟨isClaimed, ?_⟩
          cases isCall : (state.executors moved).call move with
          | none => exact fun _ _ _ => rfl
          | some call =>
              have advance := advance_of_apply call disciplined.orderly.referenced
                disciplined.orderly.sound
              rw [run_of_call isOpen (Executor.call_spec isCall)] at advance
              refine unmoved advance isClaimed ?_
              rintro disposition other startedAt rfl sameId
              exact disciplined.fenced.apart index moved now startedAt lease other same isClaimed
                (claimed_of_prepare isCall) sameId
      · rw [still] at isClaimed ⊢
        exact .inl ⟨isClaimed, fun _ _ _ => rfl⟩

omit [TradeEvidence] in
/-- Executors of which none is under way are disciplined. -/
theorem disciplined_idle {service : Service} (orderly : Orderly service.store)
    (exact_ : Every Snapshot.Exact service.store) : Disciplined ⟨service, fun _ => .idle⟩ := by
  refine ⟨orderly, exact_, ?_, ?_, ?_⟩
  · intro index now lease isClaimed
    cases isClaimed
  · intro index now lease isClaimed
    cases isClaimed
  · intro left right now later lease other different isClaimed
    cases isClaimed

theorem disciplined_exec (moves : List PublishersMove) :
    Disciplined (Publishers.exec moves .initial) :=
  Transition.exec_invariant Disciplined disciplined_apply moves
    (disciplined_idle orderly_initial fun _ _ read => by cases read)

end Invariants

end Publication

end Rhi
