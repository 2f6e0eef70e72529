import Rhi.Publication.Outcomes

/-!
# Repeated records of an outcome

A recorded outcome is found again by whoever records it a second time, until the outbox moves on.
Nobody records a different outcome of the same attempt.
-/

namespace Rhi

open Relational Transactional

section Schedules

theorem instant_ext {left right : UnixMilliseconds} (same : left.get = right.get) :
    left = right := by
  cases left
  cases right
  cases same
  rfl

/-- A schedule tells its delay. -/
theorem outcomeSchedule_delay {maxAttempts bound attemptNumber finished delay : Nat}
    {outcome : AttemptOutcome} {state : TargetState} {next : Option Nat}
    (scheduled : outcomeSchedule maxAttempts bound attemptNumber finished delay outcome =
      some (state, next)) :
    if outcome.retryable && decide (attemptNumber < maxAttempts) then
      next = some (finished + delay)
    else
      delay = 0 := by
  unfold outcomeSchedule at scheduled
  simp only [Option.bind_eq_bind, Option.bind_eq_some_iff, Option.guard_eq_some'] at scheduled
  rcases scheduled with ⟨-, -, scheduled⟩
  split at scheduled <;>
    simp only [Option.bind_eq_some_iff, Option.guard_eq_some', Option.pure_def, Option.some.injEq,
      Prod.mk.injEq] at scheduled
  · rename_i again
    rcases scheduled with ⟨-, -, -, -, -, rfl⟩
    rw [if_pos again]
  · rename_i final
    rcases scheduled with ⟨-, none, -⟩
    rw [if_neg final]
    exact none

theorem delay_of_outcomeSchedule {maxAttempts first second attemptNumber finished left right : Nat}
    {outcome : AttemptOutcome} {state : TargetState} {next : Option Nat}
    (leftSchedule : outcomeSchedule maxAttempts first attemptNumber finished left outcome =
      some (state, next))
    (rightSchedule : outcomeSchedule maxAttempts second attemptNumber finished right outcome =
      some (state, next)) : left = right := by
  have leftDelay := outcomeSchedule_delay leftSchedule
  have rightDelay := outcomeSchedule_delay rightSchedule
  split at leftDelay
  · rename_i again
    rw [if_pos again, leftDelay] at rightDelay
    have sum := Option.some.inj rightDelay
    omega
  · rename_i final
    rw [if_neg final] at rightDelay
    exact leftDelay.trans rightDelay.symm

end Schedules

namespace Publication

section Finding

variable [Sha256] {input : RecordInput} {row : OutboxRow} {target : TargetRow} {decided : Verdict}
  {store next : Store} {commit : AttemptCommit}

/-- What `reconcile_recorded` has to find of a recorded outcome. -/
structure Finds (input : RecordInput) (row : OutboxRow) (target : TargetRow) (decided : Verdict)
    (store : Store) : Prop where
  stored : outboxRow input.lease.outbox.id store = some row
  identity : (row.record none).sameIdentity input.lease.outbox = true
  raised : row.revision = input.lease.outbox.revision + 1
  finished : row.updatedAt = input.finishedAt
  unowned : row.leaseOwner = none
  unleased : row.leaseExpires = none
  mem : target ∈ targetsOf input.lease.outbox.id store
  ordinal : target.targetOrdinal = input.targetOrdinal
  revision : target.revision = input.targetRevision + 1
  number : target.attemptCount = input.attemptNumber
  attempt : target.lastAttemptId = some input.attemptId
  scheduled : outcomeOf input = .ok (target.state, target.nextAttempt)
  written : target.updatedAt = input.finishedAt
  disposed : disposition (row.record none) (targetsOf input.lease.outbox.id store) = .ok decided
  decides : decided.outboxState = (row.state, row.nextAttempt)

/-- What is told of an outcome that was found. -/
def found (input : RecordInput) (row : OutboxRow) (target : TargetRow) : AttemptCommit :=
  ⟨input.lease.outbox.id, input.attemptId, input.targetOrdinal, input.attemptNumber, input.outcome,
    target.state, row.state⟩

theorem reconcileRecorded_iff {existing : DeliveryRow}
    (sorted : Sorted (targetsOf input.lease.outbox.id store)) :
    reconcileRecorded input existing store = .ok commit ↔ existing = input.row ∧
      ∃ row target decided, Finds input row target decided store ∧
        commit = found input row target := by
  have reads := readTargets_of_sorted sorted
  constructor
  · intro reconciled
    simp only [reconcileRecorded, bind_eq_ok, require_eq_ok, orError_eq_ok, pure_eq_ok,
      Bool.and_eq_true, beq_iff_eq, Option.isNone_iff_eq_none] at reconciled
    rcases reconciled with ⟨-, rfl, current, read, outbox, rfl, -,
      ⟨⟨⟨⟨identity, raised⟩, finished⟩, unowned⟩, unleased⟩, -, -, ⟨state, schedule⟩, scheduled,
      target, search, -, ⟨⟨⟨⟨⟨revision, number⟩, attempt⟩, isState⟩, isNext⟩, written⟩, decided,
      disposed, -, ⟨outboxState, nextAttempt⟩, rfl⟩
    rcases readOutbox_spec read with ⟨row, owner, stored, decoded, rfl⟩
    have isOwner : owner = none := unowned
    subst isOwner
    have id : (row.record none).id = input.lease.outbox.id := (outboxRow_spec stored).2
    rw [id, reads] at search disposed
    refine ⟨rfl, row, target, decided, ⟨stored, identity, raised, finished, ?_, unleased,
      List.mem_of_find?_eq_some search, by simpa using List.find?_some search, revision, number,
      attempt, ?_, written, disposed, ?_⟩, ?_⟩
    · exact decodeOwner_spec decoded
    · rw [scheduled, isState, isNext]
    · exact Prod.ext outboxState.symm nextAttempt.symm
    · rw [found, id]
      rfl
  · rintro ⟨rfl, row, target, decided, finds, rfl⟩
    have read : readOutbox input.lease.outbox.id store = .ok (some (row.record none)) := by
      refine readOutbox_of_row finds.stored ?_
      rw [finds.unowned]
      rfl
    have id : (row.record none).id = input.lease.outbox.id := (outboxRow_spec finds.stored).2
    have search := find_target sorted finds.mem
    have disposed := finds.disposed
    rw [finds.ordinal] at search
    rw [← reads] at disposed
    have valid : validateTargets (row.record none)
        (readTargets input.lease.outbox.id store.targets.rows) = .ok () := by
      simp only [disposition, bind_eq_ok] at disposed
      exact disposed.choose_spec.1
    have raised : (row.record none).revision = input.lease.outbox.revision + 1 := finds.raised
    have finished : (row.record none).updatedAt = input.finishedAt := finds.finished
    have unowned : (row.record none).leaseOwner = none := rfl
    have unleased : (row.record none).leaseExpires = none := finds.unleased
    have outboxState : (row.record none).state = decided.outboxState.1 := by
      rw [finds.decides]
      rfl
    have nextAttempt : (row.record none).nextAttempt = decided.outboxState.2 := by
      rw [finds.decides]
      rfl
    simp only [reconcileRecorded, read, id, finds.identity, raised, finished, unowned, unleased,
      valid, finds.scheduled, search, finds.revision, finds.number, finds.attempt, finds.written,
      disposed, outboxState, nextAttempt, orError, require, beq_self_eq_true, Option.isNone_none,
      Bool.and_self, if_true, bind, Except.bind, pure, Except.pure, found, finds.decides]

/-- What was recorded for the first time is found again. -/
theorem finds_of_concludes {current : Snapshot} {state : TargetState} {schedule : Option Nat}
    {old : TargetRow} (concludes : Concludes input store next current state schedule old decided) :
    Finds input ((current.settle input state schedule old).release decided input.finishedAt).row
      ((recordTarget state schedule input.finishedAt input).write old) decided next := by
  rcases snapshot_eq_some.mp concludes.stepped.after with ⟨stored, targets, -⟩
  have settles := concludes.settles
  have outbox := concludes.held.outbox
  have isTargets : targetsOf input.lease.outbox.id next =
      (current.settle input state schedule old).targets := targets
  have same : disposition (((current.settle input state schedule old).release decided
      input.finishedAt).row.record none) (current.settle input state schedule old).targets =
        disposition input.lease.outbox (current.settle input state schedule old).targets := by
    rw [outbox]
    rfl
  exact {
    stored
    identity := by
      rw [outbox]
      simp [OutboxRecord.sameIdentity, OutboxRow.record, Snapshot.release, Snapshot.settle]
    raised := by
      rw [concludes.held.revision]
      rfl
    finished := rfl
    unowned := rfl
    unleased := rfl
    mem := by
      rw [isTargets]
      exact exchanged_mem settles.mem
    ordinal := settles.ordinal
    revision := congrArg (· + 1) concludes.revision
    number := settles.number
    attempt := settles.identity
    scheduled := concludes.scheduled
    written := rfl
    disposed := by
      rw [isTargets, same]
      exact concludes.disposed
    decides := rfl }

/-- What was found is found wherever the outbox looks the same. -/
theorem Finds.congr (finds : Finds input row target decided store)
    (same : contents input.lease.outbox.id next = contents input.lease.outbox.id store) :
    Finds input row target decided next := by
  have rows : outboxRow input.lease.outbox.id next = outboxRow input.lease.outbox.id store :=
    congrArg Prod.fst same
  have targets : targetsOf input.lease.outbox.id next = targetsOf input.lease.outbox.id store :=
    congrArg (·.2.1) same
  exact { finds with
    stored := rows.trans finds.stored
    mem := targets ▸ finds.mem
    disposed := targets ▸ finds.disposed }

omit [Sha256] in
theorem publicationAttempts_clash_comm (left right : DeliveryRow) :
    publicationAttempts.clash left right = publicationAttempts.clash right left := by
  simp [publicationAttempts, Bool.beq_comm]

omit [Sha256] in
theorem find_row {attempt : DeliveryRow} (attemptMem : attempt ∈ store.deliveries.rows) :
    (store.deliveries.rows.find? fun other => other.attemptId == attempt.attemptId) =
      some attempt := by
  cases search : store.deliveries.rows.find? fun other => other.attemptId == attempt.attemptId with
  | none =>
      have missed := List.find?_eq_none.mp search attempt attemptMem
      simp at missed
  | some other =>
      have same : other.attemptId = attempt.attemptId := by simpa using List.find?_some search
      rw [Table.eq_of_clash publicationAttempts_clash_comm (List.mem_of_find?_eq_some search)
        attemptMem (by simp [publicationAttempts, same])]

/-- After a record the outcome is in the log and is found. -/
theorem finds_of_recordOutcome (done : recordOutcome input store = .ok (commit, next))
    (sorted : Sorted (targetsOf input.lease.outbox.id store)) :
    input.row ∈ deliveriesOf input.lease.outbox.id next ∧
      ∃ row target decided, Finds input row target decided next ∧
        commit = found input row target := by
  rcases recordOutcome_cases done sorted with
    ⟨rfl, existing, existingMem, -, reconciled⟩ |
      ⟨current, state, schedule, old, decided, concludes, rfl⟩
  · rcases (reconcileRecorded_iff sorted).mp reconciled with ⟨rfl, finds⟩
    exact ⟨List.mem_filter.mpr ⟨existingMem, beq_self_eq_true _⟩, finds⟩
  · refine ⟨?_, _, _, decided, finds_of_concludes concludes, rfl⟩
    rw [(snapshot_eq_some.mp concludes.stepped.after).2.2]
    exact List.mem_append_right _ (List.mem_singleton.mpr rfl)

/-- A recorded outcome is found by a second record, and nothing changes. -/
theorem recordOutcome_of_finds (finds : Finds input row target decided store)
    (logged : input.row ∈ store.deliveries.rows)
    (sorted : Sorted (targetsOf input.lease.outbox.id store)) :
    recordOutcome input store = .ok (found input row target, store) := by
  have search : (store.deliveries.rows.find? fun other => other.attemptId == input.attemptId) =
      some input.row := find_row logged
  have reconciled := (reconcileRecorded_iff sorted).mpr ⟨rfl, row, target, decided, finds, rfl⟩
  simp only [recordOutcome, search, reconciled, bind, Except.bind, pure, Except.pure]

end Finding

section Leaving

variable [Sha256] {input : RecordInput} {store next : Store}

/-- What the record of an outcome left: a row of the log and, as long as the outbox has the revision
it was given, everything as it was written. -/
structure Left (input : RecordInput) (revision : Nat) (written store : Store) : Prop where
  logged : input.row ∈ deliveriesOf input.lease.outbox.id store
  current : ∃ row, outboxRow input.lease.outbox.id store = some row ∧
    row.maxAttempts = input.lease.outbox.maxAttempts ∧ revision ≤ row.revision ∧
    (row.revision = revision → row.state ≠ .leased ∧
      contents input.lease.outbox.id store = contents input.lease.outbox.id written ∧
      ∃ target ∈ targetsOf input.lease.outbox.id store,
        target.targetOrdinal = input.targetOrdinal ∧
        outcomeOf input = .ok (target.state, target.nextAttempt))

theorem left_of_finds {row : OutboxRow} {target : TargetRow} {decided : Verdict}
    (finds : Finds input row target decided store)
    (logged : input.row ∈ deliveriesOf input.lease.outbox.id store) :
    Left input (input.lease.outbox.revision + 1) store store := by
  have maximum : row.maxAttempts = input.lease.outbox.maxAttempts := by
    have identity := finds.identity
    simp only [OutboxRecord.sameIdentity, OutboxRow.record, Bool.and_eq_true, beq_iff_eq]
      at identity
    exact identity.1.1.1.1.2
  refine ⟨logged, row, finds.stored, maximum, Nat.le_of_eq finds.raised.symm, ?_⟩
  intro _
  refine ⟨?_, rfl, target, finds.mem, finds.ordinal, finds.scheduled⟩
  rw [← show decided.outboxState.1 = row.state from congrArg Prod.fst finds.decides]
  cases decided <;> simp [Verdict.outboxState]

variable [TradeEvidence]

omit [TradeEvidence] in
/-- Nothing is written to an outbox that is not leased without a new revision. -/
theorem Left.advance {revision : Nat} {move : Move} {service : Service} {written after : Store}
    (left : Left input revision written service.store) (advance : Advance move service after) :
    Left input revision written after := by
  rcases left with ⟨logged, row, stored, maximum, reached, kept⟩
  have read : snapshot input.lease.outbox.id service.store = some ⟨row,
      targetsOf input.lease.outbox.id service.store,
      deliveriesOf input.lease.outbox.id service.store⟩ := snapshot_eq_some.mpr ⟨stored, rfl, rfl⟩
  rcases follows_of_advance advance read with ⟨later, isLater, follows⟩
  rcases snapshot_eq_some.mp isLater with ⟨laterStored, -, laterLog⟩
  have laterLogged : input.row ∈ deliveriesOf input.lease.outbox.id after := by
    rw [laterLog]
    exact follows.log.subset logged
  have laterMaximum : later.row.maxAttempts = input.lease.outbox.maxAttempts := by
    have identity := follows.identity
    simp only [OutboxRow.SameIdentity] at identity
    rw [← maximum]
    simp only [identity]
  have carry : contents input.lease.outbox.id after =
      contents input.lease.outbox.id service.store → Left input revision written after := by
    intro same
    have rows : outboxRow input.lease.outbox.id after =
        outboxRow input.lease.outbox.id service.store := congrArg Prod.fst same
    have targets : targetsOf input.lease.outbox.id after =
        targetsOf input.lease.outbox.id service.store := congrArg (·.2.1) same
    refine ⟨laterLogged, row, rows.trans stored, maximum, reached, ?_⟩
    rw [targets, same]
    exact kept
  cases advance with
  | kept same events => exact carry (same _)
  | @opened required signed now opens absent made others event events =>
      refine carry (others _ ?_)
      intro sameId
      rw [sameId, absent] at stored
      cases stored
  | @stepped action id current next stepped takes =>
      by_cases sameId : input.lease.outbox.id = id
      · subst sameId
        have isCurrent := stepped.before.symm.trans read
        cases isCurrent
        have isNext := stepped.after.symm.trans isLater
        cases isNext
        rcases stepped.step.revision with ⟨rfl, sameRow⟩ | raised
        · refine ⟨laterLogged, later.row, laterStored, laterMaximum, sameRow ▸ reached, ?_⟩
          intro isRevision
          rw [sameRow] at isRevision
          have leased : row.state = .leased := by
            cases stepped.step with
            | prepare leased expiry early oldMem due identity => exact leased
          exact absurd leased (kept isRevision).1
        · have raised : later.row.revision = row.revision + 1 := raised
          refine ⟨laterLogged, later.row, laterStored, laterMaximum, by omega, ?_⟩
          intro isRevision
          omega
      · exact carry (stepped.touched.others _ sameId)

theorem Left.exec {revision : Nat} {written : Store} (service : Service)
    (orderly : Orderly service.store) (left : Left input revision written service.store)
    (moves : List Move) : Left input revision written (exec moves service).store := by
  have kept := Transition.exec_invariant
    (fun later : Service => Orderly later.store ∧ Left input revision written later.store)
    (fun move later invariant => ⟨orderly_apply move later invariant.1, invariant.2.advance
      (advance_of_apply move invariant.1.referenced invariant.1.sound)⟩) moves ⟨orderly, left⟩
  exact kept.2

omit [TradeEvidence] in
/-- Who records an outcome of the attempt again, under the lease it was made with, records the
outcome that was recorded. -/
theorem Left.same (again : RecordInput) {commit : AttemptCommit} {written : Store}
    (left : Left input (again.lease.outbox.revision + 1) written store)
    (sorted : Sorted (targetsOf again.lease.outbox.id store))
    (sameId : again.attemptId = input.attemptId)
    (sameOutbox : again.lease.outbox.id = input.lease.outbox.id)
    (done : recordOutcome again store = .ok (commit, next)) :
    again.finishedAt = input.finishedAt ∧ again.outcome = input.outcome ∧
      again.retryDelay = input.retryDelay := by
  have logged := (List.mem_filter.mp left.logged).1
  have search := find_row logged
  rcases recordOutcome_cases done sorted with
    ⟨-, existing, existingMem, isAttempt, reconciled⟩ |
      ⟨current, state, schedule, old, decided, concludes, -⟩
  · rcases (reconcileRecorded_iff sorted).mp reconciled with
      ⟨rfl, row, target, decided, finds, -⟩
    have sameRow : again.row = input.row := by
      have found := find_row existingMem
      rw [show again.row.attemptId = input.row.attemptId from sameId] at found
      exact Option.some.inj (found.symm.trans search)
    simp only [RecordInput.row, DeliveryRow.mk.injEq] at sameRow
    rcases sameRow with ⟨-, -, ordinal, number, -, -, -, finished, outcome⟩
    refine ⟨finished, outcome, ?_⟩
    rcases left.current with ⟨other, stored, maximum, -, kept⟩
    rw [← sameOutbox] at stored kept
    have isRow := stored.symm.trans finds.stored
    cases isRow
    rcases kept finds.raised with ⟨-, -, old, oldMem, isOrdinal, scheduled⟩
    have isTarget : old = target :=
      eq_of_ordinal oldMem finds.mem (isOrdinal.trans (ordinal.symm.trans finds.ordinal.symm))
    subst isTarget
    have attempts : again.lease.outbox.maxAttempts = input.lease.outbox.maxAttempts := by
      have identity := finds.identity
      simp only [OutboxRecord.sameIdentity, OutboxRow.record, Bool.and_eq_true,
        beq_iff_eq] at identity
      exact identity.1.1.1.1.2.symm.trans maximum
    have rescheduled := finds.scheduled
    simp only [outcomeOf, orError_eq_ok] at scheduled rescheduled
    rw [attempts, number, finished, outcome] at rescheduled
    exact delay_of_outcomeSchedule rescheduled scheduled
  · have unrecorded := concludes.unrecorded
    rw [sameId] at unrecorded
    rw [show input.attemptId = input.row.attemptId from rfl, search] at unrecorded
    cases unrecorded

omit [TradeEvidence] in
/-- A recovery settles submitted targets only. -/
theorem mem_of_recoverTargets {lease : PublicationLease} {now delay : Nat} {list : List TargetRow}
    {current : Snapshot} (done : recoverTargets lease now delay list store = .ok next)
    (read : snapshot lease.outbox.id store = some current)
    (maximum : lease.outbox.maxAttempts = current.row.maxAttempts) {target : TargetRow}
    (targetMem : target ∈ targetsOf lease.outbox.id store) (settled : target.state ≠ .submitted) :
    target ∈ targetsOf lease.outbox.id next := by
  induction list generalizing store current with
  | nil =>
      cases done
      exact targetMem
  | cons first rest ih =>
      simp only [recoverTargets, bind_eq_ok, require_eq_ok, orError_eq_ok] at done
      rcases done with ⟨attemptId, -, -, -, -, -, -, -, ⟨state, middle⟩, written, others⟩
      rcases writeOutcome_spec written read maximum with
        ⟨schedule, old, settles, -, -, settledRead⟩
      refine ih others settledRead maximum ?_
      rw [show targetsOf lease.outbox.id middle = _ from (snapshot_eq_some.mp settledRead).2.1]
      rw [(snapshot_eq_some.mp read).2.1] at targetMem
      refine mem_exchange_of_ne targetMem ?_
      rintro rfl
      exact settled settles.submitted

omit [TradeEvidence] in
/-- What a recovery appends to the log is the unknown outcome of a submitted target, with the drawn
delay. -/
theorem added_of_recoverTargets {lease : PublicationLease} {now delay : Nat} {list : List TargetRow}
    {current : Snapshot} (done : recoverTargets lease now delay list store = .ok next)
    (read : snapshot lease.outbox.id store = some current)
    (maximum : lease.outbox.maxAttempts = current.row.maxAttempts) {attempt : DeliveryRow}
    (attemptMem : attempt ∈ deliveriesOf lease.outbox.id next) :
    attempt ∈ deliveriesOf lease.outbox.id store ∨
      ∃ target attemptId, attempt = (recoveryInput lease now delay target attemptId).row ∧
        ∃ written ∈ targetsOf lease.outbox.id next,
          written.targetOrdinal = target.targetOrdinal ∧
          outcomeOf (recoveryInput lease now delay target attemptId) =
            .ok (written.state, written.nextAttempt) := by
  induction list generalizing store current with
  | nil =>
      cases done
      exact .inl attemptMem
  | cons first rest ih =>
      simp only [recoverTargets, bind_eq_ok, require_eq_ok, orError_eq_ok] at done
      rcases done with ⟨attemptId, -, -, -, -, -, -, -, ⟨state, middle⟩, written, others⟩
      rcases writeOutcome_spec written read maximum with
        ⟨schedule, old, settles, scheduled, -, settledRead⟩
      rcases snapshot_eq_some.mp settledRead with ⟨-, targets, log⟩
      rcases ih others settledRead maximum with before | later
      · rw [show deliveriesOf lease.outbox.id middle = _ from log] at before
        rcases List.mem_append.mp before with earlier | added
        · rw [(snapshot_eq_some.mp read).2.2]
          exact .inl earlier
        · refine .inr ⟨first, attemptId, List.mem_singleton.mp added,
            (recordTarget state schedule now (recoveryInput lease now delay first attemptId)).write
              old, mem_of_recoverTargets others settledRead maximum ?_ ?_, settles.ordinal,
            scheduled⟩
          · rw [show targetsOf lease.outbox.id middle = _ from targets]
            exact exchanged_mem settles.mem
          · rcases settles.scheduled with ⟨bound, made⟩
            exact (outcomeSchedule_spec made).1
      · exact .inr later

omit [TradeEvidence] in
/-- The recovery of a lease leaves the outcomes it appends to the log. -/
theorem left_of_recoverExpired {candidate : RecoveryCandidate} {now : UnixMilliseconds}
    {delay : Nat} {done : Unit} {attempt : DeliveryRow}
    (recovered : recoverExpired candidate now delay store = .ok (done, next))
    (sorted : Sorted (targetsOf candidate.outbox.id store))
    (attemptMem : attempt ∈ deliveriesOf candidate.outbox.id next)
    (fresh : attempt ∉ deliveriesOf candidate.outbox.id store) :
    ∃ input : RecordInput, input.row = attempt ∧ input.lease.outbox = candidate.outbox ∧
      input.outcome = .unknown ∧ input.finishedAt = now.get ∧ input.retryDelay = delay ∧
      Left input (candidate.outbox.revision + 1) next next ∧
      ∃ row, outboxRow candidate.outbox.id store = some row ∧
        row.revision = candidate.outbox.revision := by
  simp only [recoverExpired, bind_eq_ok, pure_eq_ok, require_eq_ok, orError_eq_ok, Prod.mk.injEq,
    Bool.and_eq_true, beq_iff_eq] at recovered
  rcases recovered with ⟨_, read, -, rfl, -, ⟨leased, -⟩, owner, owned, expiresAt, expires, -,
    -, middle, settles, ⟨decided, last⟩, released, -, rfl⟩
  rcases readOutbox_spec read with ⟨row, leaseOwner, stored, decoded, same⟩
  have revision : candidate.outbox.revision = row.revision := by
    rw [same]
    rfl
  have maximum : candidate.outbox.maxAttempts = row.maxAttempts := by
    rw [same]
    rfl
  have before : snapshot candidate.outbox.id store = some ⟨row,
      targetsOf candidate.outbox.id store, deliveriesOf candidate.outbox.id store⟩ :=
    snapshot_eq_some.mpr ⟨stored, rfl, rfl⟩
  rw [readTargets_of_sorted sorted] at settles
  rcases recoverTargets_spec settles before maximum with
    ⟨settledOutbox, recovers, -, settledRead⟩
  have settledMaximum : candidate.outbox.maxAttempts = settledOutbox.row.maxAttempts := by
    rw [recovers.row_eq]
    exact maximum
  rcases release_spec released settledRead (recovers.sorted sorted) settledMaximum with
    ⟨-, -, -, -, after⟩
  rcases snapshot_eq_some.mp settledRead with ⟨-, settledTargets, settledLog⟩
  rcases snapshot_eq_some.mp after with ⟨isRow, targets, log⟩
  have listed : attempt ∈ deliveriesOf candidate.outbox.id middle := by
    rw [show deliveriesOf candidate.outbox.id last = settledOutbox.deliveries from log]
      at attemptMem
    rw [show deliveriesOf candidate.outbox.id middle = settledOutbox.deliveries from settledLog]
    exact attemptMem
  rcases added_of_recoverTargets settles before maximum listed with
    earlier | ⟨target, attemptId, isAttempt, written, writtenMem, ordinal, scheduled⟩
  · exact absurd earlier fresh
  · refine ⟨_, isAttempt.symm, rfl, rfl, rfl, rfl, ⟨?_, _, isRow, ?_, ?_, ?_⟩, row, stored,
      revision.symm⟩
    · rw [← isAttempt]
      exact attemptMem
    · change settledOutbox.row.maxAttempts = candidate.outbox.maxAttempts
      exact settledMaximum.symm
    · change candidate.outbox.revision + 1 ≤ settledOutbox.row.revision + 1
      rw [revision, recovers.row_eq]
    · intro _
      refine ⟨?_, rfl, written, ?_, ordinal, scheduled⟩
      · change decided.outboxState.1 ≠ .leased
        cases decided <;> simp [Verdict.outboxState]
      · rw [show targetsOf candidate.outbox.id middle = settledOutbox.targets from settledTargets]
          at writtenMem
        change written ∈ targetsOf candidate.outbox.id last
        rw [show targetsOf candidate.outbox.id last = settledOutbox.targets from targets]
        exact writtenMem

end Leaving

section Replays

variable [Sha256] [TradeEvidence]

omit [TradeEvidence] in
/-- An outcome that is told of an attempt is the one its log has. -/
theorem found_unique {input : RecordInput} {row other : OutboxRow} {target old : TargetRow}
    {decided verdict : Verdict} {store : Store} (finds : Finds input row target decided store)
    (again : Finds input other old verdict store) :
    found input row target = found input other old := by
  have isRow := finds.stored.symm.trans again.stored
  cases isRow
  have isTarget : target = old :=
    eq_of_ordinal finds.mem again.mem (finds.ordinal.trans again.ordinal.symm)
  rw [isTarget]

omit [TradeEvidence] in
/-- A later record that is accepted changes nothing, and finds the outbox as the first one left
it. -/
theorem Left.accepts {input : RecordInput} {commit : AttemptCommit} {written store next : Store}
    (left : Left input (input.lease.outbox.revision + 1) written store)
    (sorted : Sorted (targetsOf input.lease.outbox.id store))
    (done : recordOutcome input store = .ok (commit, next)) :
    next = store ∧
      contents input.lease.outbox.id store = contents input.lease.outbox.id written ∧
      ∃ row target decided, Finds input row target decided store ∧
        commit = found input row target := by
  rcases recordOutcome_cases done sorted with
    ⟨same, existing, existingMem, isAttempt, reconciled⟩ |
      ⟨current, state, schedule, old, decided, concludes, -⟩
  · rcases (reconcileRecorded_iff sorted).mp reconciled with
      ⟨-, row, target, decided, finds, isFound⟩
    rcases left.current with ⟨other, stored, -, -, kept⟩
    have isRow := stored.symm.trans finds.stored
    cases isRow
    exact ⟨same, (kept finds.raised).2.1, row, target, decided, finds, isFound⟩
  · have unrecorded := concludes.unrecorded
    rw [show input.attemptId = input.row.attemptId from rfl,
      find_row (List.mem_filter.mp left.logged).1] at unrecorded
    cases unrecorded

omit [TradeEvidence] in
/-- Nothing is recorded of an attempt that is in the log once its outbox has moved on. -/
theorem revision_of_recordOutcome {input : RecordInput} {commit : AttemptCommit}
    {store next : Store} {attempt : DeliveryRow} {row : OutboxRow}
    (sorted : Sorted (targetsOf input.lease.outbox.id store))
    (attemptMem : attempt ∈ store.deliveries.rows) (isAttempt : attempt.attemptId = input.attemptId)
    (stored : outboxRow input.lease.outbox.id store = some row)
    (done : recordOutcome input store = .ok (commit, next)) :
    row.revision = input.lease.outbox.revision + 1 := by
  rcases recordOutcome_cases done sorted with
    ⟨-, existing, existingMem, -, reconciled⟩ |
      ⟨current, state, schedule, old, decided, concludes, -⟩
  · rcases (reconcileRecorded_iff sorted).mp reconciled with ⟨-, other, target, decided, finds, -⟩
    have isRow := stored.symm.trans finds.stored
    cases isRow
    exact finds.raised
  · have unrecorded := concludes.unrecorded
    rw [← isAttempt, find_row attemptMem] at unrecorded
    cases unrecorded

omit [TradeEvidence] in
theorem recordPublicationOutcome_spec {mode : HostMode} {disposition : Disposition}
    {prepared : PreparedAttempt} {finishedAt : UnixMilliseconds} {outcome : AttemptOutcome}
    {delay : Nat} {store next : Store} {commit : AttemptCommit}
    (done : recordPublicationOutcome mode disposition prepared finishedAt outcome delay store =
      (.ok commit, next)) :
    mode = .readWriteExisting ∧
      RecordInput.fromPrepared prepared finishedAt outcome delay =
        .ok (attemptInput prepared finishedAt outcome delay) ∧
      recordOutcome (attemptInput prepared finishedAt outcome delay) store =
        .ok (commit, next) := by
  unfold recordPublicationOutcome at done
  split at done
  · cases done
  · rename_i open_
    cases made : RecordInput.fromPrepared prepared finishedAt outcome delay with
    | error error =>
        rw [made] at done
        cases done
    | ok input =>
        rw [made] at done
        rcases fromPrepared_spec made with ⟨-, rfl⟩
        have body := transaction_ok (congrArg Prod.fst done)
        rw [show (transaction _ _ _ _).2 = next from congrArg Prod.snd done] at body
        exact ⟨not_not.mp open_, rfl, body⟩

omit [TradeEvidence] in
/-- A call whose transaction cannot succeed fails, and changes nothing. -/
theorem recordPublicationOutcome_refused {mode : HostMode} {prepared : PreparedAttempt}
    {finishedAt : UnixMilliseconds} {outcome : AttemptOutcome} {delay : Nat} {store : Store}
    (refused : ∀ commit next,
      recordOutcome (attemptInput prepared finishedAt outcome delay) store ≠ .ok (commit, next))
    (disposition : Disposition) :
    ∃ error, recordPublicationOutcome mode disposition prepared finishedAt outcome delay store =
      (.error error, store) := by
  unfold recordPublicationOutcome
  split
  · exact ⟨_, rfl⟩
  · cases made : RecordInput.fromPrepared prepared finishedAt outcome delay with
    | error error => exact ⟨error, rfl⟩
    | ok input =>
        rcases fromPrepared_spec made with ⟨-, rfl⟩
        exact transaction_refused disposition refused

/-- How the records of a prepared attempt agree with each other, in a state of a host. -/
structure ReplaySafe (prepared : PreparedAttempt) (host : Host) (store : Store) : Prop where
  /-- The first record is told as it was written. -/
  agrees : ∀ finishedAt outcome delay commit after,
    recordPublicationOutcome host.mode .acknowledged prepared finishedAt outcome delay store =
      (.ok commit, after) →
    ∃ row target decided,
      Finds (attemptInput prepared finishedAt outcome delay) row target decided after ∧
      commit = found (attemptInput prepared finishedAt outcome delay) row target
  /-- A record that is repeated before anything else is written to the outbox gives the same commit,
  and changes nothing. -/
  repeated : ∀ finishedAt outcome delay commit after,
    recordPublicationOutcome host.mode .acknowledged prepared finishedAt outcome delay store =
      (.ok commit, after) →
    ∀ moves, contents prepared.lease.outbox.id (exec moves ⟨after, some host⟩).store =
        contents prepared.lease.outbox.id after →
      recordPublicationOutcome host.mode .acknowledged prepared finishedAt outcome delay
          (exec moves ⟨after, some host⟩).store =
        (.ok commit, (exec moves ⟨after, some host⟩).store) ∧
      ∀ disposition, (recordPublicationOutcome host.mode disposition prepared finishedAt outcome
        delay (exec moves ⟨after, some host⟩).store).2 = (exec moves ⟨after, some host⟩).store
  /-- A later record that is accepted is that repetition. -/
  accepted : ∀ finishedAt outcome delay commit after,
    recordPublicationOutcome host.mode .acknowledged prepared finishedAt outcome delay store =
      (.ok commit, after) →
    ∀ moves disposition finishedAgain outcomeAgain delayAgain commitAgain next,
      recordPublicationOutcome host.mode disposition prepared finishedAgain outcomeAgain delayAgain
        (exec moves ⟨after, some host⟩).store = (.ok commitAgain, next) →
      (finishedAgain, outcomeAgain, delayAgain) = (finishedAt, outcome, delay) ∧
        commitAgain = commit ∧ next = (exec moves ⟨after, some host⟩).store ∧
        contents prepared.lease.outbox.id next = contents prepared.lease.outbox.id after
  /-- What was recorded is not recorded differently. -/
  different : ∀ finishedAt outcome delay commit after,
    recordPublicationOutcome host.mode .acknowledged prepared finishedAt outcome delay store =
      (.ok commit, after) →
    ∀ moves disposition finishedAgain outcomeAgain delayAgain,
      (finishedAgain, outcomeAgain, delayAgain) ≠ (finishedAt, outcome, delay) →
      ∃ error, recordPublicationOutcome host.mode disposition prepared finishedAgain outcomeAgain
        delayAgain (exec moves ⟨after, some host⟩).store =
          (.error error, (exec moves ⟨after, some host⟩).store)
  /-- What the recovery of a lease recorded is not recorded differently by whom the lease was handed
  to before. -/
  recovered : ∀ candidate recoveredAt drawn after,
    host.mode = .readWriteExisting →
    recoverExpiredPublication .acknowledged candidate recoveredAt drawn store = (.ok (), after) →
    candidate.outbox.id = prepared.lease.outbox.id →
    Seen prepared.lease store →
    (∃ attempt ∈ deliveriesOf prepared.lease.outbox.id after, attempt ∉ store.deliveries.rows ∧
      attempt.attemptId = prepared.attemptId) →
    ∀ moves disposition finishedAt outcome delay,
      (finishedAt, outcome, delay) ≠ (recoveredAt, .unknown, drawn) →
      ∃ error, recordPublicationOutcome host.mode disposition prepared finishedAt outcome delay
        (exec moves ⟨after, some host⟩).store =
          (.error error, (exec moves ⟨after, some host⟩).store)
  /-- Nothing is recorded of an attempt in the log once its outbox has moved on. -/
  movedOn : ∀ attempt ∈ store.deliveries.rows, attempt.attemptId = prepared.attemptId →
    ∀ row, outboxRow prepared.lease.outbox.id store = some row →
    row.revision ≠ prepared.lease.outbox.revision + 1 → ∀ disposition finishedAt outcome delay,
    ∃ error, recordPublicationOutcome host.mode disposition prepared finishedAt outcome delay
      store = (.error error, store)

variable {prepared : PreparedAttempt} {host : Host} {store : Store}

/-- The outbox, and what is left of a record in it, after a first record and a run. -/
theorem left_of_recordPublicationOutcome (orderly : Orderly store)
    {finishedAt : UnixMilliseconds} {outcome : AttemptOutcome} {delay : Nat}
    {commit : AttemptCommit} {after : Store}
    (done : recordPublicationOutcome host.mode .acknowledged prepared finishedAt outcome delay
      store = (.ok commit, after)) (moves : List Move) :
    Orderly (exec moves ⟨after, some host⟩).store ∧
      Left (attemptInput prepared finishedAt outcome delay) (prepared.lease.outbox.revision + 1)
      after
        (exec moves ⟨after, some host⟩).store := by
  have ordered : Orderly after := by
    have kept := orderly_apply (.record .acknowledged prepared finishedAt outcome delay)
      ⟨store, some host⟩ orderly
    rw [show after = _ from (congrArg Prod.snd done).symm]
    exact kept
  rcases recordPublicationOutcome_spec done with ⟨-, -, recorded⟩
  rcases finds_of_recordOutcome recorded (sorted_of_every orderly.referenced orderly.sound) with
    ⟨logged, row, target, decided, finds, -⟩
  have left := left_of_finds finds logged
  exact ⟨Transition.exec_invariant (fun service : Service => Orderly service.store) orderly_apply
    moves ordered, Left.exec ⟨after, some host⟩ ordered left moves⟩

omit [TradeEvidence] in
theorem Left.refuses {input : RecordInput} {written later : Store} {finishedAt : UnixMilliseconds}
    {outcome : AttemptOutcome} {delay : Nat} {mode : HostMode}
    (left : Left input (prepared.lease.outbox.revision + 1) written later) (orderly : Orderly later)
    (sameId : prepared.attemptId = input.attemptId)
    (sameOutbox : prepared.lease.outbox.id = input.lease.outbox.id)
    (differs : ¬(finishedAt.get = input.finishedAt ∧ outcome = input.outcome ∧
      delay = input.retryDelay)) (disposition : Disposition) :
    ∃ error, recordPublicationOutcome mode disposition prepared finishedAt outcome delay later =
      (.error error, later) :=
  recordPublicationOutcome_refused (fun _ _ recorded => differs (left.same
    (attemptInput prepared finishedAt outcome delay)
    (sorted_of_every orderly.referenced orderly.sound) sameId sameOutbox recorded)) disposition

/-- The records of an attempt agree with each other in every orderly store. -/
theorem replaySafe_of_orderly (orderly : Orderly store) : ReplaySafe prepared host store where
  agrees := by
    intro finishedAt outcome delay commit after done
    rcases recordPublicationOutcome_spec done with ⟨-, -, recorded⟩
    exact (finds_of_recordOutcome recorded
      (sorted_of_every orderly.referenced orderly.sound)).2
  repeated := by
    intro finishedAt outcome delay commit after done moves same
    rcases left_of_recordPublicationOutcome orderly done moves with ⟨later, left⟩
    rcases recordPublicationOutcome_spec done with ⟨open_, made, recorded⟩
    rcases finds_of_recordOutcome recorded (sorted_of_every orderly.referenced orderly.sound) with
      ⟨-, row, target, decided, finds, rfl⟩
    have again := recordOutcome_of_finds (finds.congr same) (List.mem_filter.mp left.logged).1
      (sorted_of_every later.referenced later.sound)
    simp only [recordPublicationOutcome, open_, made, ne_eq, not_true_eq_false, if_false]
    refine ⟨transaction_acknowledged again, ?_⟩
    intro disposition
    rcases transaction_store mapPublicationError disposition
      (recordOutcome (attemptInput prepared finishedAt outcome delay))
      (exec moves ⟨after, some host⟩).store with unchanged | ⟨value, next, body, isNext⟩
    · exact unchanged
    · rw [isNext]
      exact (congrArg Prod.snd (Except.ok.inj (body.symm.trans again)))
  accepted := by
    intro finishedAt outcome delay commit after done moves disposition finishedAgain outcomeAgain
      delayAgain commitAgain next doneAgain
    rcases left_of_recordPublicationOutcome orderly done moves with ⟨later, left⟩
    have sorted :
        Sorted (targetsOf prepared.lease.outbox.id (exec moves ⟨after, some host⟩).store) :=
      sorted_of_every later.referenced later.sound
    rcases recordPublicationOutcome_spec doneAgain with ⟨-, -, recordedAgain⟩
    rcases left.same (attemptInput prepared finishedAgain outcomeAgain delayAgain) sorted rfl
      rfl recordedAgain with ⟨sameFinish, rfl, rfl⟩
    have sameInstant : finishedAgain = finishedAt := instant_ext sameFinish
    subst sameInstant
    rcases left.accepts sorted recordedAgain with
      ⟨rfl, same, row, target, decided, finds, rfl⟩
    rcases recordPublicationOutcome_spec done with ⟨-, -, recorded⟩
    rcases finds_of_recordOutcome recorded (sorted_of_every orderly.referenced orderly.sound) with
      ⟨-, first, old, verdict, found, rfl⟩
    exact ⟨rfl, found_unique finds (found.congr same), rfl, same⟩
  different := by
    intro finishedAt outcome delay commit after done moves disposition finishedAgain outcomeAgain
      delayAgain differs
    rcases left_of_recordPublicationOutcome orderly done moves with ⟨later, left⟩
    refine left.refuses later rfl rfl ?_ disposition
    rintro ⟨sameFinish, rfl, rfl⟩
    have sameInstant : finishedAgain = finishedAt := instant_ext sameFinish
    subst sameInstant
    exact differs rfl
  recovered := by
    intro candidate recoveredAt drawn after open_ done sameId seen recorded moves disposition
      finishedAt outcome delay differs
    rcases recorded with ⟨attempt, attemptMem, fresh, isAttempt⟩
    have ordered : Orderly after := by
      have kept := orderly_apply (.recover .acknowledged candidate recoveredAt drawn)
        ⟨store, some host⟩ orderly
      simp only [Move.apply, Move.run, if_pos open_, done] at kept
      exact kept
    have body := transaction_ok (congrArg Prod.fst done)
    rw [show (transaction _ _ _ _).2 = after from congrArg Prod.snd done] at body
    rw [← sameId] at attemptMem
    rcases left_of_recoverExpired body (sorted_of_every orderly.referenced orderly.sound) attemptMem
      (fun before => fresh (List.mem_filter.mp before).1) with
      ⟨input, rfl, outbox, unknown, finished, delayed, left, row, stored, isRevision⟩
    rcases seen with ⟨old, isOld, newest⟩
    rw [← sameId, stored] at isOld
    cases isOld
    rw [isRevision] at newest
    have sameOutbox : prepared.lease.outbox.id = input.lease.outbox.id := by rw [outbox, sameId]
    have kept := Left.exec ⟨after, some host⟩ ordered left moves
    have later : Orderly (exec moves ⟨after, some host⟩).store :=
      Transition.exec_invariant (fun service : Service => Orderly service.store) orderly_apply moves
        ordered
    rcases Nat.eq_or_lt_of_le newest with sameRevision | older
    · rw [← sameRevision] at kept
      refine kept.refuses later isAttempt.symm sameOutbox ?_ disposition
      rintro ⟨sameFinish, rfl, rfl⟩
      have sameInstant : finishedAt = recoveredAt := instant_ext (sameFinish.trans finished)
      subst sameInstant
      exact differs (by rw [unknown, delayed])
    · refine recordPublicationOutcome_refused ?_ disposition
      intro commit next recordedAgain
      rcases kept.current with ⟨current, isCurrent, -, reached, -⟩
      rw [← sameOutbox] at isCurrent
      have revision := revision_of_recordOutcome
        (sorted_of_every later.referenced later.sound) (List.mem_filter.mp kept.logged).1 isAttempt
        isCurrent recordedAgain
      change current.revision = prepared.lease.outbox.revision + 1 at revision
      omega
  movedOn := by
    intro attempt attemptMem isAttempt row stored moved disposition finishedAt outcome delay
    refine recordPublicationOutcome_refused ?_ disposition
    intro commit next done
    exact moved (revision_of_recordOutcome (sorted_of_every orderly.referenced orderly.sound)
      attemptMem isAttempt stored done)

end Replays

end Publication

end Rhi
