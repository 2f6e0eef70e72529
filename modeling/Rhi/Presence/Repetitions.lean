import Rhi.Presence.Generations
import Rhi.Publication.Repetitions

/-!
# Repeated records of a presence outcome

The outcomes of presence are recorded as those of a publication are: once, with one schedule, and
found again until the outbox moves on.
-/

namespace Rhi

open Relational Transactional

namespace Presence

section Logs

variable [Sha256] [PresenceEvents]

omit [Sha256] [PresenceEvents] in
theorem attempts_of_writeOutcome {input : PresenceInput} {store next : PresenceStore}
    {state : TargetState} (done : writeOutcome input store = .ok (state, next)) :
    next.attempts.rows = store.attempts.rows ++ [input.row] := by
  simp only [writeOutcome, insertAttempt, bind_eq_ok, pure_eq_ok, require_eq_ok, orError_eq_ok,
    Prod.mk.injEq] at done
  rcases done with ⟨_, ⟨-, -, attempts, inserted, rfl⟩, -, -, -, -, -, -, -, rfl⟩
  exact (Table.insert_spec inserted).1

omit [Sha256] [PresenceEvents] in
theorem attempts_of_release {expired : Bool} {state : PresenceState} {schedule : Option Nat}
    {now : Nat} {id : Digest} {revision : Nat} {owner : BitVec 128} {expires : Nat}
    {store next : PresenceStore}
    (done : release expired state schedule now id revision owner expires store = .ok next) :
    next.attempts = store.attempts := by
  simp only [release, bind_eq_ok, pure_eq_ok, orError_eq_ok] at done
  rcases done with ⟨_, -, -, -, rfl⟩
  rfl

omit [Sha256] [PresenceEvents] in
theorem attempts_of_recoverTargets {row : PresenceRow} {owner : LeaseOwner}
    {expires now delay : Nat} {targets : List TargetRow} {store next : PresenceStore}
    (done : recoverTargets row owner expires now delay targets store = .ok next) :
    store.attempts.rows ⊆ next.attempts.rows := by
  induction targets generalizing store with
  | nil =>
      cases done
      exact List.Subset.refl _
  | cons target rest ih =>
      simp only [recoverTargets, bind_eq_ok] at done
      rcases done with ⟨attemptId, -, -, -, ⟨state, middle⟩, written, others⟩
      refine List.Subset.trans ?_ (ih others)
      rw [attempts_of_writeOutcome written]
      exact List.subset_append_left _ _

theorem attempts_of_recoverExpired {candidate : PresenceCandidate} {now : UnixMilliseconds}
    {delay : Nat} {store next : PresenceStore} {done : Unit}
    (recovered : recoverExpired candidate now delay store = .ok (done, next)) :
    store.attempts.rows ⊆ next.attempts.rows := by
  simp only [recoverExpired, bind_eq_ok] at recovered
  rcases recovered with ⟨_, -, _, -, _, -, owner, -, expires, -, middle, settles, targets, -, ends⟩
  have last : ∃ state schedule, release true state schedule now.get candidate.outbox.row.outboxId
      candidate.outbox.row.revision owner.bytes expires middle = .ok next := by
    split at ends <;> simp only [bind_eq_ok, pure_eq_ok, Prod.mk.injEq] at ends
    · rcases ends with ⟨_, -, _, -, last, released, -, rfl⟩
      exact ⟨_, _, released⟩
    · rcases ends with ⟨_, -, last, released, -, rfl⟩
      exact ⟨_, _, released⟩
  rcases last with ⟨state, schedule, released⟩
  rw [attempts_of_release released]
  exact attempts_of_recoverTargets settles

omit [Sha256] [PresenceEvents] in
/-- Nothing is taken out of the log. -/
def Grows (before after : PresenceStore) : Prop :=
  before.attempts.rows ⊆ after.attempts.rows

theorem grows_apply (move : Move) {system : System} (lawful : Lawful system) :
    Grows system.store (system.apply move).store := by
  have unchanged : Grows system.store system.store := List.Subset.refl _
  cases move with
  | configure bindings => exact unchanged
  | desire disposition authority =>
      simp only [System.apply, commitDesiredPresence, ne_eq, not_true_eq_false, if_false]
      refine transaction_kept unchanged ?_
      intro outcome next done
      rw [(commitDesired_spec done).1]
      exact unchanged
  | commit disposition documents committedAt =>
      simp only [System.apply, commitSignedPresence, ne_eq, not_true_eq_false, if_false]
      refine transaction_kept unchanged ?_
      intro outcome next done
      rcases commitSigned_spec lawful.historic.referenced done with
        ⟨desired, isDesired, -, -, ⟨-, rfl, -⟩ | opened⟩
      · exact unchanged
      · rcases opened.superseded with ⟨outbox, affected, -, inserted⟩
        rw [Grows, inserted.attempts]
        exact List.Subset.refl _
  | claim disposition owner now =>
      simp only [System.apply, claimNextPresence, ne_eq, not_true_eq_false, if_false]
      refine transaction_kept unchanged ?_
      intro outcome next done
      unfold claimNext at done
      split at done
      · cases done
        exact unchanged
      · simp only [bind_eq_ok, pure_eq_ok, Prod.mk.injEq] at done
        rcases done with ⟨_, -, _, -, _, -, _, -, _, -, _, -, _, -, _, -, _, -, _, -, -, rfl⟩
        exact unchanged
  | prepare disposition lease startedAt =>
      simp only [System.apply]
      split
      · simp only [prepareNextPresenceTarget, ne_eq, not_true_eq_false, if_false]
        refine transaction_kept unchanged ?_
        intro prepared next done
        simp only [prepareNext, bind_eq_ok, pure_eq_ok, orError_eq_ok, Prod.mk.injEq] at done
        rcases done with ⟨_, -, _, -, _, -, _, -, _, -, _, -, _, -, _, -, _, -, _, -, _, -, -, rfl⟩
        exact unchanged
      · exact unchanged
  | record disposition prepared finishedAt outcome delay =>
      simp only [System.apply]
      split
      · simp only [recordPresenceOutcome, ne_eq, not_true_eq_false, if_false]
        split
        · exact unchanged
        · refine transaction_kept unchanged ?_
          intro committed next done
          rcases recordOutcome_spec lawful.sound done with rfl | ⟨record, released, -, appended⟩
          · exact unchanged
          · rw [Grows, appended]
            exact List.subset_append_left _ _
      · exact unchanged
  | recover disposition candidate now delay =>
      refine transaction_kept unchanged ?_
      intro done next recovered
      exact attempts_of_recoverExpired recovered
  | refresh disposition expected now =>
      refine transaction_kept unchanged ?_
      intro done next refreshed
      unfold refresh at refreshed
      split at refreshed
      · simp only [bind_eq_ok, pure_eq_ok, Prod.mk.injEq] at refreshed
        rcases refreshed with ⟨_, -, _, -, _, -, _, -, _, -, _, -, -, rfl⟩
        exact unchanged
      · cases refreshed

end Logs

section Finding

variable [Sha256] [PresenceEvents] {input : PresenceInput} {record : PresenceRecord}
  {target : TargetRow} {decided : Verdict} {store next : PresenceStore}
  {commit : PresenceAttemptCommit}

omit [PresenceEvents] in
/-- What `reconcile_recorded` has to find of a recorded outcome. -/
structure Finds (input : PresenceInput) (record : PresenceRecord) (target : TargetRow)
    (decided : Verdict) : Prop where
  raised : record.row.revision = input.outboxRevision + 1
  finished : record.row.updatedAt = input.finishedAt
  unowned : record.row.leaseOwner = none
  unleased : record.row.leaseExpires = none
  bytes : record.row.eventDigest = input.eventDigest
  mem : target ∈ record.targets
  ordinal : target.targetOrdinal = input.targetOrdinal
  revision : target.revision = input.targetRevision + 1
  number : target.attemptCount = input.attemptNumber
  attempt : target.lastAttemptId = some input.attemptId
  scheduled : outcomeOf input = .ok (target.state, target.nextAttempt)
  written : target.updatedAt = input.finishedAt
  disposed : disposition record.row record.targets = .ok decided
  decides : decided.presenceState = (record.row.state, record.row.nextAttempt)

omit [Sha256] [PresenceEvents] in
/-- What is told of an outcome that was found. -/
def found (input : PresenceInput) (record : PresenceRecord) (target : TargetRow) :
    PresenceAttemptCommit :=
  ⟨input.outboxId, input.attemptId, input.targetOrdinal, input.attemptNumber, input.outcome,
    target.state, record.row.state⟩

theorem reconcileRecorded_iff {existing : DeliveryRow} (sound : Every PresenceRecord.Sound store) :
    reconcileRecorded input existing store = .ok commit ↔ existing = input.row ∧
      ∃ record target decided, stored input.outboxId store = some record ∧
        Finds input record target decided ∧ commit = found input record target := by
  constructor
  · intro reconciled
    simp only [reconcileRecorded, readOutbox_of_sound sound, bind_eq_ok, require_eq_ok,
      orError_eq_ok, pure_eq_ok, Except.ok.injEq, exists_eq_left', Bool.and_eq_true, beq_iff_eq,
      Option.isNone_iff_eq_none] at reconciled
    rcases reconciled with ⟨-, rfl, record, isStored, -, ⟨⟨⟨⟨raised, finished⟩, unowned⟩, unleased⟩,
      bytes⟩, -, -, ⟨state, schedule⟩, scheduled, target, search, -,
      ⟨⟨⟨⟨⟨revision, number⟩, attempt⟩, isState⟩, isNext⟩, written⟩, decided, disposed, -,
      ⟨outboxState, nextAttempt⟩, rfl⟩
    have id : record.row.outboxId = input.outboxId :=
      (storedRow_spec (stored_eq_some.mp isStored).1).2
    refine ⟨rfl, record, target, decided, isStored, ⟨raised, finished, unowned, unleased, bytes,
      List.mem_of_find?_eq_some search, by simpa using List.find?_some search, revision, number,
      attempt, ?_, written, disposed, Prod.ext outboxState.symm nextAttempt.symm⟩, ?_⟩
    · rw [scheduled, isState, isNext]
    · rw [found, id]
  · rintro ⟨rfl, record, target, decided, isStored, finds, rfl⟩
    have read := readOutbox_of_sound sound input.outboxId
    rw [isStored] at read
    have targets := (stored_eq_some.mp isStored).2
    have id : record.row.outboxId = input.outboxId :=
      (storedRow_spec (stored_eq_some.mp isStored).1).2
    have search : record.targets.find? (fun other => other.targetOrdinal == input.targetOrdinal) =
        some target := by
      rw [← finds.ordinal, ← targets]
      exact find_target (targets ▸ finds.mem)
    have valid := validateTargets_of_sound (sound _ _ isStored)
    simp only [reconcileRecorded, read, id, finds.raised, finds.finished, finds.unowned,
      finds.unleased, finds.bytes, valid, finds.scheduled, search, finds.revision, finds.number,
      finds.attempt, finds.written, finds.disposed, finds.decides, orError, require,
      beq_self_eq_true, Option.isNone_none, Bool.and_self, if_true, bind, Except.bind, pure,
      Except.pure, found]

/-- What was recorded for the first time is found again. -/
theorem finds_of_concludes {state : TargetState} {schedule : Option Nat} {old : TargetRow}
    (sound : Every PresenceRecord.Sound store)
    (concludes : Concludes input store next record state schedule old decided) :
    Finds input ((record.settle input state schedule old).release decided.presenceState.1
        decided.presenceState.2 input.finishedAt)
      ((recordTarget state schedule input).write old) decided := by
  have settles := concludes.settles
  have valid := concludes.valid
  simp only [validateInputLease, readOutbox_of_sound sound, concludes.stepped.before, bind_eq_ok,
    orError_eq_ok, require_eq_ok, Except.ok.injEq, exists_eq_left', Option.some.injEq,
    Bool.and_eq_true, beq_iff_eq] at valid
  rcases valid with ⟨-, -, ⟨⟨⟨⟨raised, bytes⟩, -⟩, -⟩, -⟩, -⟩
  exact {
    raised := congrArg (· + 1) raised
    finished := rfl
    unowned := rfl
    unleased := rfl
    bytes
    mem := exchanged_mem settles.mem
    ordinal := concludes.ordinal
    revision := congrArg (· + 1) concludes.revision
    number := settles.number
    attempt := settles.identity
    scheduled := concludes.scheduled
    written := rfl
    disposed := concludes.disposed
    decides := rfl }

omit [Sha256] [PresenceEvents] in
theorem presenceAttempts_clash_comm (left right : DeliveryRow) :
    presenceAttempts.clash left right = presenceAttempts.clash right left := by
  simp [presenceAttempts, Bool.beq_comm]

omit [Sha256] [PresenceEvents] in
theorem find_row {attempt : DeliveryRow} (attemptMem : attempt ∈ store.attempts.rows) :
    (store.attempts.rows.find? fun other => other.attemptId == attempt.attemptId) =
      some attempt := by
  cases search : store.attempts.rows.find? fun other => other.attemptId == attempt.attemptId with
  | none =>
      have missed := List.find?_eq_none.mp search attempt attemptMem
      simp at missed
  | some other =>
      have same : other.attemptId = attempt.attemptId := by simpa using List.find?_some search
      rw [Table.eq_of_clash presenceAttempts_clash_comm (List.mem_of_find?_eq_some search)
        attemptMem (by simp [presenceAttempts, same])]

/-- After a record the outcome is in the log and is found. -/
theorem finds_of_recordOutcome (sound : Every PresenceRecord.Sound store)
    (done : recordOutcome input store = .ok (commit, next)) :
    input.row ∈ next.attempts.rows ∧ ∃ record target decided,
      stored input.outboxId next = some record ∧ Finds input record target decided ∧
        commit = found input record target := by
  rcases recordOutcome_cases sound done with
    ⟨rfl, existing, existingMem, -, reconciled⟩ |
      ⟨record, state, schedule, old, decided, concludes, rfl⟩
  · rcases (reconcileRecorded_iff sound).mp reconciled with ⟨rfl, finds⟩
    exact ⟨existingMem, finds⟩
  · refine ⟨?_, _, _, decided, concludes.stepped.after, finds_of_concludes sound concludes, rfl⟩
    rw [concludes.appended]
    exact List.mem_append_right _ (List.mem_singleton.mpr rfl)

/-- A recorded outcome is found by a second record, and nothing changes. -/
theorem recordOutcome_of_finds (sound : Every PresenceRecord.Sound store)
    (isStored : stored input.outboxId store = some record)
    (finds : Finds input record target decided) (logged : input.row ∈ store.attempts.rows) :
    recordOutcome input store = .ok (found input record target, store) := by
  have search : (store.attempts.rows.find? fun other => other.attemptId == input.attemptId) =
      some input.row := find_row logged
  have reconciled := (reconcileRecorded_iff sound).mpr
    ⟨rfl, record, target, decided, isStored, finds, rfl⟩
  simp only [recordOutcome, search, reconciled, bind, Except.bind, pure, Except.pure]

end Finding

section Leaving

variable [Sha256] [PresenceEvents] {input : PresenceInput} {written : PresenceRecord}
  {store next : PresenceStore}

/-- What the record of an outcome left: a row of the log and, as long as the outbox has the revision
it was given, everything as it was written. -/
structure Left (input : PresenceInput) (revision : Nat) (written : PresenceRecord)
    (store : PresenceStore) : Prop where
  logged : input.row ∈ store.attempts.rows
  current : ∃ record, stored input.outboxId store = some record ∧ revision ≤ record.row.revision ∧
    (record.row.revision = revision → record = written)

/-- What was written when an outcome was recorded. -/
structure Written (input : PresenceInput) (written : PresenceRecord) : Prop where
  unleased : written.row.state ≠ .leased
  target : ∃ target ∈ written.targets, target.targetOrdinal = input.targetOrdinal ∧
    outcomeOf input = .ok (target.state, target.nextAttempt)

omit [Sha256] [PresenceEvents] in
theorem presenceState_ne_leased (decided : Verdict) : decided.presenceState.1 ≠ .leased := by
  cases decided <;> simp [Verdict.presenceState]

omit [PresenceEvents] in
theorem written_of_finds {target : TargetRow} {decided : Verdict}
    (finds : Finds input written target decided) : Written input written := by
  refine ⟨?_, target, finds.mem, finds.ordinal, finds.scheduled⟩
  rw [← show decided.presenceState.1 = written.row.state from congrArg Prod.fst finds.decides]
  exact presenceState_ne_leased decided

/-- Nothing is written to an outbox that is not leased without a new revision. -/
theorem Left.effects {revision : Nat} {allowed : Prop} (left : Left input revision written store)
    (unleased : written.row.state ≠ .leased) (grows : Grows store next)
    (effects : Effects allowed store next) : Left input revision written next := by
  rcases left.current with ⟨record, isStored, reached, kept⟩
  refine ⟨grows left.logged, ?_⟩
  have effect := effects input.outboxId
  rw [isStored] at effect
  generalize isNext : stored input.outboxId next = result at effect
  cases effect with
  | same => exact ⟨record, rfl, reached, kept⟩
  | @step action _ later step reopens =>
      refine ⟨later, rfl, ?_⟩
      rcases step.revision with ⟨rfl, same⟩ | raised
      · rw [same]
        refine ⟨reached, ?_⟩
        intro isRevision
        have leased : record.row.state = .leased := by
          cases step with
          | submit leased expiry early oldMem due quiet => exact leased
        exact absurd (kept isRevision ▸ leased) unleased
      · exact ⟨by omega, fun isRevision => by omega⟩

theorem Left.exec {revision : Nat} (system : System) (lawful : Lawful system)
    (left : Left input revision written system.store) (unleased : written.row.state ≠ .leased)
    (moves : List Move) :
    Lawful (System.exec moves system) ∧
      Left input revision written (System.exec moves system).store :=
  Transition.exec_invariant
    (fun later : System => Lawful later ∧ Left input revision written later.store)
    (fun move later invariant => ⟨lawful_apply move later invariant.1,
      invariant.2.effects unleased (grows_apply move invariant.1)
        (advance_apply move invariant.1).effects⟩) moves ⟨lawful, left⟩

/-- Who records an outcome of the attempt again, under the lease it was made with, records the
outcome that was recorded, and finds the outbox as it was left. -/
theorem Left.same (again : PresenceInput) {commit : PresenceAttemptCommit}
    (left : Left input (again.outboxRevision + 1) written store) (writes : Written input written)
    (sound : Every PresenceRecord.Sound store) (sameId : again.attemptId = input.attemptId)
    (sameOutbox : again.outboxId = input.outboxId)
    (done : recordOutcome again store = .ok (commit, next)) :
    again.finishedAt = input.finishedAt ∧ again.outcome = input.outcome ∧
      again.retryDelay = input.retryDelay ∧ next = store ∧
      stored again.outboxId store = some written ∧
      ∃ target decided, Finds again written target decided ∧
        commit = found again written target := by
  have search := find_row left.logged
  rcases recordOutcome_cases sound done with
    ⟨same, existing, existingMem, isAttempt, reconciled⟩ |
      ⟨record, state, schedule, old, decided, concludes, -⟩
  · rcases (reconcileRecorded_iff sound).mp reconciled with
      ⟨rfl, record, target, decided, isStored, finds, isFound⟩
    have sameRow : again.row = input.row := by
      have logged := find_row existingMem
      rw [show again.row.attemptId = input.row.attemptId from sameId] at logged
      exact Option.some.inj (logged.symm.trans search)
    simp only [PresenceInput.row, DeliveryRow.mk.injEq] at sameRow
    rcases sameRow with ⟨-, -, ordinal, number, -, -, -, finished, outcome⟩
    rcases left.current with ⟨other, isOther, -, kept⟩
    rw [← sameOutbox] at isOther
    have isRecord := isOther.symm.trans isStored
    cases isRecord
    have isWritten := kept finds.raised
    subst isWritten
    refine ⟨finished, outcome, ?_, same, isStored, target, decided, finds, isFound⟩
    rcases writes.target with ⟨old, oldMem, isOrdinal, scheduled⟩
    have targets := (stored_eq_some.mp isStored).2
    have isTarget : old = target := eq_of_ordinal (targets ▸ oldMem) (targets ▸ finds.mem)
      (isOrdinal.trans (ordinal.symm.trans finds.ordinal.symm))
    subst isTarget
    have rescheduled := finds.scheduled
    simp only [outcomeOf, orError_eq_ok] at scheduled rescheduled
    rw [number, finished, outcome] at rescheduled
    exact delay_of_outcomeSchedule rescheduled scheduled
  · have unrecorded := concludes.unrecorded
    rw [sameId, show input.attemptId = input.row.attemptId from rfl, search] at unrecorded
    cases unrecorded

/-- Nothing is recorded of an attempt that is in the log once its outbox has moved on. -/
theorem revision_of_recordOutcome {commit : PresenceAttemptCommit} {attempt : DeliveryRow}
    {record : PresenceRecord} (sound : Every PresenceRecord.Sound store)
    (attemptMem : attempt ∈ store.attempts.rows) (isAttempt : attempt.attemptId = input.attemptId)
    (isStored : stored input.outboxId store = some record)
    (done : recordOutcome input store = .ok (commit, next)) :
    record.row.revision = input.outboxRevision + 1 := by
  rcases recordOutcome_cases sound done with
    ⟨-, existing, existingMem, -, reconciled⟩ |
      ⟨current, state, schedule, old, decided, concludes, -⟩
  · rcases (reconcileRecorded_iff sound).mp reconciled with
      ⟨-, other, target, decided, isOther, finds, -⟩
    have isRecord := isStored.symm.trans isOther
    cases isRecord
    exact finds.raised
  · have unrecorded := concludes.unrecorded
    rw [← isAttempt, find_row attemptMem] at unrecorded
    cases unrecorded

omit [Sha256] [PresenceEvents] in
/-- What the loop of a recovery appends to the log is the unknown outcome of the submitted target,
with the drawn delay. -/
theorem added_of_recoverTargets {row : PresenceRow} {owner : LeaseOwner} {expires now delay : Nat}
    {record : PresenceRecord} {attempt : DeliveryRow}
    (few : (record.targets.filter fun target => target.state == .submitted) = [] ∨
      ∃ target ∈ record.targets, target.state = .submitted ∧
        (record.targets.filter fun target => target.state == .submitted) = [target])
    (isStored : stored row.outboxId store = some record)
    (done : recoverTargets row owner expires now delay
      (record.targets.filter fun target => target.state == .submitted) store = .ok next)
    (attemptMem : attempt ∈ next.attempts.rows) (fresh : attempt ∉ store.attempts.rows) :
    ∃ target attemptId settled, attempt = (recoveryInput row owner expires now delay target
        attemptId).row ∧
      stored row.outboxId next = some settled ∧ settled.row = record.row ∧
      ∃ written ∈ settled.targets, written.targetOrdinal = target.targetOrdinal ∧
        outcomeOf (recoveryInput row owner expires now delay target attemptId) =
          .ok (written.state, written.nextAttempt) := by
  rcases few with none | ⟨target, targetMem, submitted, single⟩
  · rw [none] at done
    cases done
    exact absurd attemptMem fresh
  · rw [single] at done
    simp only [recoverTargets, bind_eq_ok, require_eq_ok, orError_eq_ok, Except.ok.injEq] at done
    rcases done with ⟨attemptId, -, -, -, ⟨state, last⟩, outcome, rfl⟩
    rcases writeOutcome_spec outcome isStored with
      ⟨schedule, old, settles, ordinal, -, scheduled, -, -, appended, after, -⟩
    rw [appended] at attemptMem
    rcases List.mem_append.mp attemptMem with before | added
    · exact absurd before fresh
    · exact ⟨target, attemptId, _, List.mem_singleton.mp added, after, rfl, _,
        exchanged_mem settles.mem, ordinal, scheduled⟩

/-- The recovery of a lease leaves the outcome it appends to the log. -/
theorem left_of_recoverExpired {candidate : PresenceCandidate} {now : UnixMilliseconds}
    {delay : Nat}
    {done : Unit} {attempt : DeliveryRow} (coherent : Every PresenceRecord.Coherent store)
    (recovered : recoverExpired candidate now delay store = .ok (done, next))
    (attemptMem : attempt ∈ next.attempts.rows) (fresh : attempt ∉ store.attempts.rows) :
    ∃ (input : PresenceInput) (written : PresenceRecord), input.row = attempt ∧
      input.outboxId = candidate.outbox.row.outboxId ∧ input.outcome = .unknown ∧
      input.finishedAt = now.get ∧ input.retryDelay = delay ∧ Written input written ∧
      Left input (candidate.outbox.row.revision + 1) written next ∧
      stored candidate.outbox.row.outboxId store = some candidate.outbox := by
  simp only [recoverExpired, readOutbox_of_sound (fun id record found =>
    (coherent id record found).sound), bind_eq_ok, require_eq_ok, orError_eq_ok, Except.ok.injEq,
    exists_eq_left', beq_iff_eq] at recovered
  rcases recovered with ⟨-, isStored, -, -, owner, -, expires, -, middle, settles, targets, -, ends⟩
  have last : ∃ state schedule, state ≠ .leased ∧ release true state schedule now.get
      candidate.outbox.row.outboxId candidate.outbox.row.revision owner.bytes expires middle =
        .ok next := by
    split at ends <;> simp only [bind_eq_ok, pure_eq_ok, Prod.mk.injEq] at ends
    · rcases ends with ⟨decided, -, _, rfl, last, released, -, rfl⟩
      exact ⟨_, _, presenceState_ne_leased decided, released⟩
    · rcases ends with ⟨_, rfl, last, released, -, rfl⟩
      exact ⟨_, _, by decide, released⟩
  rcases last with ⟨state, schedule, unleased, released⟩
  have sameLog := attempts_of_release released
  have listed : attempt ∈ middle.attempts.rows := sameLog ▸ attemptMem
  rcases added_of_recoverTargets (coherent _ _ isStored).submitted isStored settles listed
    fresh with
    ⟨target, attemptId, settled, rfl, settledStored, sameRow, written, writtenMem, ordinal,
      scheduled⟩
  rcases release_spec released settledStored with ⟨-, -, -, -, -, after, -⟩
  refine ⟨_, settled.release state schedule now.get, rfl, rfl, rfl, rfl, rfl,
    ⟨unleased, written, writtenMem, ordinal, scheduled⟩, ⟨attemptMem, _, after, ?_, fun _ => rfl⟩,
    isStored⟩
  change candidate.outbox.row.revision + 1 ≤ settled.row.revision + 1
  rw [sameRow]

end Leaving

section Replays

variable [Sha256] [PresenceEvents]

theorem recordPresenceOutcome_spec {disposition : Disposition} {prepared : PreparedPresence}
    {finishedAt : UnixMilliseconds} {outcome : AttemptOutcome} {delay : Nat}
    {store next : PresenceStore} {commit : PresenceAttemptCommit}
    (done : recordPresenceOutcome .readWriteExisting disposition prepared finishedAt outcome delay
      store = (.ok commit, next)) :
    PresenceInput.fromPrepared prepared finishedAt outcome delay =
        .ok (attemptInput prepared finishedAt outcome delay) ∧
      recordOutcome (attemptInput prepared finishedAt outcome delay) store =
        .ok (commit, next) := by
  simp only [recordPresenceOutcome, ne_eq, not_true_eq_false, if_false] at done
  cases made : PresenceInput.fromPrepared prepared finishedAt outcome delay with
  | error error =>
      rw [made] at done
      cases done
  | ok input =>
      rw [made] at done
      rcases fromPrepared_spec made with ⟨-, rfl⟩
      have body := transaction_ok (congrArg Prod.fst done)
      rw [show (transaction _ _ _ _).2 = next from congrArg Prod.snd done] at body
      exact ⟨rfl, body⟩

/-- A call whose transaction cannot succeed fails, and changes nothing. -/
theorem recordPresenceOutcome_refused {prepared : PreparedPresence} {finishedAt : UnixMilliseconds}
    {outcome : AttemptOutcome} {delay : Nat} {store : PresenceStore}
    (refused : ∀ commit next,
      recordOutcome (attemptInput prepared finishedAt outcome delay) store ≠ .ok (commit, next))
    (disposition : Disposition) :
    ∃ error, recordPresenceOutcome .readWriteExisting disposition prepared finishedAt outcome delay
      store = (.error error, store) := by
  simp only [recordPresenceOutcome, ne_eq, not_true_eq_false, if_false]
  cases made : PresenceInput.fromPrepared prepared finishedAt outcome delay with
  | error error => exact ⟨error, rfl⟩
  | ok input =>
      rcases fromPrepared_spec made with ⟨-, rfl⟩
      exact transaction_refused disposition refused

/-- How the records of a prepared attempt agree with each other, in a state of a run. -/
structure ReplaySafe (prepared : PreparedPresence) (system : System) : Prop where
  /-- The first record is told as it was written. -/
  agrees : ∀ finishedAt outcome delay commit after,
    recordPresenceOutcome .readWriteExisting .acknowledged prepared finishedAt outcome delay
      system.store = (.ok commit, after) →
    ∃ record target decided, stored prepared.lease.outbox.row.outboxId after = some record ∧
      Finds (attemptInput prepared finishedAt outcome delay) record target decided ∧
      commit = found (attemptInput prepared finishedAt outcome delay) record target
  /-- A record that is repeated before anything else is written to the outbox gives the same commit,
  and changes nothing. -/
  repeated : ∀ finishedAt outcome delay commit after,
    recordPresenceOutcome .readWriteExisting .acknowledged prepared finishedAt outcome delay
      system.store = (.ok commit, after) →
    ∀ moves, stored prepared.lease.outbox.row.outboxId
          (System.exec moves { system with store := after }).store =
        stored prepared.lease.outbox.row.outboxId after →
      recordPresenceOutcome .readWriteExisting .acknowledged prepared finishedAt outcome delay
          (System.exec moves { system with store := after }).store =
        (.ok commit, (System.exec moves { system with store := after }).store) ∧
      ∀ disposition, (recordPresenceOutcome .readWriteExisting disposition prepared finishedAt
          outcome delay (System.exec moves { system with store := after }).store).2 =
        (System.exec moves { system with store := after }).store
  /-- A later record that is accepted is that repetition. -/
  accepted : ∀ finishedAt outcome delay commit after,
    recordPresenceOutcome .readWriteExisting .acknowledged prepared finishedAt outcome delay
      system.store = (.ok commit, after) →
    ∀ moves disposition finishedAgain outcomeAgain delayAgain commitAgain next,
      recordPresenceOutcome .readWriteExisting disposition prepared finishedAgain outcomeAgain
        delayAgain (System.exec moves { system with store := after }).store =
          (.ok commitAgain, next) →
      (finishedAgain, outcomeAgain, delayAgain) = (finishedAt, outcome, delay) ∧
        commitAgain = commit ∧ next = (System.exec moves { system with store := after }).store ∧
        stored prepared.lease.outbox.row.outboxId next =
          stored prepared.lease.outbox.row.outboxId after
  /-- What was recorded is not recorded differently. -/
  different : ∀ finishedAt outcome delay commit after,
    recordPresenceOutcome .readWriteExisting .acknowledged prepared finishedAt outcome delay
      system.store = (.ok commit, after) →
    ∀ moves disposition finishedAgain outcomeAgain delayAgain,
      (finishedAgain, outcomeAgain, delayAgain) ≠ (finishedAt, outcome, delay) →
      ∃ error, recordPresenceOutcome .readWriteExisting disposition prepared finishedAgain
        outcomeAgain delayAgain (System.exec moves { system with store := after }).store =
          (.error error, (System.exec moves { system with store := after }).store)
  /-- What the recovery of the lease recorded is not recorded differently. -/
  recovered : ∀ candidate recoveredAt drawn after,
    recoverExpiredPresence .acknowledged candidate recoveredAt drawn system.store =
      (.ok (), after) →
    candidate.outbox.row.outboxId = prepared.lease.outbox.row.outboxId →
    (∃ attempt ∈ after.attempts.rows, attempt ∉ system.store.attempts.rows ∧
      attempt.attemptId = prepared.attemptId) →
    ∀ moves disposition finishedAt outcome delay,
      (finishedAt, outcome, delay) ≠ (recoveredAt, .unknown, drawn) →
      ∃ error, recordPresenceOutcome .readWriteExisting disposition prepared finishedAt outcome
        delay (System.exec moves { system with store := after }).store =
          (.error error, (System.exec moves { system with store := after }).store)
  /-- Nothing is recorded of an attempt in the log once its outbox has moved on. -/
  movedOn : ∀ attempt ∈ system.store.attempts.rows, attempt.attemptId = prepared.attemptId →
    ∀ row, storedRow prepared.lease.outbox.row.outboxId system.store = some row →
    row.revision ≠ prepared.lease.outbox.row.revision + 1 → ∀ disposition finishedAt outcome delay,
    ∃ error, recordPresenceOutcome .readWriteExisting disposition prepared finishedAt outcome delay
      system.store = (.error error, system.store)

variable {prepared : PreparedPresence} {system : System}

/-- What is left of a record after a first record and a run. -/
theorem left_of_recordPresenceOutcome (lawful : Lawful system)
    (preparedMem : prepared ∈ system.attempts) {finishedAt : UnixMilliseconds}
    {outcome : AttemptOutcome} {delay : Nat} {commit : PresenceAttemptCommit}
    {after : PresenceStore}
    (done : recordPresenceOutcome .readWriteExisting .acknowledged prepared finishedAt outcome delay
      system.store = (.ok commit, after)) (moves : List Move) :
    Lawful (System.exec moves { system with store := after }) ∧
      ∃ written target decided, stored prepared.lease.outbox.row.outboxId after = some written ∧
        Finds (attemptInput prepared finishedAt outcome delay) written target decided ∧
        commit = found (attemptInput prepared finishedAt outcome delay) written target ∧
        Left (attemptInput prepared finishedAt outcome delay)
          (prepared.lease.outbox.row.revision + 1) written
          (System.exec moves { system with store := after }).store := by
  have ordered : Lawful { system with store := after } := by
    have kept := lawful_apply (.record .acknowledged prepared finishedAt outcome delay)
      system lawful
    simp only [System.apply, if_pos preparedMem, done] at kept
    exact kept
  rcases finds_of_recordOutcome lawful.sound (recordPresenceOutcome_spec done).2 with
    ⟨logged, written, target, decided, isStored, finds, isFound⟩
  have left : Left (attemptInput prepared finishedAt outcome delay)
      (prepared.lease.outbox.row.revision + 1) written after :=
    ⟨logged, written, isStored, Nat.le_of_eq finds.raised.symm, fun _ => rfl⟩
  have later := Left.exec { system with store := after } ordered left
    (written_of_finds finds).unleased moves
  exact ⟨later.1, written, target, decided, isStored, finds, isFound, later.2⟩

theorem Left.refuses {input : PresenceInput} {written : PresenceRecord} {store : PresenceStore}
    {finishedAt : UnixMilliseconds} {outcome : AttemptOutcome} {delay : Nat}
    (left : Left input (prepared.lease.outbox.row.revision + 1) written store)
    (writes : Written input written) (sound : Every PresenceRecord.Sound store)
    (sameId : prepared.attemptId = input.attemptId)
    (sameOutbox : prepared.lease.outbox.row.outboxId = input.outboxId)
    (differs : ¬(finishedAt.get = input.finishedAt ∧ outcome = input.outcome ∧
      delay = input.retryDelay)) (disposition : Disposition) :
    ∃ error, recordPresenceOutcome .readWriteExisting disposition prepared finishedAt outcome delay
      store = (.error error, store) := by
  refine recordPresenceOutcome_refused ?_ disposition
  intro commit next recorded
  rcases left.same (attemptInput prepared finishedAt outcome delay) writes sound sameId
    sameOutbox recorded with ⟨finish, isOutcome, isDelay, -⟩
  exact differs ⟨finish, isOutcome, isDelay⟩

/-- The records of an attempt agree with each other in every lawful system. -/
theorem replaySafe_of_lawful (lawful : Lawful system) (preparedMem : prepared ∈ system.attempts)
    (handed : Handed prepared system.store) : ReplaySafe prepared system where
  agrees := by
    intro finishedAt outcome delay commit after done
    exact (finds_of_recordOutcome lawful.sound (recordPresenceOutcome_spec done).2).2
  repeated := by
    intro finishedAt outcome delay commit after done moves same
    rcases left_of_recordPresenceOutcome lawful preparedMem done moves with
      ⟨later, written, target, decided, isStored, finds, rfl, left⟩
    have again := recordOutcome_of_finds later.sound (same.trans isStored) finds left.logged
    simp only [recordPresenceOutcome, (recordPresenceOutcome_spec done).1, ne_eq, not_true_eq_false,
      if_false]
    refine ⟨transaction_acknowledged again, ?_⟩
    intro disposition
    rcases transaction_store mapPresenceError disposition
      (recordOutcome (attemptInput prepared finishedAt outcome delay))
      (System.exec moves { system with store := after }).store with
      unchanged | ⟨value, next, body, isNext⟩
    · exact unchanged
    · rw [isNext]
      exact congrArg Prod.snd (Except.ok.inj (body.symm.trans again))
  accepted := by
    intro finishedAt outcome delay commit after done moves disposition finishedAgain outcomeAgain
      delayAgain commitAgain next doneAgain
    rcases left_of_recordPresenceOutcome lawful preparedMem done moves with
      ⟨later, written, target, decided, isStored, finds, rfl, left⟩
    rcases left.same (attemptInput prepared finishedAgain outcomeAgain delayAgain)
      (written_of_finds finds) later.sound rfl rfl (recordPresenceOutcome_spec doneAgain).2 with
      ⟨sameFinish, rfl, rfl, rfl, sameStored, other, verdict, findsAgain, rfl⟩
    have sameInstant : finishedAgain = finishedAt := instant_ext sameFinish
    subst sameInstant
    have targets := (stored_eq_some.mp isStored).2
    have isTarget : other = target := eq_of_ordinal (targets ▸ findsAgain.mem)
      (targets ▸ finds.mem) (findsAgain.ordinal.trans finds.ordinal.symm)
    rw [isTarget]
    exact ⟨rfl, rfl, rfl, sameStored.trans isStored.symm⟩
  different := by
    intro finishedAt outcome delay commit after done moves disposition finishedAgain outcomeAgain
      delayAgain differs
    rcases left_of_recordPresenceOutcome lawful preparedMem done moves with
      ⟨later, written, target, decided, isStored, finds, rfl, left⟩
    refine left.refuses (written_of_finds finds) later.sound rfl rfl ?_ disposition
    rintro ⟨sameFinish, rfl, rfl⟩
    have sameInstant : finishedAgain = finishedAt := instant_ext sameFinish
    subst sameInstant
    exact differs rfl
  recovered := by
    intro candidate recoveredAt drawn after done sameId recorded moves disposition finishedAt
      outcome delay differs
    rcases recorded with ⟨attempt, attemptMem, fresh, isAttempt⟩
    have ordered : Lawful { system with store := after } := by
      have kept := lawful_apply (.recover .acknowledged candidate recoveredAt drawn) system lawful
      simp only [System.apply, done] at kept
      exact kept
    have body := transaction_ok (congrArg Prod.fst done)
    rw [show (transaction _ _ _ _).2 = after from congrArg Prod.snd done] at body
    rcases left_of_recoverExpired lawful.coherent body attemptMem fresh with
      ⟨input, written, rfl, outbox, unknown, finished, delayed, writes, left, isStored⟩
    have sameOutbox : prepared.lease.outbox.row.outboxId = input.outboxId := by
      rw [outbox, sameId]
    rcases Left.exec { system with store := after } ordered left writes.unleased moves
      with ⟨later, kept⟩
    rcases handed.seen with ⟨row, isRow, newest⟩
    rw [← sameId, (stored_eq_some.mp isStored).1] at isRow
    cases isRow
    rcases Nat.eq_or_lt_of_le newest with sameRevision | older
    · rw [← sameRevision] at kept
      refine kept.refuses writes later.sound isAttempt.symm sameOutbox ?_ disposition
      rintro ⟨sameFinish, rfl, rfl⟩
      have sameInstant : finishedAt = recoveredAt := instant_ext (sameFinish.trans finished)
      subst sameInstant
      exact differs (by rw [unknown, delayed])
    · refine recordPresenceOutcome_refused ?_ disposition
      intro commit next recordedAgain
      rcases kept.current with ⟨record, recordStored, reached, -⟩
      rw [← sameOutbox] at recordStored
      have revision := revision_of_recordOutcome later.sound kept.logged isAttempt recordStored
        recordedAgain
      change record.row.revision = prepared.lease.outbox.row.revision + 1 at revision
      omega
  movedOn := by
    intro attempt attemptMem isAttempt row isRow moved disposition finishedAt outcome delay
    refine recordPresenceOutcome_refused ?_ disposition
    intro commit next done
    exact moved (revision_of_recordOutcome lawful.sound attemptMem isAttempt
      (stored_eq_some.mpr ⟨isRow, rfl⟩ : stored prepared.lease.outbox.row.outboxId system.store =
        some ⟨row, _⟩) done)

end Replays

end Presence

end Rhi
