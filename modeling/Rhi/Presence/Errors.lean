import Rhi.Presence.Generations

/-!
# Errors of the presence executor

When a transaction of the executor fails with `NotReady` or `Invariant`.  In a coherent store a
claim and a search never do, and a preparation does only for the want of a due target.
-/

namespace Rhi

open Relational Transactional
open Publication (Sorted)

/-- The failures that an outbox is to blame for. -/
def PresenceOperationError.Blames (failure : PresenceOperationError) : Prop :=
  failure = .notReady ∨ failure = .invariant

instance (failure : PresenceOperationError) : Decidable failure.Blames := by
  unfold PresenceOperationError.Blames
  infer_instance

/-- The errors that stop the executor because of an outbox. -/
def PresenceErrorKind.Blames (error : PresenceErrorKind) : Prop :=
  error = .notReady ∨ error = .invariant

instance (error : PresenceErrorKind) : Decidable error.Blames := by
  unfold PresenceErrorKind.Blames
  infer_instance

/-- A transaction blames an outbox when its body does. -/
theorem blames_of_transaction {Value : Type} {disposition : Disposition} {store : PresenceStore}
    {body : PresenceStore → Except PresenceOperationError (Value × PresenceStore)}
    {error : PresenceErrorKind}
    (failed : (transaction mapPresenceError disposition body store).1 = .error error)
    (blames : error.Blames) : ∃ failure, body store = .error failure ∧ failure.Blames := by
  rcases transaction_error failed with rfl | rfl | ⟨failure, result, rfl⟩
  · exact absurd blames (by decide)
  · exact absurd blames (by decide)
  · refine ⟨failure, result, ?_⟩
    cases failure with
    | notReady => exact .inl rfl
    | invariant => exact .inr rfl
    | _ => exact absurd blames (by decide)

namespace Presence

section Reading

variable {store : PresenceStore} {failure : PresenceOperationError}

theorem validateCurrentDesired_error {row : PresenceRow}
    (failed : validateCurrentDesired row store = .error failure) :
    failure = .desiredStateMismatch := by
  simp only [validateCurrentDesired, readDesiredBinding, bind_eq_error, require_eq_error] at failed
  rcases failed with failed | ⟨_, -, -, rfl⟩
  · split at failed
    · cases failed
    · cases failed
      rfl
  · rfl

theorem release_error {expired : Bool} {state : PresenceState} {schedule : Option Nat} {now : Nat}
    {id : Digest} {revision : Nat} {owner : BitVec 128} {expires : Nat}
    (failed : release expired state schedule now id revision owner expires store = .error failure) :
    ¬failure.Blames := by
  simp only [release, bind_eq_error, orError_eq_error, require_eq_error, pure_ne_error, and_false,
    exists_false, or_false] at failed
  rcases failed with ⟨-, rfl⟩ | ⟨_, -, -, rfl⟩
  all_goals decide

theorem writeOutcome_error {input : PresenceInput}
    (failed : writeOutcome input store = .error failure) : ¬failure.Blames := by
  simp only [writeOutcome, insertAttempt, outcomeOf, bind_eq_error, require_eq_error,
    orError_eq_error, pure_ne_error, and_false, exists_false, or_false] at failed
  rcases failed with (⟨-, rfl⟩ | ⟨-, -, -, rfl⟩) | ⟨_, -, ⟨-, rfl⟩ | ⟨_, -, ⟨-, rfl⟩ |
    ⟨_, -, -, rfl⟩⟩⟩
  all_goals decide

variable [Sha256] [PresenceEvents]

theorem validateLease_error {lease : PresenceLease} {now : Nat}
    (sound : Every PresenceRecord.Sound store)
    (failed : validateLease lease now store = .error failure) : ¬failure.Blames := by
  simp only [validateLease, readOutbox_of_sound sound, bind_eq_error, require_eq_error,
    reduceCtorEq, false_or, Except.ok.injEq, exists_eq_left'] at failed
  rcases failed with ⟨-, rfl⟩ | ⟨_, -, failed | ⟨_, -, -, rfl⟩⟩
  · decide
  · rw [validateCurrentDesired_error failed]
    decide
  · decide

end Reading

section Claiming

variable [Sha256] [PresenceEvents] {store : PresenceStore} {failure : PresenceOperationError}

/-- No outbox is to blame for a failed claim. -/
theorem claimNext_error {owner : LeaseOwner} {now : UnixMilliseconds}
    (sound : Every PresenceRecord.Sound store)
    (failed : claimNext owner now store = .error failure) : ¬failure.Blames := by
  unfold claimNext at failed
  split at failed
  · cases failed
  · rename_i row selected
    rcases readClaimable_spec selected with ⟨rowMem, pending, instant, scheduled, due⟩
    have found := stored_of_mem rowMem
    have valid := validateTargets_of_sound (sound _ _ found)
    simp only [readOutbox_of_sound sound, found, valid, bind_eq_error, require_eq_error,
      orError_eq_error, orError_eq_ok, require_eq_ok, reduceCtorEq, false_and, false_or,
      Except.ok.injEq, Option.some.injEq, exists_eq_left', exists_const, true_and] at failed
    rcases failed with failed | ⟨_, -, ⟨-, rfl⟩ | ⟨-, ⟨-, rfl⟩ | ⟨⟨outbox, affected⟩, updated,
      ⟨-, rfl⟩ | ⟨single, failed⟩⟩⟩⟩
    · rw [validateCurrentDesired_error failed]
      decide
    · decide
    · decide
    · decide
    · -- the outbox is read back as it was leased
      have named : ∀ stored, (claimOutbox owner (now.get + presenceAttemptDeadline) now.get
          row.outboxId row.revision).selects stored = true →
            stored.outboxId = row.outboxId ∧ stored.updatedAt ≤ now.get := by
        intro stored chosen
        simp only [claimOutbox, Bool.and_eq_true, beq_iff_eq, decide_eq_true_eq] at chosen
        exact ⟨chosen.1.1.1.1, chosen.2⟩
      rcases stored_of_row updated single (fun stored chosen => (named stored chosen).1)
        (fun _ => rfl) with ⟨record, present, chosen, after, -⟩
      cases present.symm.trans found
      have step : PresenceRecord.Step .claim ⟨row, targetsOf row.outboxId store⟩
          (PresenceRecord.claim owner (now.get + presenceAttemptDeadline) now.get
            ⟨row, targetsOf row.outboxId store⟩) :=
        .claim pending scheduled due (named row chosen).2
      have claimed := readOutbox_of_stored after ((sound _ _ present).step step)
      rw [claimed] at failed
      simp [claimOutbox, pure_ne_error] at failed

end Claiming

section Preparing

variable {store : PresenceStore}

/-- The write of a due target is accepted while its revision can grow and its attempts are told
apart. -/
theorem prepareTarget_of_due {target : TargetRow} {attemptId : Digest} {started : UnixMilliseconds}
    (targetMem : target ∈ store.targets.rows)
    (due : target.isDue presenceMaxAttempts started.get = true)
    (earlier : target.updatedAt ≤ started.get) (room : target.revision < maxInteger)
    (renewed : target.lastAttemptId ≠ some attemptId) :
    ∃ targets, store.targets.update (prepareTarget attemptId started.get target.outboxId
      target.targetOrdinal target.revision presenceMaxAttempts) = some (targets, 1) := by
  rcases TargetRow.isDue_spec due with ⟨retryable, spare, instant, scheduled, reached⟩
  have checked := store.targets.checked target targetMem
  simp only [presenceTargets, Bool.and_eq_true, decide_eq_true_eq] at checked
  have grown : 1 ≤ target.revision + 1 ∧ target.revision + 1 ≤ maxInteger ∧
      target.attemptCount + 1 ≤ presenceMaxAttempts := by omega
  have named : ∀ row, (prepareTarget attemptId started.get target.outboxId target.targetOrdinal
      target.revision presenceMaxAttempts).selects row = true →
        row.outboxId = target.outboxId ∧ row.targetOrdinal = target.targetOrdinal := by
    intro row chosen
    simp only [prepareTarget, Bool.and_eq_true, beq_iff_eq] at chosen
    exact chosen.1.1.1.1.1
  refine Table.update_of_single presenceTargets_clash_comm (fun _ _ => rfl)
    (presenceTargets_keyed named) targetMem ?_ ⟨?_, ?_⟩
  · simp [prepareTarget, retryable, spare, scheduled, reached, earlier]
  · simp [presenceTargets, prepareTarget, TargetRow.shaped, checked.1.1, grown, started.bounded]
  · simp [presenceTargets, prepareTarget, TargetRow.presenceTransition, earlier, retryable,
      Ne.symm renewed]

variable [Sha256] [PresenceEvents] {lease : PresenceLease} {startedAt : UnixMilliseconds}
  {failure : PresenceOperationError}

/-- The identity of the next attempt at a target. -/
def nextAttemptId (lease : PresenceLease) (target : TargetRow) : Digest :=
  deriveAttemptId lease.outbox.row.outboxId lease.outbox.row.eventDigest target.targetOrdinal
    (target.attemptCount + 1)

/-- A preparation succeeds once the write of its target did. -/
theorem prepareNext_of_update (sound : Every PresenceRecord.Sound store)
    (quiet : Quiet lease.outbox.targets)
    (valid : validateLease lease startedAt.get store = .ok ()) {candidate : TargetRow}
    (selected : (lease.outbox.targets.find? fun target =>
      target.isDue presenceMaxAttempts startedAt.get) = some candidate)
    {targets : Table presenceTargets} (updated : store.targets.update (prepareTarget
      (nextAttemptId lease candidate) startedAt.get lease.outbox.row.outboxId
      candidate.targetOrdinal candidate.revision presenceMaxAttempts) = some (targets, 1)) :
    ∃ prepared, prepareNext lease startedAt store = .ok (prepared, { store with targets }) := by
  rcases validateLease_spec sound valid with ⟨present, -, leased, -, expires, early⟩
  have isSound := sound _ _ present
  have candidateMem := List.mem_of_find?_eq_some selected
  have isDue := List.find?_some selected
  have spare := (TargetRow.isDue_spec isDue).2.1
  have named : ∀ row, (prepareTarget (nextAttemptId lease candidate) startedAt.get
      lease.outbox.row.outboxId candidate.targetOrdinal candidate.revision
      presenceMaxAttempts).selects row = true → row.outboxId = lease.outbox.row.outboxId ∧
        row.targetOrdinal = candidate.targetOrdinal := by
    intro row chosen
    simp only [prepareTarget, Bool.and_eq_true, beq_iff_eq] at chosen
    exact chosen.1.1.1.1.1
  rcases stored_of_target updated rfl named (fun _ => rfl) present with
    ⟨old, oldMem, chosen, after, -⟩
  cases isSound.distinct candidateMem oldMem (named old chosen).2.symm
  have step : PresenceRecord.Step .submit lease.outbox
      (lease.outbox.submit (nextAttemptId lease candidate) startedAt.get candidate) :=
    .submit leased expires early candidateMem isDue quiet
  have read := readOutbox_of_stored after (isSound.step step)
  -- the target that is read back is the one that was written
  have written := @exchanged_mem candidate ((prepareTarget (nextAttemptId lease candidate)
    startedAt.get lease.outbox.row.outboxId candidate.targetOrdinal candidate.revision
    presenceMaxAttempts).write candidate) _ candidateMem
  have listed : targetsOf lease.outbox.row.outboxId { store with targets } =
      exchange candidate _ lease.outbox.targets := (stored_eq_some.mp after).2
  rw [← listed] at written
  have isTarget := find_target written
  rw [listed] at isTarget
  have isTarget : (exchange candidate _ lease.outbox.targets).find? (fun target =>
      target.targetOrdinal == candidate.targetOrdinal) = _ := isTarget
  have few : candidate.attemptCount + 1 ≤ presenceMaxAttempts := spare
  refine ⟨⟨lease, (prepareTarget (nextAttemptId lease candidate) startedAt.get
    lease.outbox.row.outboxId candidate.targetOrdinal candidate.revision presenceMaxAttempts).write
    candidate, nextAttemptId lease candidate, startedAt.get, lease.outbox.row.signedEvent⟩, ?_⟩
  have shape := PresenceRecord.sameIdentity_refl lease.outbox.row
  unfold nextAttemptId at updated read isTarget ⊢
  simp only [prepareNext, valid, selected, few, updated, read, isTarget, shape, isSound.isSigned,
    orError, require, decide_true, if_true, beq_self_eq_true, bind, Except.bind, pure, Except.pure]
  simp [prepareTarget]

/-- For a failed preparation an outbox with a due target is not to blame. -/
theorem prepareNext_error (sound : Every PresenceRecord.Sound store)
    (quiet : Quiet lease.outbox.targets)
    (due : ∃ target ∈ lease.outbox.targets,
      target.isDue presenceMaxAttempts startedAt.get = true)
    (failed : prepareNext lease startedAt store = .error failure) : ¬failure.Blames := by
  cases valid : validateLease lease startedAt.get store with
  | error refused =>
      have isFailure : prepareNext lease startedAt store = .error refused := by
        simp only [prepareNext, valid, bind, Except.bind]
      cases failed.symm.trans isFailure
      exact validateLease_error sound valid
  | ok =>
      cases selected : lease.outbox.targets.find? fun target =>
          target.isDue presenceMaxAttempts startedAt.get with
      | none =>
          rcases due with ⟨target, targetMem, isDue⟩
          exact absurd isDue (List.find?_eq_none.mp selected target targetMem)
      | some candidate =>
          have few : candidate.attemptCount + 1 ≤ presenceMaxAttempts :=
            (TargetRow.isDue_spec (List.find?_some selected)).2.1
          cases updated : store.targets.update (prepareTarget (nextAttemptId lease candidate)
              startedAt.get lease.outbox.row.outboxId candidate.targetOrdinal candidate.revision
              presenceMaxAttempts) with
          | none =>
              unfold nextAttemptId at updated
              have isFailure : prepareNext lease startedAt store = .error .storage := by
                simp only [prepareNext, valid, selected, few, updated, orError, require,
                  decide_true, if_true, bind, Except.bind]
              cases failed.symm.trans isFailure
              decide
          | some result =>
              rcases result with ⟨targets, affected⟩
              by_cases single : affected = 1
              · subst single
                rcases prepareNext_of_update sound quiet valid selected updated with
                  ⟨prepared, done⟩
                cases failed.symm.trans done
              · unfold nextAttemptId at updated
                have isFailure : prepareNext lease startedAt store = .error .leaseLost := by
                  simp only [prepareNext, valid, selected, few, updated, orError, require,
                    decide_true, if_true, beq_iff_eq, single, if_false, bind, Except.bind]
                cases failed.symm.trans isFailure
                decide

/-- A held lease on an outbox with a due target lets the executor submit, unless the revisions of a
target are used up or its attempts have one identity. -/
theorem prepareNext_total (coherent : Every PresenceRecord.Coherent store)
    (quiet : Quiet lease.outbox.targets)
    (valid : validateLease lease startedAt.get store = .ok ())
    (forward : lease.outbox.row.updatedAt ≤ startedAt.get)
    (due : ∃ target ∈ lease.outbox.targets,
      target.isDue presenceMaxAttempts startedAt.get = true)
    (room : ∀ target ∈ lease.outbox.targets, target.revision < maxInteger)
    (renewed : ∀ target ∈ lease.outbox.targets,
      target.lastAttemptId ≠ some (nextAttemptId lease target)) :
    ∃ prepared next, prepareNext lease startedAt store = .ok (prepared, next) := by
  have sound : Every PresenceRecord.Sound store :=
    fun id record found => (coherent id record found).sound
  have present := (validateLease_spec sound valid).1
  have isCoherent := coherent _ _ present
  cases selected : lease.outbox.targets.find? fun target =>
      target.isDue presenceMaxAttempts startedAt.get with
  | none =>
      rcases due with ⟨target, targetMem, isDue⟩
      exact absurd isDue (List.find?_eq_none.mp selected target targetMem)
  | some candidate =>
      have candidateMem := List.mem_of_find?_eq_some selected
      have listed : candidate ∈ targetsOf lease.outbox.row.outboxId store := by
        rw [(stored_eq_some.mp present).2]
        exact candidateMem
      -- no attempt is under way, so the target was written no later than the outbox
      have earlier := (isCoherent.attended.written candidate candidateMem
        (quiet candidate candidateMem)).trans forward
      rcases prepareTarget_of_due (List.mem_filter.mp listed).1 (List.find?_some selected) earlier
        (room candidate candidateMem) (renewed candidate candidateMem) with ⟨targets, updated⟩
      rw [isCoherent.sound.named candidate candidateMem] at updated
      rcases prepareNext_of_update sound quiet valid selected updated with ⟨prepared, done⟩
      exact ⟨prepared, _, done⟩

end Preparing

section Settling

theorem owner_of_leased [Sha256] [PresenceEvents] {store : PresenceStore} {record : PresenceRecord}
    (sound : record.Sound) (rowMem : record.row ∈ store.outbox.rows)
    (leased : record.row.state = .leased) :
    ∃ owner : LeaseOwner, record.row.leaseOwner.bind LeaseOwner.fromBytes = some owner ∧
      record.row.leaseOwner = some owner.bytes := by
  have checked := store.outbox.checked _ rowMem
  simp only [presenceOutbox, PresenceRow.shaped, leased, Bool.and_eq_true] at checked
  rcases Option.isSome_iff_exists.mp checked.2.1.2 with ⟨bytes, owned⟩
  have nonzero : bytes ≠ 0 := by
    rintro rfl
    exact sound.owner owned
  refine ⟨⟨bytes, nonzero⟩, ?_, owned⟩
  rw [owned, Option.bind_some]
  simp only [LeaseOwner.fromBytes, ne_eq, nonzero, not_false_eq_true, dif_pos]

variable [Sha256] [PresenceEvents] {store : PresenceStore} {failure : PresenceOperationError}

theorem validateInputLease_error {input : PresenceInput} (sound : Every PresenceRecord.Sound store)
    (failed : validateInputLease input store = .error failure) : ¬failure.Blames := by
  simp only [validateInputLease, readOutbox_of_sound sound, bind_eq_error, require_eq_error,
    orError_eq_error, reduceCtorEq, false_or, Except.ok.injEq, exists_eq_left'] at failed
  rcases failed with ⟨-, rfl⟩ | ⟨_, -, failed | ⟨_, -, -, rfl⟩⟩
  · decide
  · rw [validateCurrentDesired_error failed]
    decide
  · decide

/-- For an outcome that is not recorded, a target of the outbox is not to blame, unless the attempt
is in the log already. -/
theorem recordOutcome_error {input : PresenceInput} (coherent : Every PresenceRecord.Coherent store)
    (fresh : ∀ attempt ∈ store.attempts.rows, attempt.attemptId ≠ input.attemptId)
    (listed : ∃ target ∈ targetsOf input.outboxId store,
      target.targetOrdinal = input.targetOrdinal)
    (failed : recordOutcome input store = .error failure) : ¬failure.Blames := by
  have sound : Every PresenceRecord.Sound store :=
    fun id record found => (coherent id record found).sound
  have unrecorded : (store.attempts.rows.find? fun attempt =>
      attempt.attemptId == input.attemptId) = none := by
    refine List.find?_eq_none.mpr ?_
    intro attempt attemptMem
    simpa using fresh attempt attemptMem
  rcases listed with ⟨target, targetMem, ordinal⟩
  have isTarget := find_target targetMem
  rw [ordinal] at isTarget
  simp only [recordOutcome, unrecorded, readOutbox_of_sound sound, bind_eq_error, require_eq_error,
    orError_eq_error, reduceCtorEq, false_or, Except.ok.injEq, exists_eq_left'] at failed
  rcases failed with failed | ⟨_, valid, failed⟩
  · exact validateInputLease_error sound failed
  · simp only [validateInputLease, readOutbox_of_sound sound, bind_eq_ok, orError_eq_ok,
      Except.ok.injEq, exists_eq_left'] at valid
    rcases valid with ⟨record, found, -⟩
    have isCoherent := coherent _ _ found
    rw [(stored_eq_some.mp found).2] at isTarget
    simp only [found, reduceCtorEq, false_and, false_or, orError_eq_ok, Option.some.injEq,
      exists_eq_left', isTarget] at failed
    rcases failed with ⟨-, rfl⟩ | ⟨_, -, failed | ⟨⟨state, settled⟩, written, failed⟩⟩
    · decide
    · exact writeOutcome_error failed
    · rcases writeOutcome_spec written found with
        ⟨schedule, old, settles, -, -, -, -, -, -, settledStored, -⟩
      have settlement : PresenceRecord.Settlement input.finishedAt record _ := .one rfl settles
      rcases stored_eq_some.mp settledStored with ⟨-, settledTargets⟩
      have sorted := (isCoherent.sound.settlement settlement).sorted
      rw [← settledTargets] at sorted
      have targetsRead := readTargetRows_of_sorted sorted
      rw [settledTargets] at targetsRead
      rcases disposition_of_settled isCoherent settlement (fun target targetMem => by
        rw [← settledTargets] at targetMem
        exact (List.mem_filter.mp targetMem).1) with ⟨decided, decides, -⟩
      simp only [targetsRead, decides, reduceCtorEq, false_or, Except.ok.injEq, exists_eq_left',
        pure_ne_error, and_false, exists_false, or_false] at failed
      exact release_error failed

/-- No outbox is to blame for a failed search. -/
theorem readExpiredCandidate_error {now : UnixMilliseconds}
    (coherent : Every PresenceRecord.Coherent store)
    (failed : readExpiredCandidate now store = .error failure) : ¬failure.Blames := by
  have sound : Every PresenceRecord.Sound store :=
    fun id record found => (coherent id record found).sound
  unfold readExpiredCandidate at failed
  split at failed
  · cases failed
  · rename_i row selected
    have found := stored_of_mem (readExpired_spec selected).1
    have isCoherent := coherent _ _ found
    have valid := validateTargets_of_sound isCoherent.sound
    have few : (((targetsOf row.outboxId store).filter fun target =>
        target.state == .submitted).map (·.attemptCount)).length ≤ 1 := by
      rw [List.length_map]
      rcases isCoherent.submitted with none | ⟨target, -, -, one⟩
      · simp only [none, List.length_nil, Nat.zero_le]
      · simp only [one, List.length_singleton, Nat.le_refl]
    simp only [readOutbox_of_sound sound, found, valid, few, bind_eq_error, require_eq_error,
      orError_eq_error, orError_eq_ok, require_eq_ok, reduceCtorEq, false_and, false_or,
      Except.ok.injEq, Option.some.injEq, exists_eq_left', decide_true, pure_ne_error, and_false,
      exists_false, or_false] at failed
    unfold readDesiredBinding at failed
    split at failed
    · cases failed
    · cases failed
      decide

omit [Sha256] [PresenceEvents] in
/-- The submitted target of an outbox is recovered, unless two attempts have one identity. -/
theorem recoverTargets_error {record : PresenceRecord} {owner : LeaseOwner}
    {expires now delay : Nat}
    (few : (record.targets.filter fun target => target.state == .submitted) = [] ∨
      ∃ target ∈ record.targets, target.state = .submitted ∧
        (record.targets.filter fun target => target.state == .submitted) = [target])
    (found : stored record.row.outboxId store = some record)
    (apart : ¬Collides record.row.outboxId store)
    (failed : recoverTargets record.row owner expires now delay
      (record.targets.filter fun target => target.state == .submitted) store = .error failure) :
    ¬failure.Blames := by
  rcases few with none | ⟨target, targetMem, submitted, single⟩
  · rw [none] at failed
    cases failed
  · have targetOf : target ∈ targetsOf record.row.outboxId store := by
      rw [(stored_eq_some.mp found).2]
      exact targetMem
    have shaped := store.targets.checked target (List.mem_filter.mp targetOf).1
    simp only [presenceTargets, TargetRow.shaped, submitted, Bool.and_eq_true] at shaped
    rcases Option.isSome_iff_exists.mp shaped.2.2 with ⟨attemptId, identity⟩
    have unlogged : (store.attempts.rows.any fun attempt => attempt.attemptId == attemptId) =
        false := by
      refine List.any_eq_false.mpr ?_
      intro attempt attemptMem same
      refine apart ⟨target, targetOf, submitted, attempt, attemptMem, ?_⟩
      rw [identity, beq_iff_eq.mp same]
    rw [single] at failed
    simp only [recoverTargets, identity, unlogged, bind_eq_error, orError_eq_error,
      require_eq_error, reduceCtorEq, false_and, false_or, orError_eq_ok, Option.some.injEq,
      exists_eq_left', Bool.not_false, require_eq_ok, exists_const, true_and, and_false,
      exists_false, or_false] at failed
    exact writeOutcome_error failed

/-- For a failed recovery no outbox is to blame, unless two attempts have one identity. -/
theorem recoverExpired_error {candidate : PresenceCandidate} {now : UnixMilliseconds} {delay : Nat}
    (coherent : Every PresenceRecord.Coherent store)
    (apart : ¬Collides candidate.outbox.row.outboxId store)
    (failed : recoverExpired candidate now delay store = .error failure) : ¬failure.Blames := by
  have sound : Every PresenceRecord.Sound store :=
    fun id record found => (coherent id record found).sound
  simp only [recoverExpired, readOutbox_of_sound sound, bind_eq_error, require_eq_error,
    orError_eq_error, reduceCtorEq, false_or, Except.ok.injEq, exists_eq_left'] at failed
  rcases failed with ⟨-, rfl⟩ | ⟨_, same, ⟨-, rfl⟩ | ⟨_, shape, failed⟩⟩
  · decide
  · decide
  · have found := beq_iff_eq.mp (require_eq_ok.mp same)
    have leased := require_eq_ok.mp shape
    simp only [Bool.and_eq_true, beq_iff_eq] at leased
    have isCoherent := coherent _ _ found
    rcases owner_of_leased isCoherent.sound (storedRow_spec (stored_eq_some.mp found).1).1 leased.1
      with ⟨owner, isOwner, -⟩
    rcases (Option.any_eq_true _ _).mp leased.2 with ⟨expires, expiry, -⟩
    simp only [isOwner, expiry, reduceCtorEq, false_and, false_or, orError_eq_ok,
      Option.some.injEq, exists_eq_left'] at failed
    rcases failed with failed | ⟨settledStore, settles, failed⟩
    · exact recoverTargets_error isCoherent.submitted found apart failed
    · rcases recoverTargets_spec isCoherent.submitted found settles with
        ⟨settled, settlement, -, -, settledStored, -, -⟩
      rcases stored_eq_some.mp settledStored with ⟨-, settledTargets⟩
      have sorted := (isCoherent.sound.settlement settlement).sorted
      rw [← settledTargets] at sorted
      have targetsRead := readTargetRows_of_sorted sorted
      rw [settledTargets] at targetsRead
      rcases disposition_of_settled isCoherent settlement (fun target targetMem => by
        rw [← settledTargets] at targetMem
        exact (List.mem_filter.mp targetMem).1) with ⟨decided, decides, -⟩
      simp only [targetsRead, reduceCtorEq, false_or, Except.ok.injEq, exists_eq_left'] at failed
      split at failed
      · simp only [decides, bind_eq_error, reduceCtorEq, false_or, Except.ok.injEq,
          exists_eq_left', pure_eq_ok, pure_ne_error, and_false, exists_false, or_false] at failed
        exact release_error failed
      · simp only [bind_eq_error, pure_eq_ok, exists_eq_left', pure_ne_error, false_or, and_false,
          exists_false, or_false] at failed
        exact release_error failed

end Settling

end Presence

end Rhi
