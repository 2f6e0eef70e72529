import Rhi.Publication.Runs

/-!
# Errors of the publication executor

When a transaction of the executor fails with `NotReady` or `Invariant`.  In an orderly store an
invariant error comes from a changed authority alone; a coherent outbox always has a verdict.
-/

namespace Rhi

open Relational Transactional

namespace Publication

section Reading

theorem signedAttestationEvents_clash_comm (left right : SignedEventRow) :
    signedAttestationEvents.clash left right = signedAttestationEvents.clash right left := by
  simp [signedAttestationEvents, Bool.beq_comm]

theorem readOutbox_of_row {id : Digest} {store : Store} {row : OutboxRow}
    {owner : Option LeaseOwner} (stored : outboxRow id store = some row)
    (decoded : decodeOwner row.leaseOwner = .ok owner) :
    readOutbox id store = .ok (some (row.record owner)) := by
  have stored : store.outbox.rows.find? (fun row => row.outboxId == id) = some row := stored
  simp [readOutbox, stored, decodeOutbox, decoded, bind, Except.bind, pure, Except.pure]

/-- Every failure of a transaction but that of its storage is reported as itself. -/
theorem mapPublicationError_distinct (error : PublicationOperationError) (known : error ≠ .storage)
    (failure : Failure PublicationOperationError)
    (same : mapPublicationError failure = mapPublicationError (.operation error)) :
    failure = .operation error := by
  cases failure with
  | operation other => cases other <;> cases error <;> simp [mapPublicationError] at same ⊢
  | aborted => cases error <;> simp [mapPublicationError] at same known
  | outcomeUnknown => cases error <;> simp [mapPublicationError] at same

theorem updateOutbox_error {store : Store} {change : Change OutboxRow}
    {failure : PublicationOperationError} (failed : store.updateOutbox change = .error failure) :
    failure = .storage := by
  simp only [Store.updateOutbox, bind_eq_error, orError_eq_error, pure_ne_error, and_false,
    exists_false, or_false] at failed
  exact failed.2.symm

theorem updateTargets_error {store : Store} {change : Change TargetRow}
    {failure : PublicationOperationError} (failed : store.updateTargets change = .error failure) :
    failure = .storage := by
  simp only [Store.updateTargets, bind_eq_error, orError_eq_error, pure_ne_error, and_false,
    exists_false, or_false] at failed
  exact failed.2.symm

theorem decodeOutbox_error {row : OutboxRow} {failure : PublicationOperationError}
    (failed : decodeOutbox row = .error failure) : failure = .invariant := by
  simp only [decodeOutbox, bind_eq_error, pure_ne_error, and_false, exists_false,
    or_false] at failed
  unfold decodeOwner at failed
  split at failed
  · cases failed
  · simp only [bind_eq_error, orError_eq_error, pure_ne_error, and_false, exists_false,
      or_false] at failed
    exact failed.2.symm

variable [Sha256]

/-- The committed publication of an outbox can always be read. -/
theorem readCommitted_of_committed {id : Digest} {store : Store} {row : OutboxRow}
    (committed : Committed store) (stored : outboxRow id store = some row) :
    ∃ event ∈ store.signedEvents.rows, EventOf row event ∧ readCommitted id store =
      .ok ⟨row.outboxId, event.eventId, event.eventDigest, event.canonicalEventJson⟩ := by
  rcases committed id row stored with ⟨event, eventMem, isEvent⟩
  refine ⟨event, eventMem, isEvent, ?_⟩
  have found : store.signedEvents.rows.find? (fun other => other.eventId == row.eventId) =
      some event := by
    cases search : store.signedEvents.rows.find? (fun other => other.eventId == row.eventId) with
    | none =>
        have missed := List.find?_eq_none.mp search event eventMem
        simp [isEvent.identity] at missed
    | some other =>
        have sameId : other.eventId = row.eventId := by simpa using List.find?_some search
        rw [Table.eq_of_clash signedAttestationEvents_clash_comm
          (List.mem_of_find?_eq_some search) eventMem
          (by simp [signedAttestationEvents, sameId, isEvent.identity])]
  have checked := store.signedEvents.checked event eventMem
  simp only [signedAttestationEvents, decide_eq_true_eq] at checked
  have stored : store.outbox.rows.find? (fun row => row.outboxId == id) = some row := stored
  simp only [readCommitted, stored, found, orError, require, isEvent.digest, isEvent.isSealed,
    checked.2.1, checked.2.2, beq_self_eq_true, and_self, decide_true, Bool.and_self, if_true, bind,
    Except.bind, pure, Except.pure]

theorem decodeOutbox_of_sound {current : Snapshot} (sound : current.Sound) :
    ∃ owner, decodeOutbox current.row = .ok (current.row.record owner) := by
  rcases sound.owner with ⟨owner, decoded⟩
  exact ⟨owner, by simp [decodeOutbox, decoded, bind, Except.bind, pure, Except.pure]⟩

theorem validateTargets_of_sound {id : Digest} {store : Store} {current : Snapshot}
    {owner : Option LeaseOwner} (read : snapshot id store = some current) (sound : current.Sound) :
    validateTargets (current.row.record owner) (readTargets id store.targets.rows) = .ok () := by
  rcases snapshot_eq_some.mp read with ⟨-, targets, -⟩
  have sorted : Sorted (targetsOf id store) := by
    rw [targets]
    exact sound.sorted
  rw [readTargets_of_sorted sorted, targets]
  exact require_eq_ok.mpr sound.inventory

end Reading

section Claiming

/-- The outbox was committed under the authority of the binding. -/
def Bound (binding : AuthorityBinding) (row : OutboxRow) : Prop :=
  (row.record none).boundTo binding = true

instance (binding : AuthorityBinding) (row : OutboxRow) : Decidable (Bound binding row) := by
  unfold Bound
  infer_instance

variable [Sha256]

omit [Sha256] in
/-- The outbox of a claim is read back as it was leased. -/
theorem readOutbox_of_claim {owner : LeaseOwner} {expires now affected : Nat} {store next : Store}
    {row : OutboxRow} (stored : outboxRow row.outboxId store = some row)
    (updated : store.updateOutbox (claimOutbox owner expires now row.outboxId row.revision) =
      .ok (affected, next)) (single : (affected == 1) = true) :
    readOutbox row.outboxId next = .ok (some (((claimOutbox owner expires now row.outboxId
      row.revision).write row).record (some owner))) := by
  rcases updateOutbox_spec updated with ⟨outbox, result, rfl⟩
  have named : ∀ other, (claimOutbox owner expires now row.outboxId row.revision).selects other =
      true → other.outboxId = row.outboxId := by
    intro other chosen
    simp only [claimOutbox, Bool.and_eq_true, beq_iff_eq] at chosen
    exact chosen.1.1.1.1
  rcases snapshot_of_outbox result single named (fun _ => rfl) with ⟨-, other, found, -, -, after⟩
  have same : other = row := Option.some.inj (found.symm.trans stored)
  subst same
  exact readOutbox_of_row (snapshot_eq_some.mp after).1 (Snapshot.decodeOwner_bytes owner)

/-- A claim breaks an invariant exactly when the oldest due outbox belongs to another authority. -/
theorem claimNext_invariant {owner : LeaseOwner} {now : UnixMilliseconds}
    {binding : AuthorityBinding} {store : Store} (orderly : Orderly store) :
    claimNext owner now binding store = .error .invariant ↔
      ∃ row, readClaimableOutbox now.get store.outbox.rows = some row ∧ ¬Bound binding row := by
  unfold claimNext
  split
  · rename_i none
    simp [none]
  · rename_i row selected
    have rowMem := (readClaimableOutbox_spec selected).1
    have stored := outboxRow_of_mem rowMem
    have read : snapshot row.outboxId store =
        some ⟨row, targetsOf row.outboxId store, deliveriesOf row.outboxId store⟩ :=
      snapshot_eq_some.mpr ⟨stored, rfl, rfl⟩
    have sound := orderly.sound row.outboxId _ read
    rcases decodeOutbox_of_sound sound with ⟨rowOwner, decoded⟩
    have valid := @validateTargets_of_sound _ row.outboxId store _ rowOwner read sound
    simp only [decoded, bind_eq_error, require_eq_error, orError_eq_error, reduceCtorEq, false_or,
      Except.ok.injEq, exists_eq_left', and_true, and_false]
    constructor
    · rintro (unbound | ⟨-, -, failed | ⟨-, -, -, -, failed | ⟨⟨affected, next⟩, updated, _, single,
        failed | ⟨_, isRead, failed | ⟨leased, isLeased, failed | ⟨-, -, failed⟩⟩⟩⟩⟩⟩)
      · refine ⟨row, selected, ?_⟩
        intro bound
        rw [show (row.record rowOwner).boundTo binding = true from bound] at unbound
        cases unbound
      · rw [show validateTargets (row.record rowOwner)
          (readTargets (row.record rowOwner).id store.targets.rows) = .ok () from valid] at failed
        cases failed
      · cases updateOutbox_error failed
      all_goals
        have again := readOutbox_of_claim stored updated (require_eq_ok.mp single)
      · rw [show readOutbox (row.record rowOwner).id next = _ from again] at failed
        cases failed
      · rw [show readOutbox (row.record rowOwner).id next = _ from again] at isRead
        cases isRead
        cases failed
      · rw [show readOutbox (row.record rowOwner).id next = _ from again] at isRead
        cases isRead
        cases isLeased
        simp [OutboxRow.record, claimOutbox] at failed
      · exact absurd failed pure_ne_error
    · rintro ⟨other, isOldest, unbound⟩
      rw [selected] at isOldest
      cases isOldest
      left
      cases bound : (row.record rowOwner).boundTo binding with
      | false => rfl
      | true => exact absurd bound unbound

theorem claimNext_ne_notReady {owner : LeaseOwner} {now : UnixMilliseconds}
    {binding : AuthorityBinding} {store : Store} :
    claimNext owner now binding store ≠ .error .notReady := by
  intro failed
  unfold claimNext at failed
  split at failed
  · cases failed
  · simp only [bind_eq_error, require_eq_error, orError_eq_error, validateTargets, reduceCtorEq,
      and_false, false_or] at failed
    rcases failed with failed | ⟨_, -, _, -, _, -, _, -, failed | ⟨⟨_, next⟩, -, _, -, failed |
      ⟨_, -, _, -, _, -, failed⟩⟩⟩
    · cases decodeOutbox_error failed
    · cases updateOutbox_error failed
    · unfold readOutbox at failed
      split at failed
      · cases failed
      · simp only [bind_eq_error, pure_ne_error, and_false, exists_false, or_false] at failed
        cases decodeOutbox_error failed
    · exact absurd failed pure_ne_error

end Claiming

section Preparing

theorem validateLease_of_held {lease : PublicationLease} {now : Nat} {store : Store}
    {row : OutboxRow} (stored : outboxRow lease.outbox.id store = some row) (held : Held lease row)
    (early : now < lease.expiresAt) : validateLease lease now store = .ok () := by
  have decoded : decodeOwner row.leaseOwner = .ok (some lease.owner) := by
    rw [held.owner]
    exact Snapshot.decodeOwner_bytes lease.owner
  have read := readOutbox_of_row stored decoded
  rw [← held.outbox] at read
  have state : lease.outbox.state = .leased := by
    rw [held.outbox]
    exact held.leased
  have owned : lease.outbox.leaseOwner = some lease.owner := by
    rw [held.outbox]
    rfl
  have expires : lease.outbox.leaseExpires = some lease.expiresAt := by
    rw [held.outbox]
    exact held.expires
  simp [validateLease, read, require, state, owned, expires, early, bind, Except.bind]

theorem publicationTargets_keyed {id : Digest} {ordinal : Nat} {selects : TargetRow → Bool}
    (named : ∀ row, selects row = true → row.outboxId = id ∧ row.targetOrdinal = ordinal) :
    ∀ left right, selects left = true → selects right = true →
      publicationTargets.clash left right = true := by
  intro left right leftChosen rightChosen
  rcases named left leftChosen with ⟨leftId, leftOrdinal⟩
  rcases named right rightChosen with ⟨rightId, rightOrdinal⟩
  simp [publicationTargets, leftId, leftOrdinal, rightId, rightOrdinal]

/-- A target is found by its ordinal. -/
theorem find_target {id : Digest} {store : Store} {target : TargetRow}
    (sorted : Sorted (targetsOf id store)) (targetMem : target ∈ targetsOf id store) :
    (readTargets id store.targets.rows).find? (fun other =>
      other.targetOrdinal == target.targetOrdinal) = some target := by
  rw [readTargets_of_sorted sorted]
  cases found : (targetsOf id store).find? fun other =>
      other.targetOrdinal == target.targetOrdinal with
  | none =>
      have missed := List.find?_eq_none.mp found target targetMem
      simp at missed
  | some other =>
      have same : other.targetOrdinal = target.targetOrdinal := by
        simpa using List.find?_some found
      rw [eq_of_ordinal (List.mem_of_find?_eq_some found) targetMem same]

variable [Sha256]

theorem validateTargets_of_held {lease : PublicationLease} {store : Store} {current : Snapshot}
    (read : snapshot lease.outbox.id store = some current) (sound : current.Sound)
    (held : Held lease current.row) :
    validateTargets lease.outbox (readTargets lease.outbox.id store.targets.rows) = .ok () := by
  have valid := @validateTargets_of_sound _ _ _ _ (some lease.owner) read sound
  rwa [← held.outbox] at valid

omit [Sha256] in
/-- The write of a due target is accepted while its revision can grow. -/
theorem updateTargets_of_due {store : Store} {target : TargetRow} {attemptId : Digest}
    {started : UnixMilliseconds} {maxAttempts : Nat} (targetMem : target ∈ store.targets.rows)
    (few : maxAttempts ≤ 100) (due : target.isDue maxAttempts started.get = true)
    (earlier : target.updatedAt ≤ started.get) (room : target.revision < maxInteger) :
    ∃ next, store.updateTargets (prepareTarget attemptId started.get target.outboxId
      target.targetOrdinal target.revision maxAttempts) = .ok (1, next) := by
  rcases TargetRow.isDue_spec due with ⟨retryable, spare, instant, scheduled, reached⟩
  have checked := store.targets.checked target targetMem
  simp only [publicationTargets, decide_eq_true_eq] at checked
  have unaccepted : target.state ≠ .accepted := by
    intro accepted
    rw [accepted] at retryable
    cases retryable
  have bounds : 1 ≤ target.revision + 1 ∧ target.revision + 1 ≤ maxInteger ∧
      target.attemptCount + 1 ≤ 100 := by omega
  have updated := @Table.update_of_single _ publicationTargets store.targets
    (prepareTarget attemptId started.get target.outboxId target.targetOrdinal target.revision
      maxAttempts) target publicationTargets_clash_comm (fun _ _ => rfl)
    (publicationTargets_keyed fun row chosen => by
      simp only [prepareTarget, Bool.and_eq_true, beq_iff_eq] at chosen
      exact chosen.1.1.1.1.1) targetMem
    (by simp [prepareTarget, retryable, spare, scheduled, reached, earlier])
    ⟨by simp [publicationTargets, prepareTarget, checked.1, bounds, started.bounded],
      by simp [publicationTargets, prepareTarget, earlier, unaccepted]⟩
  rcases updated with ⟨next, updated⟩
  refine ⟨{ store with targets := next }, ?_⟩
  rw [Store.updateTargets, updated]
  rfl

/-- A held lease on an outbox with a due target lets the executor submit, unless the revisions of a
target are used up. -/
theorem prepareNext_error {lease : PublicationLease} {now : UnixMilliseconds} {store : Store}
    {current : Snapshot} {failure : PublicationOperationError} (orderly : Orderly store)
    (read : snapshot lease.outbox.id store = some current) (attended : current.Attended)
    (held : Held lease current.row) (early : now.get < lease.expiresAt)
    (forward : current.row.updatedAt ≤ now.get)
    (due : ∃ target ∈ current.targets, target.isDue current.row.maxAttempts now.get = true)
    (failed : prepareNext lease now store = .error failure) :
    failure = .storage ∧ ∃ target ∈ current.targets, maxInteger ≤ target.revision := by
  rcases snapshot_eq_some.mp read with ⟨stored, targets, -⟩
  have sound := orderly.sound _ _ read
  have sorted : Sorted (targetsOf lease.outbox.id store) := by
    rw [targets]
    exact sound.sorted
  have maximum := held.maxAttempts
  simp only [prepareNext, bind_eq_error, require_eq_error, orError_eq_error] at failed
  rcases failed with failed | ⟨_, -, failed | ⟨_, -, failed | ⟨candidate, selected, failed | ⟨_, -,
    failed | ⟨⟨affected, next⟩, updated, failed | ⟨_, single, failed | ⟨target, found, failed |
    ⟨_, -, failed | ⟨publication, committed, failed | ⟨_, -, failed⟩⟩⟩⟩⟩⟩⟩⟩⟩⟩
  · rw [validateLease_of_held stored held early] at failed
    cases failed
  · rw [validateTargets_of_held read sound held] at failed
    cases failed
  · rcases due with ⟨target, targetMem, isDue⟩
    rw [readTargets_of_sorted sorted, targets, maximum] at failed
    exact absurd isDue (List.find?_eq_none.mp failed.1 target targetMem)
  all_goals
    simp only [orError_eq_ok] at selected
    have isDue := List.find?_some selected
    rcases TargetRow.isDue_spec isDue with ⟨retryable, spare, instant, scheduled, reached⟩
    have candidateMem := mem_targetsOf_of_readTargets (List.mem_of_find?_eq_some selected)
    -- a due target is not under way, so it was written no later than the outbox
    have earlier : candidate.updatedAt ≤ now.get := by
      rw [targets] at candidateMem
      refine (attended.written candidate candidateMem ?_).trans forward
      intro submitted
      rw [submitted] at retryable
      cases retryable
    have candidateId : candidate.outboxId = lease.outbox.id := by
      rw [targets] at candidateMem
      rw [sound.named candidate candidateMem, held.id]
  · simp only [decide_eq_false_iff_not] at failed
    omega
  · refine ⟨updateTargets_error failed, candidate, targets ▸ candidateMem, ?_⟩
    by_contra room
    have few : lease.outbox.maxAttempts ≤ 100 := by
      have checked := store.outbox.checked current.row (outboxRow_spec stored).1
      simp only [publicationOutbox, Bool.and_eq_true, decide_eq_true_eq] at checked
      omega
    rcases @updateTargets_of_due _ _ (deriveAttemptId lease.outbox.id lease.outbox.eventDigest
      candidate.targetOrdinal (candidate.attemptCount + 1)) _ _ (List.mem_filter.mp candidateMem).1
      few isDue earlier (Nat.lt_of_not_le room) with ⟨next, written⟩
    rw [candidateId, failed] at written
    cases written
  all_goals
    rcases updateTargets_spec updated with ⟨written, result, rfl⟩
    have named : ∀ row, (prepareTarget (deriveAttemptId lease.outbox.id lease.outbox.eventDigest
        candidate.targetOrdinal (candidate.attemptCount + 1)) now.get lease.outbox.id
        candidate.targetOrdinal candidate.revision lease.outbox.maxAttempts).selects row = true →
        row.outboxId = lease.outbox.id ∧ row.targetOrdinal = candidate.targetOrdinal := by
      intro row chosen
      simp only [prepareTarget, Bool.and_eq_true, beq_iff_eq] at chosen
      exact chosen.1.1.1.1.1
  · have chosen : (prepareTarget (deriveAttemptId lease.outbox.id lease.outbox.eventDigest
        candidate.targetOrdinal (candidate.attemptCount + 1)) now.get lease.outbox.id
        candidate.targetOrdinal candidate.revision lease.outbox.maxAttempts).selects candidate =
        true := by
      simp [prepareTarget, candidateId, retryable, spare, scheduled, reached, earlier]
    have counted := (Table.countP_eq_one_iff (publicationTargets_keyed named)).mpr
      ⟨candidate, (List.mem_filter.mp candidateMem).1, chosen⟩
    rw [(Table.update_spec result).2.1, counted] at failed
    cases failed.1
  all_goals
    rcases exchange_of_target result (require_eq_ok.mp single) named (fun _ => rfl) with
      ⟨touched, old, oldMem, chosen, -, exchanged⟩
    have same : candidate = old := eq_of_ordinal candidateMem oldMem (named old chosen).2.symm
    subst same
    have writtenMem := @exchanged_mem candidate ((prepareTarget (deriveAttemptId lease.outbox.id
        lease.outbox.eventDigest candidate.targetOrdinal (candidate.attemptCount + 1)) now.get
        lease.outbox.id candidate.targetOrdinal candidate.revision
        lease.outbox.maxAttempts).write candidate) _ oldMem
    rw [← exchanged] at writtenMem
    have sortedNext : Sorted (targetsOf lease.outbox.id { store with targets := written }) := by
      rw [exchanged]
      exact sorted.exchange rfl
    have isFound := find_target sortedNext writtenMem
  · rw [show (readTargets lease.outbox.id written.rows).find? (fun target =>
      target.targetOrdinal == candidate.targetOrdinal) = _ from isFound] at failed
    cases failed.1
  · simp only [orError_eq_ok] at found
    rw [show (readTargets lease.outbox.id written.rows).find? (fun target =>
      target.targetOrdinal == candidate.targetOrdinal) = _ from isFound] at found
    cases found
    simp [prepareTarget] at failed
  all_goals
    have committedNext : Committed { store with targets := written } := orderly.committed
    rcases readCommitted_of_committed committedNext stored with ⟨event, -, isEvent, readCommitted⟩
  · rw [readCommitted] at failed
    cases failed
  · rw [readCommitted] at committed
    cases committed
    rw [held.outbox] at failed
    simp [OutboxRow.record, isEvent.digest] at failed
  · exact absurd failed pure_ne_error

end Preparing

section Settling

variable [Sha256]

/-- Once its attempt is settled, an outbox has a verdict. -/
theorem disposition_of_settled {id : Digest} {store : Store} {now : Nat}
    {current settled : Snapshot} {owner : Option LeaseOwner} (sound : current.Sound)
    (attended : current.Attended) (settlement : Snapshot.Settlement now current settled)
    (settledSound : settled.Sound) (read : snapshot id store = some settled) :
    ∃ decided, disposition (current.row.record owner) (readTargets id store.targets.rows) =
      .ok decided := by
  rcases (settlement.tracked sound attended).verdict_total (settlement.quiet sound attended) with
    ⟨decided, decides⟩
  have valid := @validateTargets_of_sound _ _ _ _ owner read settledSound
  rcases snapshot_eq_some.mp read with ⟨-, targets, -⟩
  have sorted : Sorted (targetsOf id store) := by
    rw [targets]
    exact settledSound.sorted
  rw [settlement.row_eq] at valid decides
  refine ⟨decided, ?_⟩
  unfold disposition
  rw [valid, readTargets_of_sorted sorted, targets]
  simp only [bind, Except.bind, OutboxRow.record, decides, orError]

theorem Snapshot.Sound.settle {current : Snapshot} {input : RecordInput} {state : TargetState}
    {schedule : Option Nat} {old : TargetRow} (sound : current.Sound)
    (settles : current.Settles input state schedule old) :
    (current.settle input state schedule old).Sound :=
  sound.of_target (Snapshot.named_exchange sound.named settles.mem rfl) (map_exchange _ _ rfl) rfl
    rfl rfl sound.owner

theorem Snapshot.Settlement.sound {now : Nat} {current settled : Snapshot}
    (settlement : Settlement now current settled) (sound : current.Sound) : settled.Sound := by
  cases settlement with
  | none => exact sound
  | one finished settles => exact sound.settle settles

omit [Sha256] in
theorem writeOutcome_error {input : RecordInput} {store : Store}
    {failure : PublicationOperationError} (failed : writeOutcome input store = .error failure) :
    failure ≠ .invariant ∧ failure ≠ .notReady := by
  simp only [writeOutcome, insertAttempt, outcomeOf, bind_eq_error, require_eq_error,
    orError_eq_error, pure_ne_error, and_false, exists_false, or_false] at failed
  rcases failed with (⟨-, rfl⟩ | ⟨-, -, -, rfl⟩) |
    ⟨_, -, ⟨-, rfl⟩ | ⟨_, -, failed | ⟨_, -, -, rfl⟩⟩⟩
  · decide
  · decide
  · decide
  · rw [updateTargets_error failed]
    decide
  · decide

/-- The release of a settled outbox breaks no invariant. -/
theorem release_error {expired : Bool} {lease : PublicationLease} {now : Nat} {store : Store}
    {failure : PublicationOperationError} {decided : Verdict}
    (decides : disposition lease.outbox (readTargets lease.outbox.id store.targets.rows) =
      .ok decided) (failed : release expired lease now store = .error failure) :
    failure ≠ .invariant ∧ failure ≠ .notReady := by
  simp only [release, bind_eq_error, decides, reduceCtorEq, false_or, Except.ok.injEq,
    exists_eq_left', require_eq_error, pure_ne_error, and_false, exists_false, or_false] at failed
  rcases failed with failed | ⟨_, -, -, rfl⟩
  · rw [updateOutbox_error failed]
    decide
  · decide

theorem readOutbox_of_every {store : Store} (sound : Every Snapshot.Sound store) (id : Digest) :
    ∃ record, readOutbox id store = .ok record := by
  cases stored : outboxRow id store with
  | none =>
      have stored : store.outbox.rows.find? (fun row => row.outboxId == id) = none := stored
      exact ⟨none, by simp [readOutbox, stored]⟩
  | some row =>
      rcases (sound id ⟨row, _, _⟩ (snapshot_eq_some.mpr ⟨stored, rfl, rfl⟩)).owner with
        ⟨owner, decoded⟩
      exact ⟨_, readOutbox_of_row stored decoded⟩

theorem validateLease_error {lease : PublicationLease} {now : Nat} {store : Store}
    {failure : PublicationOperationError} (sound : Every Snapshot.Sound store)
    (failed : validateLease lease now store = .error failure) : failure = .leaseLost := by
  rcases readOutbox_of_every sound lease.outbox.id with ⟨record, read⟩
  simp only [validateLease, bind_eq_error, read, reduceCtorEq, false_or, Except.ok.injEq,
    exists_eq_left', require_eq_error] at failed
  rcases failed with ⟨-, rfl⟩ | ⟨-, -, -, rfl⟩ <;> rfl

/-- An outcome that is not recorded yet breaks no invariant. -/
theorem recordOutcome_error {input : RecordInput} {store : Store}
    {failure : PublicationOperationError} (coherent : Every Snapshot.Coherent store)
    (fresh : ∀ row ∈ store.deliveries.rows, row.attemptId ≠ input.attemptId)
    (listed : ∃ target ∈ targetsOf input.lease.outbox.id store,
      target.targetOrdinal = input.targetOrdinal)
    (failed : recordOutcome input store = .error failure) :
    failure ≠ .invariant ∧ failure ≠ .notReady := by
  have unrecorded : (store.deliveries.rows.find? fun row => row.attemptId == input.attemptId) =
      none := by
    refine List.find?_eq_none.mpr ?_
    intro row rowMem
    simpa using fresh row rowMem
  simp only [recordOutcome, unrecorded, bind_eq_error, require_eq_error, orError_eq_error] at failed
  rcases failed with failed | ⟨_, valid, failed⟩
  · rw [validateLease_error (fun id current read => (coherent id current read).sound) failed]
    decide
  · rcases validateLease_spec valid with ⟨early, row, stored, held⟩
    have read : snapshot input.lease.outbox.id store = some ⟨row,
        targetsOf input.lease.outbox.id store, deliveriesOf input.lease.outbox.id store⟩ :=
      snapshot_eq_some.mpr ⟨stored, rfl, rfl⟩
    have isCoherent := coherent _ _ read
    rcases listed with ⟨target, targetMem, ordinal⟩
    have found := find_target isCoherent.sound.sorted targetMem
    rw [ordinal] at found
    rcases failed with ⟨missing, -⟩ | ⟨_, -, ⟨-, rfl⟩ | ⟨_, -, failed | ⟨⟨state, settled⟩, written,
      failed | ⟨_, -, failed⟩⟩⟩⟩
    · rw [found] at missing
      cases missing
    · decide
    · exact writeOutcome_error failed
    · rcases writeOutcome_spec written read held.maxAttempts with
        ⟨schedule, old, settles, -, -, settledRead⟩
      rcases @disposition_of_settled _ _ _ _ _ _ (some input.lease.owner) isCoherent.sound
        isCoherent.attended (.one rfl settles) (isCoherent.sound.settle settles) settledRead with
        ⟨decided, decides⟩
      rw [← held.outbox] at decides
      exact release_error decides failed
    · exact absurd failed pure_ne_error

/-- A stored attempt carries the identity of an attempt under way. -/
def Collides (id : Digest) (store : Store) : Prop :=
  ∃ target ∈ targetsOf id store, target.state = .submitted ∧
    ∃ row ∈ store.deliveries.rows, target.lastAttemptId = some row.attemptId

theorem Snapshot.Coherent.submitted {current : Snapshot} (coherent : current.Coherent) :
    (current.targets.filter fun target => target.state == .submitted) = [] ∨
      ∃ target ∈ current.targets, target.state = .submitted ∧
        (current.targets.filter fun target => target.state == .submitted) = [target] := by
  refine coherent.attended.tracked.submitted ?_
  rw [coherent.sound.ordinals]
  exact List.nodup_range

/-- The submitted target of an expired lease is recovered, unless two attempts have one identity. -/
theorem recoverTargets_error {lease : PublicationLease} {now delay : Nat} {store : Store}
    {failure : PublicationOperationError} {current : Snapshot} (orderly : Orderly store)
    (read : snapshot lease.outbox.id store = some current) (coherent : current.Coherent)
    (apart : ¬Collides lease.outbox.id store) {expires : Nat}
    (expiry : current.row.leaseExpires = some expires) (expired : expires ≤ now)
    (failed : recoverTargets lease now delay
      (current.targets.filter fun target => target.state == .submitted) store = .error failure) :
    failure ≠ .invariant ∧ failure ≠ .notReady := by
  rcases coherent.submitted with none | ⟨target, targetMem, submitted, single⟩
  · rw [none] at failed
    cases failed
  · rw [single] at failed
    rcases snapshot_eq_some.mp read with ⟨stored, targets, -⟩
    have identified := coherent.attended.identified target targetMem submitted
    rcases coherent.attended.begun target targetMem submitted with ⟨until_, isExpiry, begun⟩
    rw [expiry] at isExpiry
    cases isExpiry
    have started := coherent.attended.tracked.started target targetMem submitted
    have storedMem : target ∈ targetsOf lease.outbox.id store := by
      rw [targets]
      exact targetMem
    have checked := store.targets.checked target (List.mem_filter.mp storedMem).1
    simp only [publicationTargets, decide_eq_true_eq] at checked
    rcases readCommitted_of_committed orderly.committed stored with
      ⟨event, -, isEvent, readCommitted⟩
    have fresh : (store.deliveries.rows.any fun row => row.attemptId ==
        deriveAttemptId current.row.outboxId current.row.eventDigest target.targetOrdinal
          target.attemptCount) = false := by
      refine List.any_eq_false.mpr ?_
      intro row rowMem sameId
      refine apart ⟨target, storedMem, submitted, row, rowMem, ?_⟩
      rw [identified]
      exact congrArg some (beq_iff_eq.mp sameId).symm
    have bounds : target.targetOrdinal ≤ 31 ∧ 1 ≤ target.attemptCount ∧ target.attemptCount ≤ 100 ∧
        target.updatedAt ≤ now := ⟨checked.1, started, checked.2.2.2.1, by omega⟩
    simp only [recoverTargets, identified, readCommitted, bind_eq_error, orError_eq_error,
      require_eq_error, reduceCtorEq, false_and, false_or, orError_eq_ok, Option.some.injEq,
      exists_eq_left', Except.ok.injEq, bounds, and_self, decide_true, isEvent.digest, fresh,
      beq_self_eq_true, Bool.not_false, Bool.and_self, require_eq_ok, exists_const, true_and,
      and_false, exists_false, or_false] at failed
    exact writeOutcome_error failed

/-- A recovery breaks no invariant, unless two attempts have one identity. -/
theorem recoverExpired_error {candidate : RecoveryCandidate} {now : UnixMilliseconds} {delay : Nat}
    {store : Store} {failure : PublicationOperationError} (orderly : Orderly store)
    (coherent : Every Snapshot.Coherent store)
    (apart : ¬Collides candidate.outbox.id store)
    (failed : recoverExpired candidate now delay store = .error failure) :
    failure ≠ .invariant ∧ failure ≠ .notReady := by
  simp only [recoverExpired, bind_eq_error, require_eq_error, orError_eq_error] at failed
  rcases readOutbox_of_every orderly.sound candidate.outbox.id with ⟨record, isRead⟩
  simp only [isRead, reduceCtorEq, false_or, Except.ok.injEq, exists_eq_left'] at failed
  rcases failed with ⟨-, rfl⟩ | ⟨_, same, ⟨-, rfl⟩ | ⟨_, leased, failed⟩⟩
  · decide
  · decide
  · simp only [require_eq_ok, beq_iff_eq, Bool.and_eq_true] at same leased
    subst same
    rcases readOutbox_spec isRead with ⟨row, owner, stored, decoded, isRecord⟩
    have rowLeased : row.state = .leased := by
      rw [isRecord] at leased
      exact leased.1
    have checked := store.outbox.checked row (outboxRow_spec stored).1
    simp only [publicationOutbox, OutboxRow.shaped, rowLeased, Bool.and_eq_true] at checked
    have column := decodeOwner_spec decoded
    cases owner with
    | none =>
        rw [column] at checked
        cases checked.2.1.2
    | some owner =>
        rcases (Option.any_eq_true _ _).mp leased.2 with ⟨expires, expiry, expired⟩
        have held : Held ⟨candidate.outbox, owner, expires⟩ row := by
          refine ⟨isRecord, ?_, rowLeased, ?_⟩
          · rw [column]
            rfl
          · rw [isRecord] at expiry
            exact expiry
        have owned : candidate.outbox.leaseOwner = some owner := by
          rw [isRecord]
          rfl
        have read : snapshot candidate.outbox.id store = some ⟨row,
            targetsOf candidate.outbox.id store, deliveriesOf candidate.outbox.id store⟩ :=
          snapshot_eq_some.mpr ⟨stored, rfl, rfl⟩
        have isCoherent := coherent _ _ read
        have valid : validateTargets candidate.outbox
            (readTargets candidate.outbox.id store.targets.rows) = .ok () :=
          @validateTargets_of_held _ ⟨candidate.outbox, owner, expires⟩ _ _ read isCoherent.sound
            held
        simp only [owned, expiry, reduceCtorEq, false_and, false_or, orError_eq_ok,
          Option.some.injEq, exists_eq_left', valid, true_and, exists_const] at failed
        rw [readTargets_of_sorted isCoherent.sound.sorted] at failed
        rcases failed with failed | ⟨settled, recovered, failed | ⟨_, -, failed⟩⟩
        · exact @recoverTargets_error _ ⟨candidate.outbox, owner, expires⟩ _ _ _ _ _ orderly read
            isCoherent apart _ held.expires (by simpa using expired) failed
        · rcases recoverTargets_spec recovered read held.maxAttempts with
            ⟨last, recovers, -, settledRead⟩
          have settlement := recovers.settlement isCoherent.sound isCoherent.attended
          rcases @disposition_of_settled _ _ _ _ _ _ (some owner) isCoherent.sound
            isCoherent.attended settlement (settlement.sound isCoherent.sound) settledRead with
            ⟨decided, decides⟩
          rw [← isRecord] at decides
          exact @release_error _ _ ⟨candidate.outbox, owner, expires⟩ _ _ _ _ decides failed
        · exact absurd failed pure_ne_error

end Settling

section Recovering

theorem readExpiredOutbox_spec {now : Nat} {rows : List OutboxRow} {row : OutboxRow}
    (selected : readExpiredOutbox now rows = some row) : row ∈ rows := by
  have sorted := List.mem_of_mem_head? (Option.mem_def.mpr selected)
  rw [List.mem_insertionSort, List.mem_filter] at sorted
  exact sorted.1

variable [Sha256]

/-- The search for an expired lease breaks an invariant exactly when the oldest one belongs to
another authority. -/
theorem readExpiredCandidate_invariant {now : UnixMilliseconds} {binding : AuthorityBinding}
    {store : Store} (coherent : Every Snapshot.Coherent store) :
    readExpiredCandidate now binding store = .error .invariant ↔
      ∃ row, readExpiredOutbox now.get store.outbox.rows = some row ∧ ¬Bound binding row := by
  unfold readExpiredCandidate
  split
  · rename_i none
    simp [none]
  · rename_i row selected
    have stored := outboxRow_of_mem (readExpiredOutbox_spec selected)
    have read : snapshot row.outboxId store =
        some ⟨row, targetsOf row.outboxId store, deliveriesOf row.outboxId store⟩ :=
      snapshot_eq_some.mpr ⟨stored, rfl, rfl⟩
    have isCoherent := coherent row.outboxId _ read
    rcases decodeOutbox_of_sound isCoherent.sound with ⟨owner, decoded⟩
    have valid := @validateTargets_of_sound _ row.outboxId store _ owner read isCoherent.sound
    have few : ((targetsOf row.outboxId store).filter fun target =>
        target.state == .submitted).length ≤ 1 := by
      rcases isCoherent.submitted with none | ⟨target, -, -, single⟩
      · simp only [none, List.length_nil, Nat.zero_le]
      · simp only [single, List.length_singleton, Nat.le_refl]
    simp only [decoded, bind_eq_error, require_eq_error, reduceCtorEq, false_or, Except.ok.injEq,
      exists_eq_left', and_true]
    constructor
    · rintro (unbound | ⟨-, -, failed | ⟨-, -, failed | ⟨-, -, failed⟩⟩⟩)
      · refine ⟨row, selected, ?_⟩
        intro bound
        rw [show (row.record owner).boundTo binding = true from bound] at unbound
        cases unbound
      · rw [show validateTargets (row.record owner)
          (readTargets (row.record owner).id store.targets.rows) = .ok () from valid] at failed
        cases failed
      · simp only [OutboxRow.record, readTargets_of_sorted isCoherent.sound.sorted, List.length_map,
          decide_eq_false_iff_not] at failed
        exact absurd few failed
      · exact absurd failed pure_ne_error
    · rintro ⟨other, isOldest, unbound⟩
      rw [selected] at isOldest
      cases isOldest
      left
      cases bound : (row.record owner).boundTo binding with
      | false => rfl
      | true => exact absurd bound unbound

theorem readExpiredCandidate_ne_notReady {now : UnixMilliseconds} {binding : AuthorityBinding}
    {store : Store} : readExpiredCandidate now binding store ≠ .error .notReady := by
  intro failed
  unfold readExpiredCandidate at failed
  split at failed
  · cases failed
  · simp only [bind_eq_error, require_eq_error, validateTargets, reduceCtorEq, and_false,
      false_or] at failed
    rcases failed with failed | ⟨_, -, _, -, _, -, _, -, failed⟩
    · cases decodeOutbox_error failed
    · exact absurd failed pure_ne_error

end Recovering

end Publication

end Rhi
