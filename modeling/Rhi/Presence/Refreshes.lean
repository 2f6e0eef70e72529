import Rhi.Claiming
import Rhi.Presence.Errors

/-!
# Refreshes of blocked presence outboxes

A refresh makes a blocked outbox pending but leaves its targets as they are.  In a run that
refreshes no outbox without a due target, whoever claims an outbox has a target to submit.
-/

namespace Rhi

open Relational Transactional
open Publication (Sorted readTargets_eq_filter)

namespace Presence

section Deliverability

variable [Sha256] [PresenceEvents]

/-- The attempt is one at a target of its outbox, under the identity that belongs to it. -/
structure Submits (prepared : PreparedPresence) (store : PresenceStore) : Prop where
  identified : deriveAttemptId prepared.lease.outbox.row.outboxId
    prepared.lease.outbox.row.eventDigest prepared.target.targetOrdinal
    prepared.target.attemptCount = prepared.attemptId
  listed : ∃ target ∈ targetsOf prepared.lease.outbox.row.outboxId store,
    target.targetOrdinal = prepared.target.targetOrdinal

/-- A refresh that takes effect finds a due target in every outbox that it reopens. -/
def Move.Restores (move : Move) (system : System) : Prop :=
  (system.apply move).store ≠ system.store → move.Reopens system

/-- Every lease was handed out with a due target, and every attempt is one of its outbox. -/
structure Deliverable (system : System) : Prop where
  lawful : Lawful system
  startable : Every PresenceRecord.Startable system.store
  due : ∀ lease ∈ system.leases, ∃ target ∈ lease.outbox.targets,
    target.isDue presenceMaxAttempts lease.outbox.row.updatedAt = true
  submits : ∀ prepared ∈ system.attempts, Submits prepared system.store

omit [Sha256] [PresenceEvents] in
theorem isDue_mono {target : TargetRow} {now later : Nat}
    (due : target.isDue presenceMaxAttempts now = true) (forward : now ≤ later) :
    target.isDue presenceMaxAttempts later = true := by
  rcases TargetRow.isDue_spec due with ⟨retryable, spare, next, scheduled, reached⟩
  have still : next ≤ later := reached.trans forward
  simp [TargetRow.isDue, retryable, spare, scheduled, still]

/-- A claimed outbox has a target that is due at the claim. -/
theorem due_of_claimNext {owner : LeaseOwner} {now : UnixMilliseconds} {store next : PresenceStore}
    {lease : PresenceLease} (sound : Every PresenceRecord.Sound store)
    (startable : Every PresenceRecord.Startable store)
    (done : claimNext owner now store = .ok (some lease, next)) :
    ∃ target ∈ lease.outbox.targets,
      target.isDue presenceMaxAttempts lease.outbox.row.updatedAt = true := by
  rcases claimNext_spec sound done with ⟨record, rfl, -, stepped⟩
  rcases stepped.claimed with ⟨pending, instant, scheduled, reached⟩
  rcases (startable _ _ stepped.before).due pending with
    ⟨start, isStart, target, targetMem, due⟩
  rw [scheduled] at isStart
  cases isStart
  exact ⟨target, targetMem, isDue_mono due reached⟩

theorem submits_of_prepareNext {lease : PresenceLease} {startedAt : UnixMilliseconds}
    {store next : PresenceStore} {prepared : PreparedPresence}
    (sound : Every PresenceRecord.Sound store) (quiet : Quiet lease.outbox.targets)
    (done : prepareNext lease startedAt store = .ok (prepared, next)) : Submits prepared next := by
  rcases prepareNext_spec sound quiet done with
    ⟨old, oldMem, -, rfl, -, identity, -, isTarget, stepped⟩
  refine ⟨?_, ?_⟩
  · rw [isTarget]
    exact identity.symm
  · rw [(stored_eq_some.mp stepped.after).2, isTarget]
    exact ⟨_, exchanged_mem oldMem, rfl⟩

/-- No outbox loses a target. -/
theorem Submits.effects {allowed : Prop} {prepared : PreparedPresence}
    {before after : PresenceStore}
    (submits : Submits prepared before) (referenced : Referenced before)
    (effects : Effects allowed before after) : Submits prepared after := by
  refine ⟨submits.identified, ?_⟩
  rcases submits.listed with ⟨target, targetMem, ordinal⟩
  have effect := effects prepared.lease.outbox.row.outboxId
  cases present : storedRow prepared.lease.outbox.row.outboxId before with
  | none =>
      rw [referenced _ present] at targetMem
      cases targetMem
  | some row =>
      have found : stored prepared.lease.outbox.row.outboxId before = some ⟨row, _⟩ :=
        stored_eq_some.mpr ⟨present, rfl⟩
      rw [found] at effect
      have ordinals : ∃ record, stored prepared.lease.outbox.row.outboxId after = some record ∧
          record.targets.map TargetRow.target =
            (targetsOf prepared.lease.outbox.row.outboxId before).map TargetRow.target := by
        generalize isAfter : stored prepared.lease.outbox.row.outboxId after = result at effect
        cases effect with
        | same => exact ⟨_, rfl, rfl⟩
        | step step reopens => exact ⟨_, rfl, step.target_eq⟩
      rcases ordinals with ⟨record, isRecord, same⟩
      have listed : target.target ∈ record.targets.map TargetRow.target := by
        rw [same]
        exact List.mem_map_of_mem targetMem
      rcases List.mem_map.mp listed with ⟨successor, successorMem, isSame⟩
      rw [(stored_eq_some.mp isRecord).2]
      exact ⟨successor, successorMem, (congrArg (·.ordinal) isSame).trans ordinal⟩

theorem deliverable_apply (move : Move) (system : System) (restores : move.Restores system)
    (deliverable : Deliverable system) : Deliverable (system.apply move) := by
  have lawful := deliverable.lawful
  have advance := advance_apply move lawful
  refine ⟨lawful_apply move system lawful, ?_, ?_, ?_⟩
  · by_cases same : (system.apply move).store = system.store
    · rw [same]
      exact deliverable.startable
    · exact advance.effects.startable (restores same) lawful.coherent deliverable.startable
  · intro lease leaseMem
    rcases mem_leases_of_apply leaseMem with old | ⟨disposition, owner, now, rfl, done⟩
    · exact deliverable.due lease old
    · exact due_of_claimNext lawful.sound deliverable.startable done
  · intro prepared preparedMem
    rcases mem_attempts_of_apply preparedMem with
      old | ⟨disposition, lease, startedAt, rfl, leaseMem, done⟩
    · exact (deliverable.submits prepared old).effects lawful.historic.referenced advance.effects
    · exact submits_of_prepareNext lawful.sound (lawful.quiet lease leaseMem) done

theorem deliverable_exec {moves before : List Move}
    (restores : Transition.Along System.apply (fun system move => move.Restores system) moves
      .initial)
    (reached : before <+: moves) : Deliverable (System.exec before .initial) := by
  refine restores.invariant_of_isPrefix deliverable_apply ⟨lawful_initial, ?_, ?_, ?_⟩ reached
  · intro id record found
    cases found
  · intro lease leaseMem
    cases leaseMem
  · intro prepared preparedMem
    cases preparedMem

end Deliverability

section Iterations

variable [Sha256] [PresenceEvents] {system : System}

/-- Nothing keeps the next attempts at an outbox out of its table: the revisions of its targets can
grow, and the attempts at a target differ in their identities. -/
def Attemptable (lease : PresenceLease) : Prop :=
  ∀ target ∈ lease.outbox.targets, target.revision < maxInteger ∧
    target.lastAttemptId ≠ some (nextAttemptId lease target)

/-- What the iterations of an executor meet. -/
structure Iterates (system : System) : Prop where
  /-- A pending outbox has a target that is due when the outbox is. -/
  pending : ∀ id record, stored id system.store = some record → record.row.state = .pending →
    ∃ instant, record.row.nextAttempt = some instant ∧
      ∃ target ∈ record.targets, target.isDue presenceMaxAttempts instant = true
  searched : ∀ disposition now error,
    readExpiredPresence .readWriteExisting disposition now system.store = .error error →
      ¬error.Blames
  recovered : ∀ disposition candidate now delay error,
    (recoverExpiredPresence disposition candidate now delay system.store).1 = .error error →
      error.Blames → Collides candidate.outbox.row.outboxId system.store
  claimed : ∀ disposition owner now error,
    (claimNextPresence .readWriteExisting disposition owner now system.store).1 = .error error →
      ¬error.Blames
  /-- The outbox that has been due first is claimed, and one of its targets submitted. -/
  submitted : ∀ owner now row, First now.get system.store row → Leasable now.get row →
    row.updatedAt ≤ now.get → ∃ lease next,
      claimNextPresence .readWriteExisting .acknowledged owner now system.store =
        (.ok (some lease), next) ∧ lease.outbox.row.outboxId = row.outboxId ∧
      (Attemptable lease → ∃ prepared, (prepareNextPresenceTarget .readWriteExisting .acknowledged
        lease now next).1 = .ok prepared ∧ prepared.lease = lease)
  prepared : ∀ lease ∈ system.leases, ∀ startedAt, lease.outbox.row.updatedAt ≤ startedAt.get →
    ∀ disposition error, (prepareNextPresenceTarget .readWriteExisting disposition lease startedAt
      system.store).1 = .error error → ¬error.Blames
  /-- A record is to blame only when its attempt is in the log already. -/
  recorded : ∀ prepared ∈ system.attempts, ∀ disposition finishedAt outcome delay error,
    (recordPresenceOutcome .readWriteExisting disposition prepared finishedAt outcome delay
      system.store).1 = .error error → error.Blames →
        ∃ attempt ∈ system.store.attempts.rows, attempt.attemptId = prepared.attemptId

theorem Deliverable.searched (deliverable : Deliverable system) {disposition : Disposition}
    {now : UnixMilliseconds} {error : PresenceErrorKind}
    (failed : readExpiredPresence .readWriteExisting disposition now system.store = .error error) :
    ¬error.Blames := by
  intro blames
  simp only [readExpiredPresence, ne_eq, not_true_eq_false, if_false] at failed
  rcases blames_of_transaction failed blames with ⟨failure, result, isBlamed⟩
  simp only [bind_eq_error, pure_ne_error, and_false, exists_false, or_false] at result
  exact readExpiredCandidate_error deliverable.lawful.coherent result isBlamed

theorem Deliverable.recovered (deliverable : Deliverable system) {disposition : Disposition}
    {candidate : PresenceCandidate} {now : UnixMilliseconds} {delay : Nat}
    {error : PresenceErrorKind}
    (failed : (recoverExpiredPresence disposition candidate now delay system.store).1 =
      .error error) (blames : error.Blames) :
    Collides candidate.outbox.row.outboxId system.store := by
  by_contra apart
  rcases blames_of_transaction failed blames with ⟨failure, result, isBlamed⟩
  exact recoverExpired_error deliverable.lawful.coherent apart result isBlamed

theorem Deliverable.claimed (deliverable : Deliverable system) {disposition : Disposition}
    {owner : LeaseOwner} {now : UnixMilliseconds} {error : PresenceErrorKind}
    (failed : (claimNextPresence .readWriteExisting disposition owner now system.store).1 =
      .error error) : ¬error.Blames := by
  intro blames
  simp only [claimNextPresence, ne_eq, not_true_eq_false, if_false] at failed
  rcases blames_of_transaction failed blames with ⟨failure, result, isBlamed⟩
  exact claimNext_error deliverable.lawful.sound result isBlamed

theorem Deliverable.prepared (deliverable : Deliverable system) {lease : PresenceLease}
    {startedAt : UnixMilliseconds} {disposition : Disposition} {error : PresenceErrorKind}
    (leaseMem : lease ∈ system.leases) (forward : lease.outbox.row.updatedAt ≤ startedAt.get)
    (failed : (prepareNextPresenceTarget .readWriteExisting disposition lease startedAt
      system.store).1 = .error error) : ¬error.Blames := by
  intro blames
  simp only [prepareNextPresenceTarget, ne_eq, not_true_eq_false, if_false] at failed
  rcases blames_of_transaction failed blames with ⟨failure, result, isBlamed⟩
  rcases deliverable.due lease leaseMem with ⟨target, targetMem, due⟩
  exact prepareNext_error deliverable.lawful.sound (deliverable.lawful.quiet lease leaseMem)
    ⟨target, targetMem, isDue_mono due forward⟩ result isBlamed

theorem Deliverable.recorded (deliverable : Deliverable system) {prepared : PreparedPresence}
    {disposition : Disposition} {finishedAt : UnixMilliseconds} {outcome : AttemptOutcome}
    {delay : Nat} {error : PresenceErrorKind} (preparedMem : prepared ∈ system.attempts)
    (failed : (recordPresenceOutcome .readWriteExisting disposition prepared finishedAt outcome
      delay system.store).1 = .error error) (blames : error.Blames) :
    ∃ attempt ∈ system.store.attempts.rows, attempt.attemptId = prepared.attemptId := by
  have submits := deliverable.submits prepared preparedMem
  by_contra fresh
  simp only [recordPresenceOutcome, ne_eq, not_true_eq_false, if_false] at failed
  cases made : PresenceInput.fromPrepared prepared finishedAt outcome delay with
  | error refused =>
      rw [made] at failed
      cases failed
      simp only [PresenceInput.fromPrepared, submits.identified, bind_eq_error, require_eq_error,
        beq_self_eq_true, reduceCtorEq, false_and, pure_ne_error, and_false, exists_false,
        or_false] at made
      rw [← made.2] at blames
      exact absurd blames (by decide)
  | ok input =>
      rw [made] at failed
      simp only [PresenceInput.fromPrepared, bind_eq_ok, require_eq_ok, pure_eq_ok] at made
      rcases made with ⟨-, -, -, -, rfl⟩
      rcases blames_of_transaction failed blames with ⟨failure, result, isBlamed⟩
      exact recordOutcome_error deliverable.lawful.coherent
        (fun attempt attemptMem same => fresh ⟨attempt, attemptMem, same⟩) submits.listed result
        isBlamed

/-- A lease is valid when it is handed out. -/
theorem validateLease_of_claimNext {owner : LeaseOwner} {now : UnixMilliseconds}
    {store next : PresenceStore} {lease : PresenceLease} (sound : Every PresenceRecord.Sound store)
    (done : claimNext owner now store = .ok (some lease, next)) :
    validateLease lease now.get next = .ok () := by
  rcases claimNext_spec sound done with ⟨record, rfl, current, stepped⟩
  have read := readOutbox_of_stored stepped.after ((sound _ _ stepped.before).step stepped.step)
  have still : validateCurrentDesired (record.claim owner (now.get + presenceAttemptDeadline)
      now.get).row next = .ok () := by
    rw [validateCurrentDesired, readDesiredBinding, stepped.kept.desired]
    exact current
  have early : now.get < now.get + presenceAttemptDeadline := by
    simp [presenceAttemptDeadline]
  simp only [PresenceRecord.claim, claimOutbox] at read still ⊢
  simp only [validateLease, read, still, early, require, beq_self_eq_true, decide_true,
    Bool.and_self, if_true, bind, Except.bind]

/-- The holder of a fresh lease submits a target. -/
theorem Deliverable.submitted (deliverable : Deliverable system)
    (described : Described system.store)
    (owner : LeaseOwner) {now : UnixMilliseconds} {row : PresenceRow}
    (first : First now.get system.store row) (leasable : Leasable now.get row)
    (forward : row.updatedAt ≤ now.get) : ∃ lease next,
      claimNextPresence .readWriteExisting .acknowledged owner now system.store =
        (.ok (some lease), next) ∧ lease.outbox.row.outboxId = row.outboxId ∧
      (Attemptable lease → ∃ prepared, (prepareNextPresenceTarget .readWriteExisting .acknowledged
        lease now next).1 = .ok prepared ∧ prepared.lease = lease) := by
  have lawful := deliverable.lawful
  rcases @claimNext_of_first _ _ owner _ _ _ lawful.sound described first leasable forward with
    ⟨lease, next, done, same⟩
  refine ⟨lease, next, ?_, same, ?_⟩
  · simp only [claimNextPresence, ne_eq, not_true_eq_false, if_false, transaction_acknowledged done]
  · intro attemptable
    have isNext : (system.apply (.claim .acknowledged owner now)).store = next ∧
        lease ∈ (system.apply (.claim .acknowledged owner now)).leases := by
      simp [System.apply, claimNextPresence, transaction_acknowledged done, Except.toOption]
    have after := lawful_apply (.claim .acknowledged owner now) system lawful
    rcases isNext with ⟨rfl, leaseMem⟩
    have due := due_of_claimNext lawful.sound deliverable.startable done
    rcases claimNext_spec lawful.sound done with ⟨record, isLease, -, -⟩
    have isNow : lease.outbox.row.updatedAt = now.get := by
      rw [isLease]
      rfl
    rw [isNow] at due
    rcases prepareNext_total after.coherent (after.quiet lease leaseMem)
      (validateLease_of_claimNext lawful.sound done) (Nat.le_of_eq isNow) due
      (fun target targetMem => (attemptable target targetMem).1)
      (fun target targetMem => (attemptable target targetMem).2) with ⟨prepared, last, prepares⟩
    rcases prepareNext_spec after.sound (after.quiet lease leaseMem) prepares with
      ⟨-, -, -, sameLease, -⟩
    refine ⟨prepared, ?_, sameLease⟩
    simp only [prepareNextPresenceTarget, ne_eq, not_true_eq_false, if_false,
      transaction_acknowledged prepares]

/-- In every run whose refreshes find a due target in what they reopen, the iterations of the
executor meet no outbox that is to blame. -/
theorem refreshed_outboxes_deliverable {moves before : List Move}
    (restores : Transition.Along System.apply (fun system move => move.Restores system) moves
      .initial)
    (reached : before <+: moves) : Iterates (System.exec before .initial) := by
  have deliverable := deliverable_exec restores reached
  constructor
  · intro id record found
    exact (deliverable.startable id record found).due
  · intro disposition now error failed
    exact deliverable.searched failed
  · intro disposition candidate now delay error failed
    exact deliverable.recovered failed
  · intro disposition owner now error failed
    exact deliverable.claimed failed
  · intro owner now row first leasable forward
    exact deliverable.submitted (described_exec before) owner first leasable forward
  · intro lease leaseMem startedAt forward disposition error failed
    exact deliverable.prepared leaseMem forward failed
  · intro prepared preparedMem disposition finishedAt outcome delay error failed
    exact deliverable.recorded preparedMem failed

end Iterations

section Exceptions

namespace Sample

open Rhi.Sample Recording.Sample

local instance : Sha256 := ⟨Hashing.sha256⟩

local instance : PresenceEvents := Presence.Sample.instPresenceEvents

/-- A run in which the first attempt that was handed out is rejected. -/
def rejected (moves : List Move) : List Move := moves ++
  (System.exec moves .initial).attempts.map fun prepared =>
    .record .acknowledged prepared presenceFinishedAt .rejected 0

def refreshedAt : UnixMilliseconds := ⟨1700000001000, by decide⟩

/-- The operator refreshes the generation, and an executor claims its outbox again. -/
def refreshed (moves : List Move) : List Move := rejected moves ++
  [.refresh .acknowledged 1 refreshedAt, .claim .acknowledged owner refreshedAt]

/-- The only relay rejects the profile, which blocks its outbox.  The refresh succeeds, the outbox
is claimed, and nothing of it is due. -/
theorem refreshed_outbox_not_ready :
    (presenceRefresh .acknowledged 1 refreshedAt
      (System.exec (rejected presenceSubmitted) .initial).store).1 = .ok () ∧
    ∃ lease ∈ (System.exec (refreshed presenceSubmitted) .initial).leases,
      lease.outbox.row.updatedAt = refreshedAt.get ∧
      (prepareNextPresenceTarget .readWriteExisting .acknowledged lease refreshedAt
        (System.exec (refreshed presenceSubmitted) .initial).store).1 = .error .notReady := by
  decide +kernel

theorem backup_valid : validSourceText "trade-backup" = true := by decide

/-- A profile for two required relays. -/
def documentOfTwo : PresenceDocument := { document with
  targetRelayIds := some [relay, ⟨"trade-backup", backup_valid⟩]
  relays := [⟨relay, true, true⟩, ⟨⟨"trade-backup", backup_valid⟩, true, true⟩] }

def authorityOfTwo : DesiredAuthority := (deriveDesired documentOfTwo).get (by decide +kernel)

def documentsOfTwo : SignedDocuments :=
  ((buildSignedDocuments (authorityOfTwo.row 1) authorityOfTwo authorityOfTwo.servicePublicKey
    1700000000 [[0]]).toOption).get (by decide +kernel)

def claimedOfTwo : List Move := [.configure bindings, .desire .acknowledged authorityOfTwo,
  .commit .acknowledged documentsOfTwo committedAt, .claim .acknowledged owner committedAt]

def submittedOfTwo : List Move := claimedOfTwo ++
  (System.exec claimedOfTwo .initial).leases.map fun lease =>
    .prepare .acknowledged lease committedAt

/-- Nothing but a refresh can fail to restore. -/
theorem restores_of_other {moves : List Move} {system : System}
    (others : ∀ move ∈ moves, ∀ disposition expected now,
      move ≠ .refresh disposition expected now) :
    Transition.Along System.apply (fun system move => move.Restores system) moves system := by
  induction moves generalizing system with
  | nil => trivial
  | cons move moves ih =>
      refine ⟨?_, ih fun other otherMem => others other (List.mem_cons_of_mem _ otherMem)⟩
      intro changed
      cases move with
      | refresh disposition expected now =>
          exact absurd rfl (others _ List.mem_cons_self disposition expected now)
      | _ => trivial

/-- The refresh restores when every outbox has a due target. -/
theorem restores_refreshed {moves : List Move}
    (others : ∀ move ∈ rejected moves, ∀ disposition expected now,
      move ≠ .refresh disposition expected now)
    (due : ∀ row ∈ (System.exec (rejected moves) .initial).store.outbox.rows,
      ∃ target ∈ targetsOf row.outboxId (System.exec (rejected moves) .initial).store,
        target.isDue presenceMaxAttempts refreshedAt.get = true) :
    Transition.Along System.apply (fun system move => move.Restores system) (refreshed moves)
      .initial := by
  rw [refreshed, Transition.Along.append]
  refine ⟨restores_of_other others, ?_⟩
  change Transition.Along _ _ _ (System.exec (rejected moves) .initial)
  generalize System.exec (rejected moves) .initial = system at due
  refine ⟨?_, restores_of_other (by simp)⟩
  intro changed id record found generation blocked
  rcases stored_eq_some.mp found with ⟨isStored, listed⟩
  rcases storedRow_spec isStored with ⟨rowMem, rfl⟩
  rw [← listed]
  exact due record.row rowMem

/-- The first of two relays rejects the profile, which blocks its outbox while the second relay is
due.  After the refresh the second relay is submitted. -/
theorem refreshed_outbox_ready :
    (presenceRefresh .acknowledged 1 refreshedAt
      (System.exec (rejected submittedOfTwo) .initial).store).1 = .ok () ∧
    Iterates (System.exec (refreshed submittedOfTwo) .initial) := by
  have facts : (presenceRefresh .acknowledged 1 refreshedAt
        (System.exec (rejected submittedOfTwo) .initial).store).1 = .ok () ∧
      ∀ row ∈ (System.exec (rejected submittedOfTwo) .initial).store.outbox.rows,
        ∃ target ∈ targetsOf row.outboxId
            (System.exec (rejected submittedOfTwo) .initial).store,
          target.isDue presenceMaxAttempts refreshedAt.get = true := by
    decide +kernel
  have others : ∀ move ∈ rejected submittedOfTwo, ∀ disposition expected now,
      move ≠ .refresh disposition expected now := by
    rintro move moveMem disposition expected now rfl
    simp only [rejected, submittedOfTwo, claimedOfTwo, List.mem_append, List.mem_cons,
      List.not_mem_nil, or_false, List.mem_map] at moveMem
    rcases moveMem with ((desired | desired | desired | desired) | ⟨lease, -, prepared⟩) |
      ⟨attempt, -, recorded⟩
    · cases desired
    · cases desired
    · cases desired
    · cases desired
    · cases prepared
    · cases recorded
  exact ⟨facts.1,
    refreshed_outboxes_deliverable (restores_refreshed others facts.2) List.prefix_rfl⟩

end Sample

end Exceptions

end Presence

end Rhi
