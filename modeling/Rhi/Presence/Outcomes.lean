import Rhi.Presence.Runs
import Rhi.Publication.Outcomes

/-!
# Outcomes of attempts at a presence document

As for publications: the outcome of an attempt under way is recorded as soon as its schedule exists,
and found again until the outbox moves on.
-/

namespace Rhi

open Relational Transactional
open Publication (Sorted closedOutcome sampleRetryDelay)

namespace Presence

section Writing

theorem presenceTargets_keyed {id : Digest} {ordinal : Nat} {selects : TargetRow → Bool}
    (named : ∀ row, selects row = true → row.outboxId = id ∧ row.targetOrdinal = ordinal) :
    ∀ left right, selects left = true → selects right = true →
      presenceTargets.clash left right = true := by
  intro left right leftChosen rightChosen
  rcases named left leftChosen with ⟨leftId, leftOrdinal⟩
  rcases named right rightChosen with ⟨rightId, rightOrdinal⟩
  simp [presenceTargets, leftId, leftOrdinal, rightId, rightOrdinal]

theorem presenceOutbox_keyed {id : Digest} {selects : PresenceRow → Bool}
    (named : ∀ row, selects row = true → row.outboxId = id) :
    ∀ left right, selects left = true → selects right = true →
      presenceOutbox.clash left right = true := by
  intro left right leftChosen rightChosen
  simp [presenceOutbox, named left leftChosen, named right rightChosen]

/-- The input is of the attempt under way at a target, whose identity the log does not know. -/
structure Addresses (input : PresenceInput) (target : TargetRow) (store : PresenceStore) :
    Prop where
  mem : target ∈ targetsOf input.outboxId store
  ordinal : target.targetOrdinal = input.targetOrdinal
  submitted : target.state = .submitted
  revision : target.revision = input.targetRevision
  number : target.attemptCount = input.attemptNumber
  identity : target.lastAttemptId = some input.attemptId
  started : target.updatedAt = input.startedAt
  fresh : ∀ attempt ∈ store.attempts.rows, attempt.attemptId ≠ input.attemptId

variable {input : PresenceInput} {target : TargetRow} {store : PresenceStore}

/-- The attempt under way has its own place in the log. -/
theorem Addresses.apart (addresses : Addresses input target store) (logged : Logged store) :
    ∀ attempt ∈ store.attempts.rows, presenceAttempts.clash attempt input.row = false := by
  intro attempt attemptMem
  cases clashing : presenceAttempts.clash attempt input.row with
  | false => rfl
  | true =>
      simp only [presenceAttempts, PresenceInput.row, Bool.or_eq_true, Bool.and_eq_true,
        beq_iff_eq] at clashing
      rcases clashing with sameId | ⟨⟨sameOutbox, sameOrdinal⟩, sameNumber⟩
      · exact absurd sameId (addresses.fresh attempt attemptMem)
      · rcases logged attempt attemptMem with ⟨other, otherMem, outbox, otherOrdinal, -, under⟩
        have same : other = target := by
          refine eq_of_ordinal (List.mem_filter.mpr ⟨otherMem, ?_⟩) addresses.mem
            ((otherOrdinal.trans sameOrdinal).trans addresses.ordinal.symm)
          rw [outbox, sameOutbox]
          exact beq_self_eq_true _
        rw [same] at under
        have below := under addresses.submitted
        have number := addresses.number
        omega

theorem insertAttempt_of_addressed (addresses : Addresses input target store)
    (logged : Logged store) (answered : input.outcome ≠ .submitted)
    (progress : input.startedAt ≤ input.finishedAt) (bounded : input.finishedAt ≤ maxInteger) :
    ∃ attempts, insertAttempt input store = .ok { store with attempts } := by
  rcases List.mem_filter.mp addresses.mem with ⟨storedMem, isOf⟩
  simp only [beq_iff_eq] at isOf
  have checked := store.targets.checked target storedMem
  simp only [presenceTargets, TargetRow.shaped, addresses.submitted, Bool.and_eq_true,
    decide_eq_true_eq] at checked
  rcases checked with ⟨⟨ordinal, -, -, count, -, -⟩, ⟨started, -⟩, -⟩
  rw [addresses.ordinal] at ordinal
  rw [addresses.number] at count started
  have accepted : presenceAttempts.check input.row = true := by
    simp [presenceAttempts, PresenceInput.row, ordinal, started, count, progress, bounded, answered]
  rcases Table.insert_of_accepted accepted rfl (addresses.apart logged) with
    ⟨attempts, inserted, -⟩
  have listed : (store.targets.rows.any fun other => other.outboxId == input.outboxId &&
      other.targetOrdinal == input.targetOrdinal) = true :=
    List.any_eq_true.mpr ⟨target, storedMem, by simp [isOf, addresses.ordinal]⟩
  refine ⟨attempts, ?_⟩
  simp only [insertAttempt, require, listed, if_true, inserted, orError, bind, Except.bind, pure,
    Except.pure]

/-- What an outcome leaves of a target has the shape that its table prescribes. -/
theorem outcomeSchedule_shaped {bound attemptNumber finished delay : Nat}
    {outcome : AttemptOutcome} {state : TargetState} {next : Option Nat}
    (scheduled : outcomeSchedule presenceMaxAttempts bound attemptNumber finished delay outcome =
      some (state, next)) :
    state ≠ .pending ∧ state ≠ .submitted ∧
      (state.retryable = false → next = none) ∧
      (state.retryable = true → next.isSome = decide (attemptNumber < presenceMaxAttempts)) := by
  rcases outcomeSchedule_spec scheduled with ⟨decided, ofNext, renewed⟩
  have isState := outcomeSchedule_state scheduled
  refine ⟨?_, decided, ?_, ?_⟩
  · rw [isState]
    cases outcome <;> simp [AttemptOutcome.targetState]
  · intro final
    cases next with
    | none => rfl
    | some instant =>
        have retryable := ofNext rfl
        rw [final] at retryable
        cases retryable
  · intro retryable
    rw [Bool.eq_iff_iff, decide_eq_true_eq]
    exact renewed retryable

theorem recordTarget_of_addressed (addresses : Addresses input target store)
    {state : TargetState} {schedule : Option Nat} (scheduled : outcomeOf input =
      .ok (state, schedule)) (progress : input.startedAt ≤ input.finishedAt)
    (bounded : input.finishedAt ≤ maxInteger) (room : target.revision < maxInteger) :
    ∃ targets, store.targets.update (recordTarget state schedule input) = some (targets, 1) := by
  simp only [outcomeOf, orError_eq_ok] at scheduled
  have instants := outcomeSchedule_bounded scheduled
  rcases outcomeSchedule_shaped scheduled with ⟨notPending, notSubmitted, final, again⟩
  rcases List.mem_filter.mp addresses.mem with ⟨storedMem, isOf⟩
  simp only [beq_iff_eq] at isOf
  have checked := store.targets.checked target storedMem
  simp only [presenceTargets, TargetRow.shaped, addresses.submitted, Bool.and_eq_true,
    decide_eq_true_eq] at checked
  rcases checked with ⟨⟨ordinal, -, -, count, -, -⟩, ⟨started, -⟩, -⟩
  have named : ∀ other, (recordTarget state schedule input).selects other = true →
      other.outboxId = input.outboxId ∧ other.targetOrdinal = input.targetOrdinal := by
    intro other chosen
    simp only [recordTarget, Bool.and_eq_true, beq_iff_eq] at chosen
    exact chosen.1.1.1.1
  have grown : target.revision + 1 ≤ maxInteger := room
  have forward : target.updatedAt ≤ input.finishedAt := addresses.started ▸ progress
  refine Table.update_of_single presenceTargets_clash_comm (fun _ _ => rfl)
    (presenceTargets_keyed named) storedMem ?_ ⟨?_, ?_⟩
  · simp [recordTarget, isOf, addresses.ordinal, addresses.revision, addresses.submitted,
      addresses.number, addresses.identity]
  · simp only [presenceTargets, recordTarget, Bool.and_eq_true, decide_eq_true_eq]
    refine ⟨⟨ordinal, Nat.le_add_left 1 _, grown, count, instants, bounded⟩, ?_⟩
    rw [← addresses.number] at again
    cases state with
    | pending => exact absurd rfl notPending
    | submitted => exact absurd rfl notSubmitted
    | accepted | rejected | authRequired =>
        simp [TargetRow.shaped, final rfl, started, addresses.identity]
    | rateLimited | failed | unknown =>
        simp [TargetRow.shaped, again rfl, started, addresses.identity]
  · simp [presenceTargets, recordTarget, TargetRow.presenceTransition, addresses.submitted, forward,
      notPending, notSubmitted]

/-- The outcome of an attempt under way can be written as soon as it has a schedule. -/
theorem writeOutcome_of_addressed (addresses : Addresses input target store) (logged : Logged store)
    {state : TargetState} {schedule : Option Nat} (scheduled : outcomeOf input =
      .ok (state, schedule)) (answered : input.outcome ≠ .submitted)
    (progress : input.startedAt ≤ input.finishedAt) (bounded : input.finishedAt ≤ maxInteger)
    (room : target.revision < maxInteger) :
    ∃ next, writeOutcome input store = .ok (state, next) := by
  rcases insertAttempt_of_addressed addresses logged answered progress bounded with
    ⟨attempts, inserted⟩
  rcases recordTarget_of_addressed addresses scheduled progress bounded room with
    ⟨targets, updated⟩
  refine ⟨{ store with attempts, targets }, ?_⟩
  simp only [writeOutcome, bind_eq_ok, inserted, scheduled, Except.ok.injEq, exists_eq_left',
    orError_eq_ok, require_eq_ok, pure_eq_ok]
  exact ⟨(targets, 1), updated, (), rfl, rfl⟩

/-- How a lease ends: the outbox is pending with an instant, or closed without one. -/
def Ends (state : PresenceState) (schedule : Option Nat) : Prop :=
  (state = .pending ∧ ∃ instant, schedule = some instant ∧ instant ≤ maxInteger) ∨
    ((state = .complete ∨ state = .blocked ∨ state = .superseded) ∧ schedule = none)

/-- A lease can be ended on the side of its expiry that the statement asks for, unless the clock is
behind the outbox or its revisions are used up. -/
theorem release_of_leased {expired : Bool} {state : PresenceState} {schedule : Option Nat}
    {now : Nat} {owner : BitVec 128} {expires : Nat} {row : PresenceRow}
    (rowMem : row ∈ store.outbox.rows) (leased : row.state = .leased)
    (owned : row.leaseOwner = some owner) (expiry : row.leaseExpires = some expires)
    (side : decide (expires ≤ now) = expired) (forward : row.updatedAt ≤ now)
    (bounded : now ≤ maxInteger) (room : row.revision < maxInteger) (ends : Ends state schedule) :
    ∃ next, release expired state schedule now row.outboxId row.revision owner expires store =
      .ok next := by
  have checked := store.outbox.checked row rowMem
  simp only [presenceOutbox, Bool.and_eq_true, decide_eq_true_eq] at checked
  rcases checked with ⟨⟨generation, generationBound, bytes, bytesBound, authored, targets,
    targetsBound, required, -, -, created, -⟩, -⟩
  have grown : row.revision + 1 ≤ maxInteger := room
  have later : row.createdAt ≤ now := created.trans forward
  have named : ∀ other, (releaseOutbox expired state schedule now row.outboxId row.revision owner
      expires).selects other = true → other.outboxId = row.outboxId := by
    intro other chosen
    simp only [releaseOutbox, Bool.and_eq_true, beq_iff_eq] at chosen
    exact chosen.1.1.1.1.1.1
  have updated : ∃ outbox, store.outbox.update (releaseOutbox expired state schedule now
      row.outboxId row.revision owner expires) = some (outbox, 1) := by
    refine Table.update_of_single presenceOutbox_clash_comm (fun _ _ => rfl)
      (presenceOutbox_keyed named) rowMem ?_ ⟨?_, ?_⟩
    · simp [releaseOutbox, leased, owned, expiry, side, forward]
    · rcases ends with ⟨rfl, instant, rfl, due⟩ | ⟨rfl | rfl | rfl, rfl⟩
      · simp [presenceOutbox, releaseOutbox, PresenceRow.shaped, generation, generationBound, bytes,
          bytesBound, authored, targets, targetsBound, required, later, grown, bounded, due]
      all_goals
        simp [presenceOutbox, releaseOutbox, PresenceRow.shaped, generation, generationBound, bytes,
          bytesBound, authored, targets, targetsBound, required, later, grown, bounded]
    · rcases ends with ⟨rfl, -⟩ | ⟨rfl | rfl | rfl, -⟩
      all_goals
        simp [presenceOutbox, releaseOutbox, PresenceRow.SameIdentity,
          PresenceRow.transitionAllowed, leased, forward]
  rcases updated with ⟨outbox, updated⟩
  refine ⟨{ store with outbox }, ?_⟩
  simp only [release, updated, orError, require, beq_self_eq_true, if_true, bind, Except.bind, pure,
    Except.pure]

end Writing

section Recording

variable [Sha256] [PresenceEvents] {input : PresenceInput} {row : PresenceRow} {target : TargetRow}
  {store : PresenceStore}

omit [Sha256] [PresenceEvents] in
theorem find_target {id : Digest} {target : TargetRow} (targetMem : target ∈ targetsOf id store) :
    (targetsOf id store).find? (fun other => other.targetOrdinal == target.targetOrdinal) =
      some target := by
  cases found : (targetsOf id store).find? fun other =>
      other.targetOrdinal == target.targetOrdinal with
  | none =>
      have missed := List.find?_eq_none.mp found target targetMem
      simp at missed
  | some other =>
      have same : other.targetOrdinal = target.targetOrdinal := by
        simpa using List.find?_some found
      rw [eq_of_ordinal (List.mem_of_find?_eq_some found) targetMem same]

/-- Whatever the outcome of the attempt under way, the targets decide how its lease ends. -/
theorem disposition_of_settled {now : Nat} {record settled : PresenceRecord}
    (coherent : record.Coherent) (settlement : PresenceRecord.Settlement now record settled)
    (listed : ∀ target ∈ settled.targets, target ∈ store.targets.rows) :
    ∃ decided, disposition record.row settled.targets = .ok decided ∧
      Ends decided.presenceState.1 decided.presenceState.2 := by
  have sound := coherent.sound
  rcases (settlement.tracked sound coherent.attended).verdict_total
    (settlement.quiet sound coherent.attended) with ⟨decided, decides⟩
  have valid := validateTargets_of_sound (sound.settlement settlement)
  rw [settlement.row_eq] at valid
  refine ⟨decided, ?_, ?_⟩
  · simp only [disposition, valid, decides, orError, bind, Except.bind]
  · cases decided with
    | complete => exact .inr ⟨.inl rfl, rfl⟩
    | blocked => exact .inr ⟨.inr (.inl rfl), rfl⟩
    | pending next =>
        refine .inl ⟨rfl, next, rfl, ?_⟩
        have least := (verdict_eq_pending.mp decides).2
        rcases List.mem_filterMap.mp (List.min?_mem least) with ⟨target, targetMem, isNext⟩
        have checked :=
          store.targets.checked target (listed target (List.mem_filter.mp targetMem).1)
        simp only [presenceTargets, Bool.and_eq_true, decide_eq_true_eq] at checked
        exact checked.1.2.2.2.2.1 next isNext

/-- The attempt of an input is under way: its lease stands, its document is desired, its target is
submitted, and the log does not know it yet. -/
structure Underway (input : PresenceInput) (row : PresenceRow) (target : TargetRow)
    (store : PresenceStore) : Prop extends Addresses input target store where
  stored : storedRow input.outboxId store = some row
  raised : row.revision = input.outboxRevision
  digest : row.eventDigest = input.eventDigest
  leased : row.state = .leased
  owned : row.leaseOwner = some input.owner.bytes
  expiry : row.leaseExpires = some input.leaseExpires
  current : validateCurrentDesired row store = .ok ()

/-- Nothing keeps an outcome out of the tables: the clock is not behind, and the revisions can
grow. -/
structure Spare (input : PresenceInput) (row : PresenceRow) (target : TargetRow) : Prop where
  progress : input.startedAt ≤ input.finishedAt
  forward : row.updatedAt ≤ input.finishedAt
  bounded : input.finishedAt ≤ maxInteger
  row : row.revision < maxInteger
  target : target.revision < maxInteger

omit [Sha256] [PresenceEvents] in
theorem Underway.unrecorded (underway : Underway input row target store) :
    (store.attempts.rows.find? fun attempt => attempt.attemptId == input.attemptId) = none := by
  refine List.find?_eq_none.mpr ?_
  intro attempt attemptMem
  simpa using underway.fresh attempt attemptMem

/-- The outcome of an attempt under way is recorded as soon as it has a schedule. -/
theorem recordOutcome_of_underway (underway : Underway input row target store)
    (coherent : Every PresenceRecord.Coherent store) (logged : Logged store)
    (early : input.finishedAt < input.leaseExpires) (spare : Spare input row target)
    (answered : input.outcome ≠ .submitted) {state : TargetState} {schedule : Option Nat}
    (scheduled : outcomeOf input = .ok (state, schedule)) :
    ∃ commit next, recordOutcome input store = .ok (commit, next) := by
  have sound : Every PresenceRecord.Sound store :=
    fun id record found => (coherent id record found).sound
  have found : Presence.stored input.outboxId store = some ⟨row, targetsOf input.outboxId store⟩ :=
    stored_eq_some.mpr ⟨underway.stored, rfl⟩
  have isCoherent := coherent _ _ found
  have read := readOutbox_of_sound sound input.outboxId
  rw [found] at read
  have valid : validateInputLease input store = .ok () := by
    simp only [validateInputLease, read, underway.current, underway.raised, underway.digest,
      underway.leased, underway.owned, underway.expiry, early, orError, require, beq_self_eq_true,
      decide_true, Bool.and_self, if_true, bind, Except.bind]
  rcases writeOutcome_of_addressed underway.toAddresses logged scheduled answered spare.progress
    spare.bounded spare.target with ⟨settledStore, written⟩
  rcases writeOutcome_spec written found with
    ⟨next, old, settles, -, -, -, -, -, -, settledStored, -⟩
  have settlement : PresenceRecord.Settlement input.finishedAt _ _ := .one rfl settles
  rcases stored_eq_some.mp settledStored with ⟨settledRow, settledTargets⟩
  have sorted := (isCoherent.sound.settlement settlement).sorted
  rw [← settledTargets] at sorted
  have targetsRead := readTargetRows_of_sorted sorted
  rw [settledTargets] at targetsRead
  rcases disposition_of_settled isCoherent settlement (fun target targetMem => by
    rw [← settledTargets] at targetMem
    exact (List.mem_filter.mp targetMem).1) with ⟨decided, decides, ends⟩
  rcases storedRow_spec settledRow with ⟨rowMem, isId⟩
  have isId : row.outboxId = input.outboxId := isId
  rcases release_of_leased rowMem underway.leased underway.owned underway.expiry
    (decide_eq_false (Nat.not_le_of_lt early)) spare.forward spare.bounded spare.row ends with
    ⟨released, release⟩
  change Presence.release false _ _ _ row.outboxId row.revision _ _ _ = _ at release
  rw [isId, underway.raised] at release
  have isTarget := find_target underway.mem
  rw [underway.ordinal] at isTarget
  refine ⟨⟨input.outboxId, input.attemptId, input.targetOrdinal, input.attemptNumber, input.outcome,
    state, decided.presenceState.1⟩, released, ?_⟩
  simp only [recordOutcome, underway.unrecorded, valid, read, isTarget, orError, underway.submitted,
    underway.revision, underway.number, underway.identity, underway.started, written, targetsRead,
    decides, release, require, beq_self_eq_true, Bool.and_self, if_true, bind, Except.bind, pure,
    Except.pure]

/-- Nothing is recorded of an attempt under way without a schedule. -/
theorem scheduled_of_recordOutcome (underway : Underway input row target store)
    {commit : PresenceAttemptCommit} {next : PresenceStore}
    (done : recordOutcome input store = .ok (commit, next)) :
    ∃ scheduled, outcomeOf input = .ok scheduled := by
  simp only [recordOutcome, underway.unrecorded, writeOutcome, bind_eq_ok, pure_eq_ok] at done
  rcases done with ⟨_, -, _, -, _, -, _, -, _, -, _, ⟨_, -, scheduled, isSchedule, -⟩, -⟩
  exact ⟨scheduled, isSchedule⟩

end Recording

section Answers

variable [Sha256] [PresenceEvents]

omit [Sha256] [PresenceEvents] in
/-- The delay `execute_next_presence` records with an outcome. -/
def retryDelay (prepared : PreparedPresence) (outcome : AttemptOutcome) (sample : Nat) : Nat :=
  if outcome.retryable then
    sampleRetryDelay (retryUpperBound presenceInitialBackoff presenceMaximumBackoff
      prepared.target.attemptCount) sample
  else
    0

/-- What `execute_next_presence` answers once its attempt is submitted. -/
def answer (prepared : PreparedPresence) (disposition : Disposition) (finishedAt : UnixMilliseconds)
    (observed : AttemptOutcome) (sample : Nat) (store : PresenceStore) :
    Except PresenceErrorKind PresenceAttemptCommit :=
  (recordPresenceOutcome .readWriteExisting disposition prepared finishedAt
    (closedOutcome observed) (retryDelay prepared (closedOutcome observed) sample) store).1

/-- The lease of an attempt stands: its outbox was not touched since the claim. -/
def Stands (prepared : PreparedPresence) (store : PresenceStore) : Prop :=
  storedRow prepared.lease.outbox.row.outboxId store = some prepared.lease.outbox.row

omit [PresenceEvents] in
/-- What was handed out with an attempt: its outbox was not older, and while the lease stands the
target is under way. -/
structure Handed (prepared : PreparedPresence) (store : PresenceStore) : Prop where
  identified : deriveAttemptId prepared.lease.outbox.row.outboxId
    prepared.lease.outbox.row.eventDigest prepared.target.targetOrdinal
    prepared.target.attemptCount = prepared.attemptId
  leased : prepared.lease.outbox.row.state = .leased
  owned : prepared.lease.outbox.row.leaseOwner = some prepared.lease.owner.bytes
  expiry : prepared.lease.outbox.row.leaseExpires = some prepared.lease.expiresAt
  submitted : prepared.target.state = .submitted
  identity : prepared.target.lastAttemptId = some prepared.attemptId
  started : prepared.target.updatedAt = prepared.startedAt
  seen : ∃ row, storedRow prepared.lease.outbox.row.outboxId store = some row ∧
    prepared.lease.outbox.row.revision ≤ row.revision
  mem : Stands prepared store →
    prepared.target ∈ targetsOf prepared.lease.outbox.row.outboxId store

variable {prepared : PreparedPresence} {store : PresenceStore}

theorem handed_of_prepareNext {lease : PresenceLease} {startedAt : UnixMilliseconds}
    {next : PresenceStore} (sound : Every PresenceRecord.Sound store)
    (quiet : Quiet lease.outbox.targets)
    (done : prepareNext lease startedAt store = .ok (prepared, next)) : Handed prepared next := by
  rcases prepareNext_spec sound quiet done with
    ⟨old, oldMem, valid, rfl, -, identity, sameStart, isTarget, stepped⟩
  rcases validateLease_spec sound valid with ⟨-, -, leased, owned, expiry, -⟩
  rcases stored_eq_some.mp stepped.after with ⟨after, targets⟩
  refine ⟨?_, leased, owned, expiry, ?_, ?_, ?_, ⟨_, after, Nat.le_refl _⟩, ?_⟩
  · rw [isTarget]
    exact identity.symm
  · rw [isTarget]
    rfl
  · rw [isTarget]
    rfl
  · rw [isTarget, sameStart]
    rfl
  · intro _
    rw [targets, isTarget]
    exact exchanged_mem oldMem

/-- Nobody submits a target of an outbox that has one under way. -/
theorem Handed.effects {allowed : Prop} {after : PresenceStore} (handed : Handed prepared store)
    (effects : Effects allowed store after) : Handed prepared after := by
  have effect := effects prepared.lease.outbox.row.outboxId
  rcases handed.seen with ⟨row, isRow, reached⟩
  have found : stored prepared.lease.outbox.row.outboxId store = some ⟨row, _⟩ :=
    stored_eq_some.mpr ⟨isRow, rfl⟩
  have carry : (∃ later, storedRow prepared.lease.outbox.row.outboxId after = some later ∧
      prepared.lease.outbox.row.revision ≤ later.revision) →
      (Stands prepared after → prepared.target ∈
        targetsOf prepared.lease.outbox.row.outboxId after) → Handed prepared after :=
    fun seen mem => { handed with seen, mem }
  rw [found] at effect
  generalize isAfter : stored prepared.lease.outbox.row.outboxId after = result at effect
  cases effect with
  | same =>
      rcases stored_eq_some.mp isAfter with ⟨later, targets⟩
      refine carry ⟨row, later, reached⟩ ?_
      intro stands
      rw [targets]
      exact handed.mem (isRow.trans (later.symm.trans stands))
  | @step action _ next step reopens =>
      rcases stored_eq_some.mp isAfter with ⟨later, targets⟩
      rcases step.revision with ⟨rfl, same⟩ | raised
      · refine carry ⟨next.row, later, same ▸ reached⟩ ?_
        intro stands
        have isNext := later.symm.trans stands
        rw [same] at isNext
        have before := handed.mem (isRow.trans isNext)
        cases step with
        | submit leased expiry early oldMem due quiet =>
            exact absurd handed.submitted (quiet prepared.target before)
      · change next.row.revision = row.revision + 1 at raised
        refine carry ⟨next.row, later, by omega⟩ ?_
        intro stands
        have isNext := congrArg PresenceRow.revision (Option.some.inj (later.symm.trans stands))
        omega

theorem handed_exec (moves : List Move) :
    ∀ prepared ∈ (System.exec moves .initial).attempts,
      Handed prepared (System.exec moves .initial).store := by
  have kept := Transition.exec_invariant
    (fun system => Lawful system ∧ ∀ prepared ∈ system.attempts, Handed prepared system.store)
    (fun move system invariant => ⟨lawful_apply move system invariant.1, ?_⟩) moves
    ⟨lawful_initial, by
      intro prepared preparedMem
      cases preparedMem⟩
  · exact kept.2
  · intro prepared preparedMem
    have lawful := invariant.1
    rcases mem_attempts_of_apply preparedMem with
      old | ⟨disposition, lease, startedAt, -, leaseMem, done⟩
    · exact (invariant.2 prepared old).effects (advance_apply move lawful).effects
    · exact handed_of_prepareNext lawful.sound (lawful.quiet lease leaseMem) done

/-- The tables take the outcome of an attempt: its document is desired, its identity is not taken,
and the revisions can grow. -/
structure Takes (prepared : PreparedPresence) (store : PresenceStore) : Prop where
  current : validateCurrentDesired prepared.lease.outbox.row store = .ok ()
  fresh : ∀ attempt ∈ store.attempts.rows, attempt.attemptId ≠ prepared.attemptId
  outbox : prepared.lease.outbox.row.revision < maxInteger
  target : prepared.target.revision < maxInteger

/-- The input of a prepared attempt. -/
def attemptInput (prepared : PreparedPresence) (finishedAt : UnixMilliseconds)
    (outcome : AttemptOutcome) (delay : Nat) : PresenceInput where
  outboxId := prepared.lease.outbox.row.outboxId
  outboxRevision := prepared.lease.outbox.row.revision
  eventDigest := prepared.lease.outbox.row.eventDigest
  owner := prepared.lease.owner
  leaseExpires := prepared.lease.expiresAt
  targetOrdinal := prepared.target.targetOrdinal
  targetRevision := prepared.target.revision
  attemptNumber := prepared.target.attemptCount
  attemptId := prepared.attemptId
  startedAt := prepared.startedAt
  finishedAt := finishedAt.get
  outcome
  retryDelay := delay

omit [PresenceEvents] in
theorem Handed.underway (handed : Handed prepared store) (stands : Stands prepared store)
    (takes : Takes prepared store) (finishedAt : UnixMilliseconds) (outcome : AttemptOutcome)
    (delay : Nat) :
    Underway (attemptInput prepared finishedAt outcome delay) prepared.lease.outbox.row
      prepared.target store where
  mem := handed.mem stands
  ordinal := rfl
  submitted := handed.submitted
  revision := rfl
  number := rfl
  identity := handed.identity
  started := handed.started
  fresh := takes.fresh
  stored := stands
  raised := rfl
  digest := rfl
  leased := handed.leased
  owned := handed.owned
  expiry := handed.expiry
  current := takes.current

/-- An outcome that is recorded while the lease stands was taken by the tables, at an instant that
is not before the claim. -/
theorem takes_of_recordOutcome {next : PresenceStore} {commit : PresenceAttemptCommit}
    {finishedAt : UnixMilliseconds} {outcome : AttemptOutcome} {delay : Nat}
    (handed : Handed prepared store) (stands : Stands prepared store)
    (sound : Every PresenceRecord.Sound store)
    (done : recordOutcome (attemptInput prepared finishedAt outcome delay) store =
      .ok (commit, next)) :
    Takes prepared store ∧ prepared.lease.outbox.row.updatedAt ≤ finishedAt.get := by
  have found : stored prepared.lease.outbox.row.outboxId store =
      some ⟨prepared.lease.outbox.row, targetsOf prepared.lease.outbox.row.outboxId store⟩ :=
    stored_eq_some.mpr ⟨stands, rfl⟩
  have read := readOutbox_of_sound sound prepared.lease.outbox.row.outboxId
  rw [found] at read
  have isRead : readOutbox (attemptInput prepared finishedAt outcome delay).outboxId store =
      _ := read
  rcases recordOutcome_cases sound done with
    ⟨-, existing, -, -, reconciled⟩ | ⟨record, state, schedule, old, decided, concludes, -⟩
  · -- an attempt that is logged already is recorded only where the lease has been given up
    simp only [reconcileRecorded, isRead, bind_eq_ok, require_eq_ok, orError_eq_ok,
      Bool.and_eq_true,
      beq_iff_eq, Except.ok.injEq, exists_eq_left', Option.some.injEq] at reconciled
    rcases reconciled with ⟨-, -, -, ⟨⟨⟨⟨raised, -⟩, -⟩, -⟩, -⟩, -⟩
    have raised : prepared.lease.outbox.row.revision = prepared.lease.outbox.row.revision + 1 :=
      raised
    omega
  · have isRecord := concludes.stepped.before.symm.trans found
    cases isRecord
    have valid := concludes.valid
    simp only [validateInputLease, isRead, bind_eq_ok, orError_eq_ok, Except.ok.injEq,
      exists_eq_left', Option.some.injEq] at valid
    rcases valid with ⟨_, current, -⟩
    have fresh : ∀ attempt ∈ store.attempts.rows, attempt.attemptId ≠ prepared.attemptId := by
      intro attempt attemptMem same
      have absent := List.find?_eq_none.mp concludes.unrecorded attempt attemptMem
      exact absent (beq_iff_eq.mpr same)
    rcases stored_eq_some.mp concludes.stepped.after with ⟨after, targets⟩
    have outbox := next.outbox.checked _ (storedRow_spec after).1
    have written : (recordTarget state schedule (attemptInput prepared finishedAt outcome
        delay)).write old ∈ targetsOf prepared.lease.outbox.row.outboxId next := by
      rw [show targetsOf prepared.lease.outbox.row.outboxId next = _ from targets]
      exact exchanged_mem concludes.settles.mem
    have target := next.targets.checked _ (List.mem_filter.mp written).1
    simp only [presenceOutbox, PresenceRecord.release, PresenceRecord.settle, Bool.and_eq_true,
      decide_eq_true_eq] at outbox
    simp only [presenceTargets, recordTarget, Bool.and_eq_true, decide_eq_true_eq] at target
    have isTarget : old = prepared.target :=
      eq_of_ordinal concludes.settles.mem (handed.mem stands) concludes.ordinal
    refine ⟨⟨current, fresh, ?_, ?_⟩, concludes.forward⟩
    · exact outbox.1.2.2.2.2.2.2.2.2.2.1
    · rw [← isTarget]
      exact target.1.2.2.1

omit [PresenceEvents] in
theorem fromPrepared_spec {finishedAt : UnixMilliseconds} {outcome : AttemptOutcome} {delay : Nat}
    {input : PresenceInput}
    (made : PresenceInput.fromPrepared prepared finishedAt outcome delay = .ok input) :
    prepared.startedAt ≤ finishedAt.get ∧
      input = attemptInput prepared finishedAt outcome delay := by
  simp only [PresenceInput.fromPrepared, bind_eq_ok, require_eq_ok, pure_eq_ok, Bool.and_eq_true,
    decide_eq_true_eq] at made
  rcases made with ⟨-, ⟨forward, -⟩, -, -, rfl⟩
  exact ⟨forward, rfl⟩

omit [PresenceEvents] in
theorem fromPrepared_of_handed {finishedAt : UnixMilliseconds} {outcome : AttemptOutcome}
    {delay : Nat} (handed : Handed prepared store) (answered : outcome ≠ .submitted)
    (forward : prepared.startedAt ≤ finishedAt.get) :
    PresenceInput.fromPrepared prepared finishedAt outcome delay =
      .ok (attemptInput prepared finishedAt outcome delay) := by
  have isAnswered : (outcome != .submitted) = true := by simpa using answered
  simp only [PresenceInput.fromPrepared, require, forward, handed.identified, isAnswered,
    decide_true, Bool.and_self, beq_self_eq_true, if_true, bind, Except.bind, pure, Except.pure]
  rfl

omit [Sha256] [PresenceEvents] in
/-- The delay an executor draws is one that the bound allows. -/
theorem schedulable_iff {finishedAt : UnixMilliseconds} {observed : AttemptOutcome} {sample : Nat} :
    (∃ scheduled, outcomeOf (attemptInput prepared finishedAt (closedOutcome observed)
      (retryDelay prepared (closedOutcome observed) sample)) = .ok scheduled) ↔
      Schedulable presenceMaxAttempts prepared.target.attemptCount finishedAt.get
        (retryDelay prepared (closedOutcome observed) sample) (closedOutcome observed) := by
  simp only [outcomeOf, orError_eq_ok]
  refine outcomeSchedule_isSome_iff (Publication.closedOutcome_ne_submitted observed) ?_ ?_
  · unfold attemptInput retryDelay
    split
    · exact Publication.sampleRetryDelay_le _ _
    · exact Nat.zero_le _
  · intro final
    change retryDelay prepared (closedOutcome observed) sample = 0
    have final : (closedOutcome observed).retryable = false := final
    simp [retryDelay, final]

/-- An executor that submitted an attempt, and whose lease stands, answers with its commit exactly
when the tables take the outcome, its clock has not gone back, and its delay is one the outcome can
be scheduled with. -/
theorem answer_iff {moves : List Move} {prepared : PreparedPresence}
    (preparedMem : prepared ∈ (System.exec moves .initial).attempts)
    (stands : Stands prepared (System.exec moves .initial).store)
    {finishedAt : UnixMilliseconds} (early : finishedAt.get < prepared.lease.expiresAt)
    (observed : AttemptOutcome) (sample : Nat) :
    (∃ commit, answer prepared .acknowledged finishedAt observed sample
      (System.exec moves .initial).store = .ok commit) ↔
      Takes prepared (System.exec moves .initial).store ∧
        (prepared.lease.outbox.row.updatedAt ≤ finishedAt.get ∧
          prepared.startedAt ≤ finishedAt.get) ∧
        Schedulable presenceMaxAttempts prepared.target.attemptCount finishedAt.get
          (retryDelay prepared (closedOutcome observed) sample) (closedOutcome observed) := by
  have lawful := lawful_exec moves
  have handed := handed_exec moves prepared preparedMem
  have answered := Publication.closedOutcome_ne_submitted observed
  rw [← schedulable_iff]
  constructor
  · rintro ⟨commit, returned⟩
    simp only [answer, recordPresenceOutcome, ne_eq, not_true_eq_false, if_false] at returned
    cases made : PresenceInput.fromPrepared prepared finishedAt (closedOutcome observed)
      (retryDelay prepared (closedOutcome observed) sample) with
    | error error =>
        rw [made] at returned
        cases returned
    | ok input =>
        rw [made] at returned
        rcases fromPrepared_spec made with ⟨progress, rfl⟩
        have done := transaction_ok returned
        rcases takes_of_recordOutcome handed stands lawful.sound done with ⟨takes, forward⟩
        exact ⟨takes, ⟨forward, progress⟩,
          scheduled_of_recordOutcome (handed.underway stands takes _ _ _) done⟩
  · rintro ⟨takes, ⟨forward, progress⟩, ⟨outcome, schedule⟩, scheduled⟩
    have underway := handed.underway stands takes finishedAt (closedOutcome observed)
      (retryDelay prepared (closedOutcome observed) sample)
    have spare : Spare (attemptInput prepared finishedAt (closedOutcome observed)
        (retryDelay prepared (closedOutcome observed) sample)) prepared.lease.outbox.row
          prepared.target :=
      ⟨progress, forward, finishedAt.bounded, takes.outbox, takes.target⟩
    rcases recordOutcome_of_underway underway lawful.coherent lawful.logged early spare answered
      scheduled with ⟨commit, next, done⟩
    refine ⟨commit, ?_⟩
    simp only [answer, recordPresenceOutcome, ne_eq, not_true_eq_false, if_false,
      fromPrepared_of_handed handed answered progress, transaction_acknowledged done]

end Answers

end Presence

end Rhi
