import Rhi.Publication.Retries

/-!
# Outcomes of attempts at a publication

The outcome of an attempt under way is recorded as soon as its schedule exists.  Recorded, it is
found again by whoever records it a second time, until the outbox moves on.
-/

namespace Rhi

open Relational Transactional

section Schedules

theorem outcomeSchedule_bounded {maxAttempts bound attemptNumber finished delay : Nat}
    {outcome : AttemptOutcome} {state : TargetState} {next : Option Nat}
    (scheduled : outcomeSchedule maxAttempts bound attemptNumber finished delay outcome =
      some (state, next)) : ∀ instant ∈ next, instant ≤ maxInteger := by
  unfold outcomeSchedule at scheduled
  simp only [Option.bind_eq_bind, Option.bind_eq_some_iff, Option.guard_eq_some'] at scheduled
  rcases scheduled with ⟨-, -, scheduled⟩
  split at scheduled <;>
    simp only [Option.bind_eq_some_iff, Option.guard_eq_some', Option.pure_def, Option.some.injEq,
      Prod.mk.injEq] at scheduled
  · rcases scheduled with ⟨-, -, -, bounded, -, rfl⟩
    intro instant isInstant
    cases isInstant
    exact bounded
  · rcases scheduled with ⟨-, -, -, rfl⟩
    intro instant isInstant
    cases isInstant

/-- An outcome leaves a schedule when a further attempt fits the clock, or when no delay was drawn
where no attempt is left. -/
def Schedulable (maxAttempts attemptNumber finished delay : Nat) (outcome : AttemptOutcome) :
    Prop :=
  outcome.retryable = true →
    if attemptNumber < maxAttempts then finished + delay ≤ maxInteger else delay = 0

instance (maxAttempts attemptNumber finished delay : Nat) (outcome : AttemptOutcome) :
    Decidable (Schedulable maxAttempts attemptNumber finished delay outcome) := by
  unfold Schedulable
  infer_instance

theorem outcomeSchedule_isSome_iff {maxAttempts bound attemptNumber finished delay : Nat}
    {outcome : AttemptOutcome} (answered : outcome ≠ .submitted) (least : delay ≤ bound)
    (undelayed : outcome.retryable = false → delay = 0) :
    (∃ scheduled, outcomeSchedule maxAttempts bound attemptNumber finished delay outcome =
      some scheduled) ↔ Schedulable maxAttempts attemptNumber finished delay outcome := by
  unfold outcomeSchedule Schedulable
  cases retryable : outcome.retryable with
  | false => simp [answered, undelayed retryable]
  | true =>
      by_cases spare : attemptNumber < maxAttempts
      · by_cases fits : finished + delay ≤ maxInteger
        · simp [answered, spare, least, fits]
        · simp [answered, spare, least, fits]
      · by_cases none : delay = 0
        · simp [answered, spare, none]
        · simp [answered, spare, none]

end Schedules

namespace Publication

section Underway

theorem publicationOutbox_keyed {id : Digest} {selects : OutboxRow → Bool}
    (named : ∀ row, selects row = true → row.outboxId = id) :
    ∀ left right, selects left = true → selects right = true →
      publicationOutbox.clash left right = true := by
  intro left right leftChosen rightChosen
  simp [publicationOutbox, named left leftChosen, named right rightChosen]

/-- The attempt of an input is under way: its lease stands, its target is submitted, and the log
does not know it yet. -/
structure Underway (input : RecordInput) (row : OutboxRow) (target : TargetRow) (store : Store) :
    Prop where
  stored : outboxRow input.lease.outbox.id store = some row
  held : Held input.lease row
  mem : target ∈ targetsOf input.lease.outbox.id store
  ordinal : target.targetOrdinal = input.targetOrdinal
  submitted : target.state = .submitted
  revision : target.revision = input.targetRevision
  number : target.attemptCount = input.attemptNumber
  identity : target.lastAttemptId = some input.attemptId
  started : target.updatedAt = input.startedAt
  fresh : ∀ attempt ∈ store.deliveries.rows, attempt.attemptId ≠ input.attemptId

/-- Nothing keeps an outcome out of the tables: the clock is not behind, and the revisions can
grow. -/
structure Spare (input : RecordInput) (row : OutboxRow) (target : TargetRow) : Prop where
  progress : input.startedAt ≤ input.finishedAt
  forward : row.updatedAt ≤ input.finishedAt
  bounded : input.finishedAt ≤ maxInteger
  row : row.revision < maxInteger
  target : target.revision < maxInteger

variable [Sha256] {input : RecordInput} {row : OutboxRow} {target : TargetRow} {store : Store}

omit [Sha256] in
theorem Underway.read (underway : Underway input row target store) :
    snapshot input.lease.outbox.id store = some ⟨row, targetsOf input.lease.outbox.id store,
      deliveriesOf input.lease.outbox.id store⟩ :=
  snapshot_eq_some.mpr ⟨underway.stored, rfl, rfl⟩

/-- The attempt under way has its own place in the log. -/
theorem Underway.apart (underway : Underway input row target store)
    (exact_ : Every Snapshot.Exact store) :
    ∀ attempt ∈ store.deliveries.rows, publicationAttempts.clash attempt input.row = false := by
  intro attempt attemptMem
  have isExact := exact_ _ _ underway.read
  cases clashing : publicationAttempts.clash attempt input.row with
  | false => rfl
  | true =>
      simp only [publicationAttempts, RecordInput.row, Bool.or_eq_true, Bool.and_eq_true,
        beq_iff_eq] at clashing
      rcases clashing with sameId | ⟨⟨sameOutbox, sameOrdinal⟩, sameNumber⟩
      · exact absurd sameId (underway.fresh attempt attemptMem)
      · have logged := isExact.logged target underway.mem
        have listed : input.attemptNumber ∈ Snapshot.recorded target.targetOrdinal ⟨row,
            targetsOf input.lease.outbox.id store, deliveriesOf input.lease.outbox.id store⟩ := by
          rw [← sameNumber]
          refine List.mem_map_of_mem (List.mem_filter.mpr ⟨?_, ?_⟩)
          · exact List.mem_filter.mpr ⟨attemptMem, by simpa using sameOutbox⟩
          · simp [sameOrdinal, underway.ordinal]
        have started := isExact.coherent.attended.tracked.started target underway.mem
          underway.submitted
        rw [logged, Snapshot.concluded, if_pos underway.submitted, List.mem_range'_1] at listed
        have number := underway.number
        omega

theorem insertAttempt_of_underway (underway : Underway input row target store)
    (exact_ : Every Snapshot.Exact store) (spare : Spare input row target) :
    ∃ next, insertAttempt input store = .ok next := by
  rcases List.mem_filter.mp underway.mem with ⟨storedMem, isOf⟩
  simp only [beq_iff_eq] at isOf
  have checked := store.targets.checked target storedMem
  simp only [publicationTargets, decide_eq_true_eq] at checked
  have started := (exact_ _ _ underway.read).coherent.attended.tracked.started target underway.mem
    underway.submitted
  have number := underway.number
  have ordinal := underway.ordinal
  have accepted : publicationAttempts.check input.row = true := by
    have ordinalBound : input.targetOrdinal ≤ 31 := by omega
    have numberBounds : 1 ≤ input.attemptNumber ∧ input.attemptNumber ≤ 100 := by omega
    simp [publicationAttempts, RecordInput.row, ordinalBound, numberBounds, spare.progress,
      spare.bounded]
  rcases Table.insert_of_accepted accepted rfl (underway.apart exact_) with
    ⟨deliveries, inserted, -⟩
  have listed : (store.targets.rows.any fun other =>
      other.outboxId == input.lease.outbox.id &&
        other.targetOrdinal == input.targetOrdinal) = true :=
    List.any_eq_true.mpr ⟨target, storedMem, by simp [isOf, ordinal]⟩
  refine ⟨{ store with deliveries }, ?_⟩
  simp only [insertAttempt, require, listed, if_true, inserted, orError, bind, Except.bind, pure,
    Except.pure]

omit [Sha256] in
theorem updateTargets_of_underway (underway : Underway input row target store)
    (spare : Spare input row target) {state : TargetState} {schedule : Option Nat}
    (bounded : ∀ instant ∈ schedule, instant ≤ maxInteger) :
    ∃ targets, store.targets.update (recordTarget state schedule input.finishedAt input) =
      some (targets, 1) := by
  rcases List.mem_filter.mp underway.mem with ⟨storedMem, isOf⟩
  simp only [beq_iff_eq] at isOf
  have checked := store.targets.checked target storedMem
  simp only [publicationTargets, decide_eq_true_eq] at checked
  have named : ∀ other, (recordTarget state schedule input.finishedAt input).selects other = true →
      other.outboxId = input.lease.outbox.id ∧ other.targetOrdinal = input.targetOrdinal := by
    intro other chosen
    simp only [recordTarget, Bool.and_eq_true, beq_iff_eq] at chosen
    exact chosen.1.1.1.1
  have grown : target.revision + 1 ≤ maxInteger := spare.target
  have forward : target.updatedAt ≤ input.finishedAt := underway.started ▸ spare.progress
  have numbered : target.attemptCount = 0 ↔ target.lastAttemptId = none := checked.2.2.2.2.2.2
  refine Table.update_of_single publicationTargets_clash_comm (fun _ _ => rfl)
    (publicationTargets_keyed named) storedMem ?_ ⟨?_, ?_⟩
  · simp [recordTarget, isOf, underway.ordinal, underway.revision, underway.submitted,
      underway.number, underway.identity]
  · simp only [publicationTargets, recordTarget, decide_eq_true_eq]
    exact ⟨checked.1, by omega, grown, checked.2.2.2.1, bounded, spare.bounded, numbered⟩
  · simp [publicationTargets, recordTarget, forward, underway.submitted]

/-- The lease of an outbox can be given up with any verdict that says when to go on. -/
theorem release_of_held {lease : PublicationLease} {now : Nat} {settled : Store}
    {decided : Verdict} (stored : outboxRow lease.outbox.id settled = some row)
    (held : Held lease row) (early : now < lease.expiresAt) (forward : row.updatedAt ≤ now)
    (bounded : now ≤ maxInteger) (room : row.revision < maxInteger)
    (decides : disposition lease.outbox (readTargets lease.outbox.id settled.targets.rows) =
      .ok decided) :
    ∃ next, release false lease now settled = .ok (decided, next) := by
  rcases outboxRow_spec stored with ⟨rowMem, isId⟩
  have checked := settled.outbox.checked row rowMem
  simp only [publicationOutbox, Bool.and_eq_true, decide_eq_true_eq] at checked
  rcases checked with ⟨checked, -⟩
  have revision := held.revision
  -- the instant of a pending verdict is one of the stored ones
  have scheduled : ∀ instant ∈ decided.outboxState.2, instant ≤ maxInteger := by
    intro instant isInstant
    cases decided with
    | complete => cases isInstant
    | blocked => cases isInstant
    | pending next =>
        cases isInstant
        simp only [disposition, bind_eq_ok, orError_eq_ok] at decides
        rcases decides with ⟨_, -, decides⟩
        have least := (verdict_eq_pending.mp decides).2
        rcases List.mem_filterMap.mp (List.min?_mem least) with ⟨target, targetMem, isNext⟩
        have listed := mem_targetsOf_of_readTargets (List.mem_filter.mp targetMem).1
        have shaped := settled.targets.checked target (List.mem_filter.mp listed).1
        simp only [publicationTargets, decide_eq_true_eq] at shaped
        exact shaped.2.2.2.2.1 _ isNext
  have updated : ∃ outbox, settled.outbox.update (releaseOutbox false decided now lease) =
      some (outbox, 1) := by
    have named : ∀ other, (releaseOutbox false decided now lease).selects other = true →
        other.outboxId = lease.outbox.id := by
      intro other chosen
      simp only [releaseOutbox, Bool.and_eq_true, beq_iff_eq] at chosen
      exact chosen.1.1.1.1.1.1
    have grown : row.revision + 1 ≤ maxInteger := room
    have later : row.createdAt ≤ now := by omega
    refine Table.update_of_single publicationOutbox_clash_comm (fun _ _ => rfl)
      (publicationOutbox_keyed named) rowMem ?_ ⟨?_, ?_⟩
    · have unexpired : ¬lease.expiresAt ≤ now := Nat.not_le_of_lt early
      simp [releaseOutbox, isId, revision, held.leased, held.owner, held.expires, unexpired,
        forward]
    · simp only [publicationOutbox, releaseOutbox, Bool.and_eq_true, decide_eq_true_eq]
      refine ⟨⟨checked.1, checked.2.1, checked.2.2.1, checked.2.2.2.1, checked.2.2.2.2.1,
        checked.2.2.2.2.2.1, checked.2.2.2.2.2.2.1, checked.2.2.2.2.2.2.2.1,
        checked.2.2.2.2.2.2.2.2.1, checked.2.2.2.2.2.2.2.2.2.1, checked.2.2.2.2.2.2.2.2.2.2.1,
        by omega, grown, later, bounded, checked.2.2.2.2.2.2.2.2.2.2.2.2.2.2.2⟩, ?_⟩
      cases decided with
      | complete => rfl
      | blocked => rfl
      | pending instant =>
          have due := scheduled instant rfl
          simp [OutboxRow.shaped, Verdict.outboxState, due]
    · simp [publicationOutbox, releaseOutbox, OutboxRow.SameIdentity, OutboxRow.transitionAllowed,
        held.leased, forward]
  rcases updated with ⟨outbox, updated⟩
  refine ⟨{ settled with outbox }, ?_⟩
  simp only [release, decides, Store.updateOutbox, updated, orError, require, beq_self_eq_true,
    if_true, bind, Except.bind, pure, Except.pure]

/-- The outcome of an attempt under way can be written as soon as it has a schedule. -/
theorem writeOutcome_of_underway (underway : Underway input row target store)
    (exact_ : Every Snapshot.Exact store) (spare : Spare input row target) {state : TargetState}
    {schedule : Option Nat} (scheduled : outcomeOf input = .ok (state, schedule)) :
    ∃ next, writeOutcome input store = .ok (state, next) := by
  rcases insertAttempt_of_underway underway exact_ spare with ⟨logged, inserted⟩
  rcases insertAttempt_spec inserted with ⟨deliveries, rfl, -⟩
  have bounded : ∀ instant ∈ schedule, instant ≤ maxInteger := by
    simp only [outcomeOf, orError_eq_ok] at scheduled
    exact outcomeSchedule_bounded scheduled
  rcases updateTargets_of_underway underway spare bounded with ⟨targets, updated⟩
  refine ⟨{ store with deliveries, targets }, ?_⟩
  simp only [writeOutcome, Store.updateTargets, bind_eq_ok, inserted, scheduled, Except.ok.injEq,
    exists_eq_left', orError_eq_ok, require_eq_ok, pure_eq_ok]
  exact ⟨(1, { store with deliveries, targets }), ⟨(targets, 1), updated, rfl⟩, (), rfl, rfl⟩

omit [Sha256] in
theorem Underway.unrecorded (underway : Underway input row target store) :
    (store.deliveries.rows.find? fun attempt => attempt.attemptId == input.attemptId) = none := by
  refine List.find?_eq_none.mpr ?_
  intro attempt attemptMem
  simpa using underway.fresh attempt attemptMem

/-- The outcome of an attempt under way is recorded as soon as it has a schedule. -/
theorem recordOutcome_of_underway (underway : Underway input row target store)
    (exact_ : Every Snapshot.Exact store) (early : input.finishedAt < input.lease.expiresAt)
    (spare : Spare input row target) {state : TargetState} {schedule : Option Nat}
    (scheduled : outcomeOf input = .ok (state, schedule)) :
    ∃ commit next, recordOutcome input store = .ok (commit, next) := by
  have coherent := (exact_ _ _ underway.read).coherent
  have valid := validateLease_of_held underway.stored underway.held early
  have found := find_target coherent.sound.sorted underway.mem
  rcases writeOutcome_of_underway underway exact_ spare scheduled with ⟨settled, written⟩
  rcases writeOutcome_spec written underway.read underway.held.maxAttempts with
    ⟨next, old, settles, -, -, settledRead⟩
  have sound := coherent.sound.settle settles
  rcases @disposition_of_settled _ _ _ _ _ _ (some input.lease.owner) coherent.sound
    coherent.attended (.one rfl settles) sound settledRead with ⟨decided, decides⟩
  rw [← underway.held.outbox] at decides
  rcases release_of_held (snapshot_eq_some.mp settledRead).1 underway.held early spare.forward
    spare.bounded spare.row decides with ⟨released, release⟩
  rw [underway.ordinal] at found
  refine ⟨⟨input.lease.outbox.id, input.attemptId, input.targetOrdinal, input.attemptNumber,
    input.outcome, state, decided.outboxState.1⟩, released, ?_⟩
  simp only [recordOutcome, underway.unrecorded, valid, found, orError, underway.submitted,
    underway.revision, underway.number, underway.identity, underway.started, written, release,
    require, beq_self_eq_true, Bool.and_self, if_true, bind, Except.bind, pure, Except.pure]

omit [Sha256] in
/-- Nothing is recorded of an attempt under way without a schedule. -/
theorem scheduled_of_recordOutcome [Sha256] (underway : Underway input row target store)
    {commit : AttemptCommit} {next : Store}
    (done : recordOutcome input store = .ok (commit, next)) :
    ∃ scheduled, outcomeOf input = .ok scheduled := by
  simp only [recordOutcome, underway.unrecorded, writeOutcome, bind_eq_ok, pure_eq_ok] at done
  rcases done with ⟨_, -, _, -, _, -, _, ⟨_, -, scheduled, isSchedule, -⟩, -⟩
  exact ⟨scheduled, isSchedule⟩

end Underway

section Answers

variable [Sha256] [TradeEvidence]

omit [Sha256] [TradeEvidence] in
theorem closedOutcome_ne_submitted (outcome : AttemptOutcome) :
    closedOutcome outcome ≠ .submitted := by
  cases outcome <;> simp [closedOutcome]

omit [Sha256] [TradeEvidence] in
theorem sampleRetryDelay_le (cap sample : Nat) : sampleRetryDelay cap sample ≤ cap := by
  unfold sampleRetryDelay
  split
  · exact Nat.zero_le _
  · exact Nat.lt_succ_iff.mp (Nat.mod_lt _ (Nat.succ_pos cap))

omit [TradeEvidence] in
/-- What `execute_next_publication` answers once its attempt is submitted. -/
def answer (prepared : PreparedAttempt) (disposition : Disposition) (finishedAt : UnixMilliseconds)
    (observed : AttemptOutcome) (sample : Nat) (store : Store) :
    Except PublicationErrorKind AttemptCommit :=
  (recordPublicationOutcome .readWriteExisting disposition prepared finishedAt
    (closedOutcome observed) (retryDelay prepared (closedOutcome observed) sample) store).1

omit [TradeEvidence] in
/-- What was handed out with an attempt: its outbox was not older, and while the lease stands the
target is under way. -/
structure Handed (prepared : PreparedAttempt) (store : Store) : Prop where
  identified : deriveAttemptId prepared.publication.outboxId prepared.publication.eventDigest
    prepared.target.targetOrdinal prepared.target.attemptCount = prepared.attemptId
  claimedAt : prepared.lease.outbox.updatedAt = prepared.startedAt.get
  submitted : prepared.target.state = .submitted
  identity : prepared.target.lastAttemptId = some prepared.attemptId
  started : prepared.target.updatedAt = prepared.startedAt.get
  seen : Seen prepared.lease store
  mem : ∀ row, outboxRow prepared.lease.outbox.id store = some row → Held prepared.lease row →
    prepared.target ∈ targetsOf prepared.lease.outbox.id store

omit [TradeEvidence] in
theorem handed_of_prepareNext {lease : PublicationLease} {now : UnixMilliseconds}
    {store next : Store} {prepared : PreparedAttempt} (orderly : Orderly next)
    (coherent : Every Snapshot.Coherent next) (claimedAt : lease.outbox.updatedAt = now.get)
    (done : prepareNext lease now store = .ok (prepared, next)) : Handed prepared next := by
  have submits := submits_of_prepareNext orderly coherent done
  rcases prepareNext_spec done with
    ⟨current, old, held, stepped, rfl, sameStart, isTarget, oldMem, -, -⟩
  rcases snapshot_eq_some.mp stepped.after with ⟨stored, targets, -⟩
  refine ⟨submits.identified, sameStart ▸ claimedAt, ?_, ?_, ?_,
    ⟨current.row, stored, Nat.le_of_eq held.revision⟩, ?_⟩
  · rw [isTarget]
    rfl
  · rw [isTarget]
    rfl
  · rw [isTarget, sameStart]
    rfl
  · intro row _ _
    rw [targets, isTarget]
    exact exchanged_mem oldMem

omit [TradeEvidence] in
/-- Nobody prepares a target of an outbox that has one under way. -/
theorem Handed.advance {prepared : PreparedAttempt} {call : Move} {service : Service}
    {after : Store} (handed : Handed prepared service.store) (advance : Advance call service after)
    (once : call.Once service) : Handed prepared after := by
  refine ⟨handed.identified, handed.claimedAt, handed.submitted, handed.identity, handed.started,
    seen_of_advance advance handed.seen, ?_⟩
  intro row stored held
  rcases held_of_advance advance handed.seen stored held with
    same | ⟨disposition, other, now, rfl, sameId, -, before, otherHeld⟩
  · have rows : outboxRow prepared.lease.outbox.id after =
        outboxRow prepared.lease.outbox.id service.store := congrArg Prod.fst same
    have targets : targetsOf prepared.lease.outbox.id after =
        targetsOf prepared.lease.outbox.id service.store := congrArg (·.2.1) same
    rw [targets]
    exact handed.mem row (rows ▸ stored) held
  · have quiet := once row (sameId ▸ before) otherHeld
    rw [sameId] at quiet
    exact absurd handed.submitted (quiet prepared.target (handed.mem row before held))

/-- The leases of executors were handed out at the instant their iteration goes on with. -/
structure Handing (state : Publishers) : Prop where
  claimed : ∀ index now lease, state.executors index = .claimed now lease →
    lease.outbox.updatedAt = now.get
  submitting : ∀ index prepared, state.executors index = .submitting prepared →
    Handed prepared state.service.store

theorem once_of_publishers (move : PublishersMove) {state : Publishers}
    (disciplined : Disciplined state) :
    ∃ call, Advance call state.service (state.apply move).service.store ∧
      call.Once state.service := by
  rw [service_apply]
  cases isCall : move.call state with
  | none => exact ⟨.service .close rfl, advance_refl _ _, trivial⟩
  | some call =>
      exact ⟨call, advance_of_apply call disciplined.orderly.referenced disciplined.orderly.sound,
        disciplined.once isCall⟩

theorem handing_apply (move : PublishersMove) (state : Publishers) (disciplined : Disciplined state)
    (handing : Handing state) : Handing (state.apply move) where
  claimed := by
    intro index now lease isClaimed
    rcases claimed_of_apply disciplined isClaimed with ⟨before, -⟩ | ⟨owner, binding, done⟩
    · exact handing.claimed index now lease before
    · rcases claimNext_spec done with ⟨current, -, -, held⟩
      rw [held.outbox]
      rfl
  submitting := by
    intro index prepared isSubmitting
    rcases submitting_of_apply isSubmitting with already | ⟨now, lease, isClaimed, done⟩
    · rcases once_of_publishers move disciplined with ⟨call, advance, once⟩
      exact (handing.submitting index prepared already).advance advance once
    · have next := disciplined_apply move state disciplined
      exact handed_of_prepareNext next.orderly next.coherent
        (handing.claimed index now lease isClaimed) done

theorem handing_exec (moves : List PublishersMove) :
    Handing (Publishers.exec moves .initial) := by
  have kept := Transition.exec_invariant (fun state => Disciplined state ∧ Handing state)
    (fun move state invariant => ⟨disciplined_apply move state invariant.1,
      handing_apply move state invariant.1 invariant.2⟩) moves
    ⟨disciplined_exec [], {
      claimed := by
        intro index now lease isClaimed
        cases isClaimed
      submitting := by
        intro index prepared isSubmitting
        cases isSubmitting }⟩
  exact kept.2

omit [TradeEvidence] in
/-- The lease of an attempt stands: nobody has recovered it. -/
def Stands (prepared : PreparedAttempt) (store : Store) : Prop :=
  ∃ row, outboxRow prepared.lease.outbox.id store = some row ∧ Held prepared.lease row

omit [TradeEvidence] in
/-- The tables take the outcome of an attempt: its identity is not taken, and the revisions can
grow. -/
structure Takes (prepared : PreparedAttempt) (store : Store) : Prop where
  fresh : ∀ attempt ∈ store.deliveries.rows, attempt.attemptId ≠ prepared.attemptId
  outbox : prepared.lease.outbox.revision < maxInteger
  target : prepared.target.revision < maxInteger

omit [TradeEvidence] in
/-- The input of a prepared attempt. -/
def attemptInput (prepared : PreparedAttempt) (finishedAt : UnixMilliseconds)
    (outcome : AttemptOutcome) (delay : Nat) : RecordInput where
  lease := prepared.lease
  targetOrdinal := prepared.target.targetOrdinal
  targetRevision := prepared.target.revision
  attemptNumber := prepared.target.attemptCount
  attemptId := prepared.attemptId
  startedAt := prepared.startedAt.get
  finishedAt := finishedAt.get
  outcome
  retryDelay := delay

variable {prepared : PreparedAttempt} {store : Store}

omit [TradeEvidence] in
theorem Handed.underway {row : OutboxRow} (handed : Handed prepared store)
    (takes : Takes prepared store)
    (stored : outboxRow prepared.lease.outbox.id store = some row) (held : Held prepared.lease row)
    (finishedAt : UnixMilliseconds) (outcome : AttemptOutcome) (delay : Nat) :
    Underway (attemptInput prepared finishedAt outcome delay) row prepared.target store :=
  ⟨stored, held, handed.mem row stored held, rfl, handed.submitted, rfl, rfl, handed.identity,
    handed.started, takes.fresh⟩

omit [TradeEvidence] in
/-- An outcome that is recorded while the lease stands was taken by the tables. -/
theorem takes_of_recordOutcome {row : OutboxRow} {next : Store} {commit : AttemptCommit}
    {finishedAt : UnixMilliseconds} {outcome : AttemptOutcome} {delay : Nat}
    (handed : Handed prepared store) (exact_ : Every Snapshot.Exact store)
    (stored : outboxRow prepared.lease.outbox.id store = some row) (held : Held prepared.lease row)
    (done : recordOutcome (attemptInput prepared finishedAt outcome delay) store =
      .ok (commit, next)) : Takes prepared store := by
  have read : snapshot prepared.lease.outbox.id store = some ⟨row,
      targetsOf prepared.lease.outbox.id store, deliveriesOf prepared.lease.outbox.id store⟩ :=
    snapshot_eq_some.mpr ⟨stored, rfl, rfl⟩
  have sound := (exact_ _ _ read).coherent.sound
  have fresh : ∀ attempt ∈ store.deliveries.rows, attempt.attemptId ≠ prepared.attemptId := by
    intro attempt attemptMem sameId
    -- an attempt that is logged already is recorded only where the lease has been given up
    unfold recordOutcome at done
    split at done
    · simp only [reconcileRecorded, bind_eq_ok, require_eq_ok, orError_eq_ok, Bool.and_eq_true,
        beq_iff_eq] at done
      rcases done with ⟨_, ⟨-, -, current, isRead, outbox, rfl, -, ⟨⟨⟨⟨-, raised⟩, -⟩, -⟩, -⟩, -⟩,
        -⟩
      rcases readOutbox_spec isRead with ⟨other, owner, isOther, -, rfl⟩
      have isRow := isOther.symm.trans stored
      cases isRow
      have revision := held.revision
      change row.revision = prepared.lease.outbox.revision + 1 at raised
      omega
    · rename_i unrecorded
      have absent := List.find?_eq_none.mp unrecorded attempt attemptMem
      exact absent (beq_iff_eq.mpr sameId)
  rcases recordOutcome_spec done sound.sorted with
    ⟨-, logged⟩ | ⟨current, state, schedule, old, decided, isHeld, -, settles, stepped⟩
  · exact absurd rfl (fresh _ logged)
  · have isCurrent := stepped.before.symm.trans read
    cases isCurrent
    rcases snapshot_eq_some.mp stepped.after with ⟨after, targets, -⟩
    have outbox := next.outbox.checked _ (outboxRow_spec after).1
    have written : (recordTarget state schedule finishedAt.get
        (attemptInput prepared finishedAt outcome delay)).write old ∈
          targetsOf prepared.lease.outbox.id next := by
      rw [show targetsOf prepared.lease.outbox.id next = _ from targets]
      exact exchanged_mem settles.mem
    have target := next.targets.checked _ (List.mem_filter.mp written).1
    simp only [publicationOutbox, Snapshot.release, Snapshot.settle, Bool.and_eq_true,
      decide_eq_true_eq] at outbox
    simp only [publicationTargets, recordTarget, decide_eq_true_eq] at target
    have isTarget : old = prepared.target :=
      sound.distinct settles.mem (handed.mem row stored held) settles.ordinal
    refine ⟨fresh, ?_, ?_⟩
    · have revision := held.revision
      have grown := outbox.1.2.2.2.2.2.2.2.2.2.2.2.2.1
      omega
    · rw [← isTarget]
      exact target.2.2.1

omit [TradeEvidence] in
theorem fromPrepared_of_underway {row : OutboxRow} {store : Store} {finishedAt : UnixMilliseconds}
    {outcome : AttemptOutcome} {delay : Nat}
    (underway : Underway (attemptInput prepared finishedAt outcome delay) row prepared.target store)
    (coherent : Every Snapshot.Coherent store) (answered : outcome ≠ .submitted)
    (identified : deriveAttemptId prepared.publication.outboxId prepared.publication.eventDigest
      prepared.target.targetOrdinal prepared.target.attemptCount = prepared.attemptId)
    (forward : prepared.startedAt.get ≤ finishedAt.get) :
    RecordInput.fromPrepared prepared finishedAt outcome delay =
      .ok (attemptInput prepared finishedAt outcome delay) := by
  have started := (coherent _ _ underway.read).attended.tracked.started prepared.target underway.mem
    underway.submitted
  have checked := store.targets.checked prepared.target (List.mem_filter.mp underway.mem).1
  simp only [publicationTargets, decide_eq_true_eq] at checked
  have bounds : prepared.target.targetOrdinal ≤ 31 ∧ 1 ≤ prepared.target.attemptCount ∧
      prepared.target.attemptCount ≤ 100 := ⟨checked.1, started, checked.2.2.2.1⟩
  have isAnswered : (outcome != .submitted) = true := by simpa using answered
  simp only [RecordInput.fromPrepared, require, forward, bounds, identified, isAnswered,
    decide_true,
    Bool.and_self, and_self, beq_self_eq_true, if_true, bind, Except.bind, pure, Except.pure]
  rfl

omit [TradeEvidence] in
theorem fromPrepared_spec {finishedAt : UnixMilliseconds} {outcome : AttemptOutcome} {delay : Nat}
    {input : RecordInput}
    (made : RecordInput.fromPrepared prepared finishedAt outcome delay = .ok input) :
    prepared.startedAt.get ≤ finishedAt.get ∧
      input = attemptInput prepared finishedAt outcome delay := by
  simp only [RecordInput.fromPrepared, bind_eq_ok, require_eq_ok, pure_eq_ok, Bool.and_eq_true,
    decide_eq_true_eq] at made
  rcases made with ⟨-, ⟨forward, -⟩, -, -, -, -, rfl⟩
  exact ⟨forward, rfl⟩

omit [Sha256] [TradeEvidence] in
/-- The delay an executor draws is one that the bound allows. -/
theorem schedulable_iff {finishedAt : UnixMilliseconds} {observed : AttemptOutcome} {sample : Nat} :
    (∃ scheduled, outcomeOf (attemptInput prepared finishedAt (closedOutcome observed)
      (retryDelay prepared (closedOutcome observed) sample)) = .ok scheduled) ↔
      Schedulable prepared.lease.outbox.maxAttempts prepared.target.attemptCount finishedAt.get
        (retryDelay prepared (closedOutcome observed) sample) (closedOutcome observed) := by
  simp only [outcomeOf, orError_eq_ok]
  refine outcomeSchedule_isSome_iff (closedOutcome_ne_submitted observed) ?_ ?_
  · unfold retryDelay
    split
    · exact sampleRetryDelay_le _ _
    · exact Nat.zero_le _
  · intro final
    change retryDelay prepared (closedOutcome observed) sample = 0
    have final : (closedOutcome observed).retryable = false := final
    simp [retryDelay, final]

/-- An executor that submitted an attempt, and whose lease stands, answers with its commit exactly
when the tables take the outcome, its clock has not gone back, and its delay is one the outcome can
be scheduled with. -/
theorem answer_iff {moves : List PublishersMove} {index : Nat} {prepared : PreparedAttempt}
    (isSubmitting : (Publishers.exec moves .initial).executors index = .submitting prepared)
    (stands : Stands prepared (Publishers.exec moves .initial).service.store)
    {finishedAt : UnixMilliseconds} (early : finishedAt.get < prepared.lease.expiresAt)
    (observed : AttemptOutcome) (sample : Nat) :
    (∃ commit, answer prepared .acknowledged finishedAt observed sample
      (Publishers.exec moves .initial).service.store = .ok commit) ↔
      Takes prepared (Publishers.exec moves .initial).service.store ∧
        prepared.startedAt.get ≤ finishedAt.get ∧
        Schedulable prepared.lease.outbox.maxAttempts prepared.target.attemptCount finishedAt.get
          (retryDelay prepared (closedOutcome observed) sample) (closedOutcome observed) := by
  have disciplined := disciplined_exec moves
  have handed := (handing_exec moves).submitting index prepared isSubmitting
  have answered := closedOutcome_ne_submitted observed
  rcases stands with ⟨row, stored, held⟩
  rw [← schedulable_iff]
  constructor
  · rintro ⟨commit, returned⟩
    simp only [answer, recordPublicationOutcome, ne_eq, not_true_eq_false, if_false] at returned
    cases made : RecordInput.fromPrepared prepared finishedAt (closedOutcome observed)
      (retryDelay prepared (closedOutcome observed) sample) with
    | error error =>
        rw [made] at returned
        cases returned
    | ok input =>
        rw [made] at returned
        rcases fromPrepared_spec made with ⟨forward, rfl⟩
        have done := transaction_ok returned
        have takes := takes_of_recordOutcome handed disciplined.exact_ stored held done
        exact ⟨takes, forward,
          scheduled_of_recordOutcome (handed.underway takes stored held _ _ _) done⟩
  · rintro ⟨takes, forward, ⟨outcome, schedule⟩, scheduled⟩
    have underway := handed.underway takes stored held finishedAt (closedOutcome observed)
      (retryDelay prepared (closedOutcome observed) sample)
    have made := fromPrepared_of_underway underway disciplined.coherent answered handed.identified
      forward
    have revision := held.revision
    have updatedAt : row.updatedAt = prepared.startedAt.get := by
      rw [← handed.claimedAt, held.outbox]
      rfl
    have spare : Spare (attemptInput prepared finishedAt (closedOutcome observed)
        (retryDelay prepared (closedOutcome observed) sample)) row prepared.target :=
      ⟨forward, updatedAt ▸ forward, finishedAt.bounded, revision ▸ takes.outbox, takes.target⟩
    rcases recordOutcome_of_underway underway disciplined.exact_ early spare scheduled with
      ⟨commit, next, done⟩
    refine ⟨commit, ?_⟩
    simp only [answer, recordPublicationOutcome, ne_eq, not_true_eq_false, if_false, made,
      transaction_acknowledged done]

end Answers

end Publication

end Rhi
