import Rhi.Publication.Runs

/-!
# The publication queue

The queue holds the outboxes that are not complete.  Its capacity is checked where an outbox is
inserted; no other call lets the queue grow, because nothing leaves `complete`.
-/

namespace Rhi

open Relational Transactional

namespace Publication

section Queue

/-- The outboxes of the queue. -/
def queued (store : Store) : List Digest :=
  (store.outbox.rows.filter fun row => row.state != .complete).map (·.outboxId)

theorem queued_length (store : Store) :
    (queued store).length = store.outbox.rows.countP fun row => row.state != .complete := by
  rw [queued, List.length_map, List.countP_eq_length_filter]

theorem mem_queued {store : Store} {id : Digest} :
    id ∈ queued store ↔ ∃ row, outboxRow id store = some row ∧ row.state ≠ .complete := by
  simp only [queued, List.mem_map, List.mem_filter, bne_iff_ne]
  constructor
  · rintro ⟨row, ⟨rowMem, isOpen⟩, rfl⟩
    exact ⟨row, outboxRow_of_mem rowMem, isOpen⟩
  · rintro ⟨row, stored, isOpen⟩
    rcases outboxRow_spec stored with ⟨rowMem, same⟩
    exact ⟨row, ⟨rowMem, isOpen⟩, same⟩

theorem queued_nodup (store : Store) : (queued store).Nodup := by
  have apart : store.outbox.rows.Pairwise fun left right => left.outboxId ≠ right.outboxId := by
    refine store.outbox.distinct.imp ?_
    intro left right unclashing same
    simp [publicationOutbox, same] at unclashing
  exact List.pairwise_map.mpr (apart.filter _)

/-- A queue that gained no outbox has not grown. -/
theorem queued_length_le {before after : Store} (listed : queued after ⊆ queued before) :
    (queued after).length ≤ (queued before).length :=
  (List.subperm_of_subset (queued_nodup after) listed).length_le

end Queue

section Steps

variable [Sha256]

theorem Snapshot.Step.incomplete {action : Action} {current next : Snapshot}
    (step : Snapshot.Step action current next) : current.row.state ≠ .complete := by
  intro complete
  cases step with
  | claim pending => simp [complete] at pending
  | prepare leased => simp [complete] at leased
  | record leased => simp [complete] at leased
  | recover leased => simp [complete] at leased
  | retry blocked => simp [complete] at blocked

/-- A step of one outbox queues nothing. -/
theorem Stepped.queued_subset {action : Action} {id : Digest} {before after : Store}
    {current next : Snapshot} (stepped : Stepped action id before after current next) :
    queued after ⊆ queued before := by
  intro other otherMem
  rcases mem_queued.mp otherMem with ⟨row, stored, isOpen⟩
  refine mem_queued.mpr ?_
  by_cases same : other = id
  · subst same
    exact ⟨current.row, (snapshot_eq_some.mp stepped.before).1, stepped.step.incomplete⟩
  · have kept := congrArg Prod.fst (stepped.touched.others other same)
    exact ⟨row, by rw [← stored]; exact kept.symm, isOpen⟩

/-- A step leaves the complete outboxes alone. -/
theorem Stepped.complete {action : Action} {id other : Digest} {before after : Store}
    {current next : Snapshot} (stepped : Stepped action id before after current next)
    {row : OutboxRow} (stored : outboxRow other before = some row)
    (complete : row.state = .complete) : outboxRow other after = some row := by
  by_cases same : other = id
  · subst same
    have read := (snapshot_eq_some.mp stepped.before).1
    rw [stored, Option.some.injEq] at read
    subst read
    exact absurd complete stepped.step.incomplete
  · rw [← stored]
    exact congrArg Prod.fst (stepped.touched.others other same)

end Steps

section Capacity

variable [Sha256]

/-- A finalization is created only while the queue of its authority has room. -/
theorem finalize_room {record : FinalizationRecord} {store next : Store}
    {outcome : FinalizationOutcome} (done : finalize record store = .ok (outcome, next)) :
    next = store ∨ FinalizationCreated record store next ∧
      ∀ required, record.publication = some required →
        (queued store).length < required.queueCapacity := by
  simp only [finalize, bind_eq_ok] at done
  rcases done with ⟨durable, -, done⟩
  cases durable with
  | true =>
      simp only [if_true, pure_eq_ok, Prod.mk.injEq] at done
      exact .inl done.2.symm
  | false =>
      simp only [Bool.false_eq_true, if_false] at done
      refine .inr ⟨(createFinalization_spec done).2, ?_⟩
      simp only [createFinalization, bind_eq_ok, validateQueue, require_eq_ok] at done
      rcases done with ⟨_, -, _, -, _, -, _, -, _, room, -⟩
      intro required published
      rw [queued_length]
      simpa [published] using room

theorem queueCapacity_of_fromInputs {attestation : Attestation}
    {publication : PublicationAuthority} {now : UnixMilliseconds} {record : FinalizationRecord}
    (made : FinalizationRecord.fromInputs attestation publication now = some record)
    {required : RequiredPublication} (published : record.publication = some required) :
    required.queueCapacity = publication.queueCapacity := by
  simp only [FinalizationRecord.fromInputs, Option.bind_eq_bind, Option.bind_eq_some_iff,
    Option.guard_eq_some', Option.pure_def, Option.some.injEq] at made
  rcases made with ⟨-, -, -, -, publication', derived, rfl⟩
  subst published
  unfold requiredPublication at derived
  split at derived
  · simp only [Option.bind_eq_bind, Option.bind_eq_some_iff, Option.pure_def, Option.some.injEq,
      reduceCtorEq, and_false, exists_false] at derived
  · simp only [Option.bind_eq_bind, Option.bind_eq_some_iff, Option.guard_eq_some', Option.pure_def,
      Option.some.injEq] at derived
    rcases derived with ⟨retry, -, -, -, rfl⟩
    rfl

/-- The queue after a finalization fits, if it did before. -/
theorem queued_commitFinalization (host : Host) (disposition : Disposition)
    (attestation : Attestation) (publication : PublicationAuthority) (now : UnixMilliseconds)
    {store : Store} (fits : (queued store).length ≤ publication.queueCapacity) :
    (queued (commitFinalization host disposition attestation publication now store).2).length ≤
      publication.queueCapacity := by
  unfold commitFinalization
  split
  · exact fits
  · split
    · exact fits
    · split
      · exact fits
      · rename_i record made
        rcases transaction_store mapFinalizationError disposition (finalize record) store with
          same | ⟨outcome, next, done, same⟩
        · rw [same]
          exact fits
        · rw [same]
          rcases finalize_room done with rfl | ⟨created, room⟩
          · exact fits
          · have outbox : next.outbox.rows = store.outbox.rows ++ outboxRows record :=
              created.inserted.outbox
            rw [queued_length] at fits ⊢
            rw [outbox, List.countP_append]
            cases published : record.publication with
            | none => simpa [outboxRows, published] using fits
            | some required =>
                have free := room required published
                rw [queueCapacity_of_fromInputs made published, queued_length] at free
                have single : (outboxRows record).countP (fun row => row.state != .complete) ≤
                    1 := by
                  refine List.countP_le_length.trans ?_
                  simp [outboxRows, published]
                omega

theorem reconcileFinalization_ne_queueFull (record : FinalizationRecord) (store : Store) :
    reconcileFinalization record store ≠ .error .queueFull := by
  intro failed
  unfold reconcileFinalization at failed
  split at failed
  · cases failed
  · split at failed
    · simp only [bind_eq_error, require_eq_error, validateSourceInventory, validateSupersession,
        pure_ne_error, reduceCtorEq, and_false, exists_false, or_false] at failed
    · cases failed

theorem validateFinalizationIdentity_ne_queueFull (lease : Lease) (now : UnixMilliseconds)
    (store : Store) : validateFinalizationIdentity lease now store ≠ .error .queueFull := by
  intro failed
  simp only [validateFinalizationIdentity, validateExactLease, bind_eq_error, require_eq_error,
    reduceCtorEq, and_false, exists_false, or_false, false_or] at failed
  rcases failed with ⟨-, -, failed⟩
  cases read : readJob store lease.job.id with
  | error failure => simp [read, Except.mapError] at failed
  | ok job => simp [read, Except.mapError] at failed

/-- A refusal for lack of room finds the lease current. -/
theorem current_of_queueFull {record : FinalizationRecord} {store : Store}
    (failed : finalize record store = .error .queueFull) :
    record.attestation.lease.Current store := by
  simp only [finalize, bind_eq_error] at failed
  rcases failed with failed | ⟨durable, -, failed⟩
  · exact absurd failed (reconcileFinalization_ne_queueFull record store)
  · cases durable with
    | true => exact absurd failed pure_ne_error
    | false =>
        simp only [Bool.false_eq_true, if_false, createFinalization] at failed
        rcases bind_eq_error.mp failed with failed | ⟨_, valid, -⟩
        · exact absurd failed (validateFinalizationIdentity_ne_queueFull _ _ store)
        · simp only [validateFinalizationIdentity, bind_eq_ok] at valid
          rcases valid with ⟨_, -, _, exact, -⟩
          exact validateExactLease_spec exact

/-- A refusal for lack of room leaves the store alone, with the job leased. -/
theorem commitFinalization_queueFull {host : Host} {disposition : Disposition}
    {attestation : Attestation} {publication : PublicationAuthority} {now : UnixMilliseconds}
    {store : Store}
    (refused : (commitFinalization host disposition attestation publication now store).1 =
      .error .publicationQueueFull) :
    (commitFinalization host disposition attestation publication now store).2 = store ∧
      attestation.lease.Current store := by
  unfold commitFinalization at refused ⊢
  split at refused
  · cases refused
  · rename_i writable
    rw [if_neg writable]
    split at refused
    · cases refused
    · rename_i configured
      rw [if_neg configured]
      split at refused
      · cases refused
      · rename_i record made
        refine ⟨transaction_store_of_error refused (by simp [mapFinalizationError]), ?_⟩
        have same : record.attestation = attestation := by
          simp only [FinalizationRecord.fromInputs, Option.bind_eq_bind, Option.bind_eq_some_iff,
            Option.pure_def, Option.some.injEq] at made
          rcases made with ⟨-, -, -, -, publication', -, rfl⟩
          rfl
        rw [← same]
        rcases transaction_error refused with aborted | unknown | ⟨failure, failed, reported⟩
        · cases aborted
        · cases unknown
        · cases failure with
          | queueFull => exact current_of_queueFull failed
          | leaseLost => cases reported
          | generationConflict => cases reported
          | attemptUnavailable => cases reported
          | conflict => cases reported
          | storage => cases reported

end Capacity

section Runs

variable [Sha256] [TradeEvidence]

omit [TradeEvidence] in
/-- The move commits finalizations under one authority only. -/
def Move.Under (authorized : Authorized) (move : Move) : Prop :=
  match move with
  | .finalize _ _ used _ => used.authority = authorized.authority
  | _ => True

omit [TradeEvidence] in
theorem queued_run {authorized : Authorized} (move : Move) (host : Host) (service : Service)
    (under : move.Under authorized) (orderly : Orderly service.store)
    (fits : (queued service.store).length ≤ authorized.authority.queueCapacity) :
    (queued (move.run host service.store)).length ≤ authorized.authority.queueCapacity := by
  cases isOther : move.finalizes with
  | false =>
      rcases @step_of_run _ move isOther host service orderly.referenced orderly.sound with
        same | ⟨action, id, current, next, stepped, -⟩
      · rw [same]
        exact fits
      · exact (queued_length_le stepped.queued_subset).trans fits
  | true =>
      cases move with
      | finalize disposition signed used now =>
          have same : used.authority = authorized.authority := under
          simp only [Move.run, same]
          exact queued_commitFinalization host disposition signed.attestation _ now fits
      | service => cases isOther
      | claim => cases isOther
      | prepare => cases isOther
      | record => cases isOther
      | recover => cases isOther
      | retry => cases isOther

theorem queued_apply {authorized : Authorized} (move : Move) (service : Service)
    (under : move.Under authorized) (orderly : Orderly service.store)
    (fits : (queued service.store).length ≤ authorized.authority.queueCapacity) :
    (queued (move.apply service).store).length ≤ authorized.authority.queueCapacity := by
  unfold Move.apply
  split
  · rename_i call other
    have same := (tables_of_service call other service).1
    rw [queued_length] at fits ⊢
    rw [same]
    exact fits
  · exact fits
  · exact queued_run _ _ service under orderly fits

/-- No move touches a complete outbox. -/
theorem complete_apply (move : Move) (service : Service) (orderly : Orderly service.store)
    {id : Digest} {row : OutboxRow} (stored : outboxRow id service.store = some row)
    (complete : row.state = .complete) : outboxRow id (move.apply service).store = some row := by
  have advance := advance_of_apply move orderly.referenced orderly.sound
  generalize (move.apply service).store = after at advance ⊢
  cases advance with
  | kept same events =>
      rw [← stored]
      exact congrArg Prod.fst (same id)
  | @opened required signed now opens absent made others event events =>
      have different : id ≠ required.outboxId := by
        rintro rfl
        rw [absent] at stored
        cases stored
      rw [← stored]
      exact congrArg Prod.fst (others id different)
  | stepped stepped takes => exact stepped.complete stored complete

/-- What the queue of one authority keeps to. -/
structure QueueBounded (authorized : Authorized) : Prop where
  bounded : ∀ moves : List Move, (∀ move ∈ moves, move.Under authorized) →
    ((exec moves .initial).store.outbox.rows.countP fun row => row.state != .complete) ≤
      authorized.authority.queueCapacity
  terminal : ∀ moves later : List Move, ∀ row ∈ (exec moves .initial).store.outbox.rows,
    row.state = .complete → row ∈ (exec (moves ++ later) .initial).store.outbox.rows
  refused : ∀ (moves : List Move) (host : Host) (disposition : Disposition)
    (attestation : Attestation) (now : UnixMilliseconds),
    (commitFinalization host disposition attestation authorized.authority now
      (exec moves .initial).store).1 = .error .publicationQueueFull →
    (commitFinalization host disposition attestation authorized.authority now
        (exec moves .initial).store).2 = (exec moves .initial).store ∧
      attestation.lease.Current (exec moves .initial).store

/-- The queue of a publication authority never holds more outboxes than its capacity, keeps what is
complete, and refuses a finalization without a trace. -/
theorem publication_queue_bounded (authorized : Authorized) : QueueBounded authorized where
  bounded moves under := by
    rw [← queued_length]
    have kept := @Transition.Along.invariant _ _ _ _
      (fun service : Service => Orderly service.store ∧
        (queued service.store).length ≤ authorized.authority.queueCapacity)
      (fun move service under kept => ⟨orderly_apply move service kept.1,
        queued_apply move service under kept.1 kept.2⟩) moves .initial
      (Transition.Along.of_forall_mem under) ⟨orderly_initial, Nat.zero_le _⟩
    exact kept.2
  terminal moves later row rowMem complete := by
    have kept := Transition.exec_invariant
      (fun service : Service => Orderly service.store ∧
        outboxRow row.outboxId service.store = some row)
      (fun move service kept => ⟨orderly_apply move service kept.1,
        complete_apply move service kept.1 kept.2 complete⟩) later
      ⟨orderly_exec moves, outboxRow_of_mem rowMem⟩
    rw [exec, Transition.exec_append]
    exact (outboxRow_spec kept.2).1
  refused _ _ _ _ _ refused := commitFinalization_queueFull refused

end Runs

end Publication

end Rhi
