import Rhi.Publication.Publishers

/-!
# The log of attempts

Whatever the executors, the operator and the clocks do: the attempts at a target are logged without
a gap and without a repetition, each by the one transaction that found its outcome, and every
attempt of an outbox submits the bytes the outbox was committed with.
-/

namespace Rhi

open Relational Transactional

namespace Publication

section Bytes

/-- The signed event an outbox was committed with. -/
def committedBytes (id : Digest) (store : Store) : Option (List UInt8) := do
  let row ← outboxRow id store
  let event ← store.signedEvents.rows.find? fun event => event.eventId == row.eventId
  pure event.canonicalEventJson

theorem committedBytes_eq_some {id : Digest} {store : Store} {bytes : List UInt8} :
    committedBytes id store = some bytes ↔ ∃ row event, outboxRow id store = some row ∧
      event ∈ store.signedEvents.rows ∧ event.eventId = row.eventId ∧
      event.canonicalEventJson = bytes := by
  simp only [committedBytes, Option.bind_eq_bind, Option.bind_eq_some_iff, Option.pure_def,
    Option.some.injEq]
  constructor
  · rintro ⟨row, stored, event, found, same⟩
    exact ⟨row, event, stored, List.mem_of_find?_eq_some found,
      by simpa using List.find?_some found, same⟩
  · rintro ⟨row, event, stored, eventMem, identity, same⟩
    refine ⟨row, stored, event, ?_, same⟩
    cases search : store.signedEvents.rows.find? (fun other => other.eventId == row.eventId) with
    | none =>
        have missed := List.find?_eq_none.mp search event eventMem
        simp [identity] at missed
    | some other =>
        have sameId : other.eventId = row.eventId := by simpa using List.find?_some search
        rw [Table.eq_of_clash signedAttestationEvents_clash_comm
          (List.mem_of_find?_eq_some search) eventMem
          (by simp [signedAttestationEvents, sameId, identity])]

variable [Sha256]

theorem bytes_of_readCommitted {id : Digest} {store : Store} {publication : CommittedPublication}
    (read : readCommitted id store = .ok publication) :
    committedBytes id store = some publication.signedEvent := by
  simp only [readCommitted, bind_eq_ok, orError_eq_ok, require_eq_ok, pure_eq_ok] at read
  rcases read with ⟨row, stored, event, found, -, -, rfl⟩
  exact committedBytes_eq_some.mpr ⟨row, event, stored, List.mem_of_find?_eq_some found,
    by simpa using List.find?_some found, rfl⟩

/-- How the outboxes may look after a move. -/
theorem follows_of_advance {move : Move} {service : Service} {after : Store} {id : Digest}
    {current : Snapshot} (advance : Advance move service after)
    (read : snapshot id service.store = some current) :
    ∃ next, snapshot id after = some next ∧ current.Follows next := by
  cases advance with
  | kept same events =>
      rw [← snapshot_congr (same id)] at read
      exact ⟨current, read, .refl current⟩
  | @opened required signed now opens absent made others event events =>
      have different : id ≠ required.outboxId := by
        rintro rfl
        rw [(snapshot_eq_some.mp read).1] at absent
        cases absent
      rw [← snapshot_congr (others id different)] at read
      exact ⟨current, read, .refl current⟩
  | @stepped action touched old next stepped takes =>
      by_cases same : id = touched
      · rw [same, stepped.before] at read
        cases read
        rw [same]
        exact ⟨next, stepped.after, stepped.step.follows⟩
      · rw [← snapshot_congr (stepped.touched.others id same)] at read
        exact ⟨current, read, .refl current⟩

theorem events_of_advance {move : Move} {service : Service} {after : Store}
    (advance : Advance move service after) :
    service.store.signedEvents.rows ⊆ after.signedEvents.rows := by
  cases advance with
  | kept same events => exact events
  | opened opens absent made others event events => exact events
  | stepped stepped takes =>
      rw [stepped.touched.only]
      exact List.Subset.refl _

/-- The bytes of an outbox never change. -/
theorem bytes_of_advance {move : Move} {service : Service} {after : Store} {id : Digest}
    {bytes : List UInt8} (advance : Advance move service after)
    (committed : committedBytes id service.store = some bytes) :
    committedBytes id after = some bytes := by
  rcases committedBytes_eq_some.mp committed with ⟨row, event, stored, eventMem, identity, same⟩
  rcases follows_of_advance advance (snapshot_eq_some.mpr ⟨stored, rfl, rfl⟩ :
      snapshot id service.store = some ⟨row, _, _⟩) with ⟨next, read, follows⟩
  exact committedBytes_eq_some.mpr ⟨next.row, event, (snapshot_eq_some.mp read).1,
    events_of_advance advance eventMem, identity.trans follows.identity.2.1.symm, same⟩

end Bytes

section Writers

variable [Sha256] [TradeEvidence]

/-- The moves that write the outcome of an attempt: its executor records it, or some executor
recovers its expired lease. -/
def PublishersMove.Concludes (state : Publishers) (row : DeliveryRow) : PublishersMove → Prop
  | .executor index (.record ..) => ∃ prepared, state.executors index = .submitting prepared ∧
      row.attemptId = prepared.attemptId ∧ row.outboxId = prepared.lease.outbox.id
  | .executor index (.recover ..) => ∃ now authorized candidate,
      state.executors index = .recovering now authorized candidate ∧
      row.outboxId = candidate.outbox.id ∧ row.outcome = .unknown
  | _ => False

omit [Sha256] [TradeEvidence] in
theorem Snapshot.Recovers.added {now : Nat} {submitted : List TargetRow} {current last : Snapshot}
    {row : DeliveryRow} (recovers : Recovers now submitted current last)
    (rowMem : row ∈ last.deliveries) : row ∈ current.deliveries ∨ row.outcome = .unknown := by
  induction recovers with
  | nil current => exact .inl rowMem
  | cons same outcome finished settles others ih =>
      rcases ih rowMem with stored | unknown
      · rcases List.mem_append.mp stored with before | added
        · exact .inl before
        · simp only [List.mem_singleton] at added
          rw [added]
          exact .inr outcome
      · exact .inr unknown

omit [TradeEvidence] in
theorem Snapshot.Step.added {current next : Snapshot} {row : DeliveryRow}
    (step : Step .recover current next) (rowMem : row ∈ next.deliveries) :
    row ∈ current.deliveries ∨ row.outcome = .unknown := by
  cases step with
  | recover leased forward recovers decides => exact recovers.added rowMem

/-- The calls that write outcomes. -/
def Move.writes : Move → Bool
  | .record .. | .recover .. => true
  | _ => false

omit [TradeEvidence] in
theorem deliveries_of_advance {move : Move} {service : Service} {after : Store}
    (referenced : Referenced service.store) (advance : Advance move service after)
    (silent : move.writes = false) (id : Digest) :
    deliveriesOf id after = deliveriesOf id service.store := by
  cases advance with
  | kept same events => exact congrArg (·.2.2) (same id)
  | @opened required signed now opens absent made others event events =>
      by_cases same : id = required.outboxId
      · rw [same, (snapshot_eq_some.mp made).2.2, (referenced _ absent).2]
        rfl
      · exact congrArg (·.2.2) (others id same)
  | @stepped action touched current next stepped takes =>
      by_cases same : id = touched
      · rw [same, (snapshot_eq_some.mp stepped.after).2.2,
          (snapshot_eq_some.mp stepped.before).2.2]
        refine stepped.step.log ⟨?_, ?_⟩
        · rintro rfl
          cases move <;> simp_all [Move.Takes, Move.writes]
        · rintro rfl
          cases move <;> simp_all [Move.Takes, Move.writes]
      · exact congrArg (·.2.2) (stepped.touched.others id same)

omit [TradeEvidence] in
theorem row_of_record {host : Host} {disposition : Disposition} {prepared : PreparedAttempt}
    {finishedAt : UnixMilliseconds} {outcome : AttemptOutcome} {delay : Nat} {store : Store}
    {id : Digest} {row : DeliveryRow} (orderly : Orderly store)
    (added : row ∈ deliveriesOf id
      ((Move.record disposition prepared finishedAt outcome delay).run host store))
    (fresh : row ∉ deliveriesOf id store) :
    row.attemptId = prepared.attemptId ∧ row.outboxId = prepared.lease.outbox.id := by
  simp only [Move.run, recordPublicationOutcome] at added
  split at added
  · exact absurd added fresh
  · split at added
    · exact absurd added fresh
    · rename_i input isInput
      have sameLease : input.lease = prepared.lease ∧ input.attemptId = prepared.attemptId := by
        simp only [RecordInput.fromPrepared, bind_eq_ok, require_eq_ok, pure_eq_ok] at isInput
        rcases isInput with ⟨-, -, -, -, -, -, rfl⟩
        exact ⟨rfl, rfl⟩
      rcases transaction_store mapPublicationError disposition (recordOutcome input) store with
        same | ⟨commit, next, done, same⟩
      · rw [same] at added
        exact absurd added fresh
      · rw [same] at added
        rcases recordOutcome_spec done (sorted_of_every orderly.referenced orderly.sound) with
          ⟨rfl, -⟩ | ⟨current, state, schedule, old, decided, -, -, -, stepped⟩
        · exact absurd added fresh
        · by_cases sameId : id = input.lease.outbox.id
          · rw [sameId, (snapshot_eq_some.mp stepped.after).2.2] at added
            rw [sameId, (snapshot_eq_some.mp stepped.before).2.2] at fresh
            rcases List.mem_append.mp added with stored | isNew
            · exact absurd stored fresh
            · simp only [List.mem_singleton] at isNew
              rw [isNew, ← sameLease.1, ← sameLease.2]
              exact ⟨rfl, rfl⟩
          · rw [show deliveriesOf id next = deliveriesOf id store from
              congrArg (·.2.2) (stepped.touched.others id sameId)] at added
            exact absurd added fresh

omit [TradeEvidence] in
theorem row_of_recover {host : Host} {disposition : Disposition} {candidate : RecoveryCandidate}
    {now : UnixMilliseconds} {delay : Nat} {store : Store} {id : Digest} {row : DeliveryRow}
    (orderly : Orderly store)
    (added : row ∈ deliveriesOf id ((Move.recover disposition candidate now delay).run host store))
    (fresh : row ∉ deliveriesOf id store) :
    row.outboxId = candidate.outbox.id ∧ row.outcome = .unknown := by
  have isRow : row.outboxId = id := by simpa using (List.mem_filter.mp added).2
  simp only [Move.run] at added
  split at added
  · rcases transaction_store mapPublicationError disposition
      (recoverExpired candidate now delay) store with same | ⟨done, next, recovered, same⟩
    · rw [recoverExpiredPublication, same] at added
      exact absurd added fresh
    · rw [recoverExpiredPublication, same] at added
      rcases recoverExpired_spec recovered (sorted_of_every orderly.referenced orderly.sound) with
        ⟨current, last, decided, expires, -, -, stepped⟩
      by_cases sameId : id = candidate.outbox.id
      · refine ⟨isRow.trans sameId, ?_⟩
        rw [sameId, (snapshot_eq_some.mp stepped.after).2.2] at added
        rw [sameId, (snapshot_eq_some.mp stepped.before).2.2] at fresh
        rcases stepped.step.added added with stored | unknown
        · exact absurd stored fresh
        · exact unknown
      · rw [show deliveriesOf id next = deliveriesOf id store from
          congrArg (·.2.2) (stepped.touched.others id sameId)] at added
        exact absurd added fresh
  · exact absurd added fresh

/-- A row that a move adds to the log is the outcome the move concludes. -/
theorem concludes_of_added {state : Publishers} {move : PublishersMove} {id : Digest}
    {row : DeliveryRow} (orderly : Orderly state.service.store)
    (added : row ∈ deliveriesOf id (state.apply move).service.store)
    (fresh : row ∉ deliveriesOf id state.service.store) : move.Concludes state row := by
  rw [service_apply] at added
  cases isCall : move.call state with
  | none =>
      rw [isCall] at added
      exact absurd added fresh
  | some call =>
      rw [isCall] at added
      simp only [Option.elim_some] at added
      cases writes : call.writes with
      | false =>
          have advance := advance_of_apply call orderly.referenced orderly.sound
          rw [deliveries_of_advance orderly.referenced advance writes id] at added
          exact absurd added fresh
      | true =>
          cases move with
          | crash index => cases isCall
          | other move external =>
              cases isCall
              cases call <;> cases writes <;> cases external
          | executor index move =>
              simp only [PublishersMove.call] at isCall
              split at isCall
              · rename_i isWritable
                cases isHost : state.service.host with
                | none => simp [isHost] at isWritable
                | some host =>
                    rw [run_of_call isHost (Executor.call_spec isCall)] at added
                    cases isExecutor : state.executors index with
                    | idle =>
                        rw [isExecutor] at isCall
                        cases move <;> cases isCall
                    | ready now authorized =>
                        rw [isExecutor] at isCall
                        cases move <;> cases isCall
                        cases writes
                    | claimed now lease =>
                        rw [isExecutor] at isCall
                        cases move <;> cases isCall
                        cases writes
                    | recovering now authorized candidate =>
                        rw [isExecutor] at isCall
                        cases move <;> cases isCall
                        exact ⟨now, authorized, candidate, isExecutor,
                          row_of_recover orderly added fresh⟩
                    | submitting prepared =>
                        rw [isExecutor] at isCall
                        cases move <;> cases isCall
                        exact ⟨prepared, isExecutor, row_of_record orderly added fresh⟩
              · cases isCall

end Writers

section Exactness

variable [Sha256] [TradeEvidence]

/-- What a call advances, the move that makes it advances. -/
theorem advance_of_publishers (move : PublishersMove) {state : Publishers}
    (orderly : Orderly state.service.store) :
    ∃ call, Advance call state.service (state.apply move).service.store := by
  rw [service_apply]
  cases isCall : move.call state with
  | none => exact ⟨.service .close rfl, advance_refl _ _⟩
  | some call => exact ⟨call, advance_of_apply call orderly.referenced orderly.sound⟩

theorem follows_exec {state : Publishers} {id : Digest} {current : Snapshot}
    (moves : List PublishersMove) (disciplined : Disciplined state)
    (read : snapshot id state.service.store = some current) :
    ∃ later, snapshot id (state.exec moves).service.store = some later ∧ current.Follows later := by
  induction moves generalizing state current with
  | nil => exact ⟨current, read, .refl current⟩
  | cons move moves ih =>
      rcases advance_of_publishers move disciplined.orderly with ⟨call, advance⟩
      rcases follows_of_advance advance read with ⟨next, isNext, follows⟩
      rcases ih (disciplined_apply move state disciplined) isNext with ⟨later, isLater, further⟩
      exact ⟨later, isLater, follows.trans further⟩

theorem bytes_exec {state : Publishers} {id : Digest} {bytes : List UInt8}
    (moves : List PublishersMove) (disciplined : Disciplined state)
    (committed : committedBytes id state.service.store = some bytes) :
    committedBytes id (state.exec moves).service.store = some bytes := by
  induction moves generalizing state with
  | nil => exact committed
  | cons move moves ih =>
      rcases advance_of_publishers move disciplined.orderly with ⟨call, advance⟩
      exact ih (disciplined_apply move state disciplined) (bytes_of_advance advance committed)

theorem mem_deliveries_exec {state : Publishers} {id : Digest} {row : DeliveryRow}
    (moves : List PublishersMove) (disciplined : Disciplined state)
    (rowMem : row ∈ deliveriesOf id state.service.store) :
    row ∈ deliveriesOf id (state.exec moves).service.store := by
  cases stored : outboxRow id state.service.store with
  | none =>
      rw [(disciplined.orderly.referenced id stored).2] at rowMem
      cases rowMem
  | some outbox =>
      have read : snapshot id state.service.store = some ⟨outbox, targetsOf id state.service.store,
          deliveriesOf id state.service.store⟩ := snapshot_eq_some.mpr ⟨stored, rfl, rfl⟩
      rcases follows_exec moves disciplined read with ⟨later, isLater, follows⟩
      rw [(snapshot_eq_some.mp isLater).2.2]
      exact follows.log.subset rowMem

omit [TradeEvidence] in
/-- An executor comes to submit an attempt by preparing it, or submits it already. -/
theorem step_submitting {move : ExecutorMove} {executor : Executor} {store : Store}
    {prepared : PreparedAttempt}
    (isSubmitting : (executor.step .readWriteExisting move store).1 = .submitting prepared) :
    (executor = .submitting prepared ∧ executor.call move = none) ∨
      ∃ now lease disposition, executor = .claimed now lease ∧ move = .prepare disposition ∧
        (prepareNextPublicationTarget .readWriteExisting disposition lease now store).1 =
          .ok prepared := by
  cases executor with
  | idle =>
      cases move with
      | begin disposition started authorized =>
          simp only [Executor.step] at isSubmitting
          split at isSubmitting <;> cases isSubmitting
      | _ => cases isSubmitting
  | recovering started authorized candidate =>
      cases move with
      | recover disposition sample =>
          simp only [Executor.step] at isSubmitting
          split at isSubmitting <;> cases isSubmitting
      | _ => cases isSubmitting
  | ready started authorized =>
      cases move with
      | claim disposition owner =>
          simp only [Executor.step] at isSubmitting
          split at isSubmitting <;> cases isSubmitting
      | _ => cases isSubmitting
  | claimed started held =>
      cases move with
      | prepare disposition =>
          simp only [Executor.step] at isSubmitting
          split at isSubmitting
          · rename_i returned
            cases isSubmitting
            exact .inr ⟨started, held, disposition, rfl, rfl, by rw [returned]⟩
          · cases isSubmitting
      | _ => cases isSubmitting
  | submitting attempt =>
      cases move with
      | record => cases isSubmitting
      | _ => exact .inl ⟨isSubmitting, rfl⟩

omit [TradeEvidence] in
theorem prepareNext_of_prepared {disposition : Disposition} {lease : PublicationLease}
    {now : UnixMilliseconds} {store : Store} {prepared : PreparedAttempt}
    (returned : (prepareNextPublicationTarget .readWriteExisting disposition lease now store).1 =
      .ok prepared) :
    prepareNext lease now store = .ok (prepared,
      (prepareNextPublicationTarget .readWriteExisting disposition lease now store).2) := by
  simp only [prepareNextPublicationTarget, ne_eq, not_true_eq_false, if_false] at returned ⊢
  exact transaction_ok returned

/-- Who submits an attempt after a move has prepared it in that move, or submitted it before. -/
theorem submitting_of_apply {move : PublishersMove} {state : Publishers} {index : Nat}
    {prepared : PreparedAttempt}
    (isSubmitting : (state.apply move).executors index = .submitting prepared) :
    state.executors index = .submitting prepared ∨
      ∃ now lease, state.executors index = .claimed now lease ∧
        prepareNext lease now state.service.store =
          .ok (prepared, (state.apply move).service.store) := by
  cases move with
  | crash crashed =>
      by_cases same : index = crashed
      · subst same
        simp only [Publishers.apply, Function.update_self] at isSubmitting
        cases isSubmitting
      · simp only [Publishers.apply, Function.update_of_ne same] at isSubmitting
        exact .inl isSubmitting
  | other move external => exact .inl isSubmitting
  | executor moved move =>
      rcases executor_cases moved move state with ⟨binding, isOpen, applied⟩ | still
      · rw [applied] at isSubmitting ⊢
        dsimp only at isSubmitting ⊢
        by_cases same : index = moved
        · subst same
          rw [Function.update_self] at isSubmitting
          rcases step_submitting isSubmitting with
            ⟨already, -⟩ | ⟨now, lease, disposition, isClaimed, rfl, returned⟩
          · exact .inl already
          · have written := step_store (.prepare disposition) (.claimed now lease) binding
              state.service.store
            rw [isClaimed, written]
            exact .inr ⟨now, lease, rfl, prepareNext_of_prepared returned⟩
        · rw [Function.update_of_ne same] at isSubmitting
          exact .inl isSubmitting
      · rw [still] at isSubmitting
        exact .inl isSubmitting

/-- Every executor submits the bytes its outbox was committed with. -/
def Exposed (state : Publishers) : Prop :=
  ∀ index prepared, state.executors index = .submitting prepared →
    committedBytes prepared.lease.outbox.id state.service.store =
      some prepared.publication.signedEvent

theorem exposed_apply (move : PublishersMove) (state : Publishers) (disciplined : Disciplined state)
    (exposed : Exposed state) : Exposed (state.apply move) := by
  intro index prepared isSubmitting
  rcases submitting_of_apply isSubmitting with already | ⟨now, lease, -, done⟩
  · rcases advance_of_publishers move disciplined.orderly with ⟨call, advance⟩
    exact bytes_of_advance advance (exposed index prepared already)
  · rcases prepareNext_spec done with ⟨current, old, -, -, sameLease, -, -, -, -, read⟩
    rw [sameLease]
    exact bytes_of_readCommitted read

theorem exposed_exec (moves : List PublishersMove) :
    Exposed (Publishers.exec moves .initial) := by
  have kept := Transition.exec_invariant
    (fun state : Publishers => Disciplined state ∧ Exposed state)
    (fun move state kept => ⟨disciplined_apply move state kept.1,
      exposed_apply move state kept.1 kept.2⟩) moves
    ⟨disciplined_exec [], fun index prepared isSubmitting => by cases isSubmitting⟩
  exact kept.2

/-- A row of the log appears at one move of the run, which concludes its attempt, and stays. -/
theorem written_once {moves : List PublishersMove} {id : Digest} {row : DeliveryRow}
    (rowMem : row ∈ deliveriesOf id (Publishers.exec moves .initial).service.store) :
    ∃ before move after, moves = before ++ move :: after ∧
      move.Concludes (Publishers.exec before .initial) row ∧
      (∀ earlier, earlier <+: before →
        row ∉ deliveriesOf id (Publishers.exec earlier .initial).service.store) ∧
      ∀ later, later <+: after →
        row ∈ deliveriesOf id
        (Publishers.exec (before ++ move :: later) .initial).service.store := by
  rcases Transition.exec_appears
    (fun state : Publishers => row ∈ deliveriesOf id state.service.store) moves
    (by rintro ⟨⟩) rowMem with ⟨before, move, after, rfl, absent, present⟩
  have disciplined := disciplined_exec before
  refine ⟨before, move, after, rfl, concludes_of_added disciplined.orderly present absent, ?_, ?_⟩
  · rintro earlier ⟨rest, rfl⟩ early
    have still := mem_deliveries_exec rest (disciplined_exec earlier) early
    rw [Publishers.exec, Publishers.exec, ← Transition.exec_append] at still
    exact absent still
  · intro later _
    have still := mem_deliveries_exec later (disciplined_apply move _ disciplined) present
    rw [Publishers.exec, Transition.exec_append]
    exact still

/-- The log of attempts is exact.  In every run of the executors and the operator the attempts at a
target are numbered without a gap up to its count, which is never exceeded by an attempt and never
falls; an accepted target stays as it is; every logged outcome was written by one move, the record
of its executor or the recovery of its lease; and every attempt prepared for an outbox exposes the
bytes the outbox was committed with. -/
theorem attempts_logged_exactly (moves : List PublishersMove) :
    (∀ id current, snapshot id (Publishers.exec moves .initial).service.store = some current →
      ∀ target ∈ current.targets,
        current.recorded target.targetOrdinal = List.range' 1 (Snapshot.concluded target) ∧
          target.attemptCount ≤ current.row.maxAttempts) ∧
    (∀ before after, moves = before ++ after → ∀ id old,
      snapshot id (Publishers.exec before .initial).service.store = some old →
      ∃ current, snapshot id (Publishers.exec moves .initial).service.store = some current ∧
        old.Follows current) ∧
    (∀ id row, row ∈ deliveriesOf id (Publishers.exec moves .initial).service.store →
      ∃ before move after, moves = before ++ move :: after ∧
        move.Concludes (Publishers.exec before .initial) row ∧
        (∀ earlier, earlier <+: before →
          row ∉ deliveriesOf id (Publishers.exec earlier .initial).service.store) ∧
        ∀ later, later <+: after → row ∈ deliveriesOf id
          (Publishers.exec (before ++ move :: later) .initial).service.store) ∧
    (∀ before after, moves = before ++ after →
      (∀ id bytes, committedBytes id (Publishers.exec before .initial).service.store = some bytes →
        committedBytes id (Publishers.exec moves .initial).service.store = some bytes) ∧
      ∀ index prepared, (Publishers.exec before .initial).executors index = .submitting prepared →
        committedBytes prepared.lease.outbox.id (Publishers.exec moves .initial).service.store =
          some prepared.publication.signedEvent) := by
  refine ⟨?_, ?_, fun id row => written_once, ?_⟩
  · intro id current read target targetMem
    have isExact := (disciplined_exec moves).exact_ id current read
    exact ⟨isExact.logged target targetMem,
      isExact.coherent.attended.tracked.counted target targetMem⟩
  · rintro before after rfl id old read
    rcases follows_exec after (disciplined_exec before) read with ⟨current, later, follows⟩
    refine ⟨current, ?_, follows⟩
    rw [Publishers.exec, Transition.exec_append]
    exact later
  · rintro before after rfl
    have stays : ∀ id bytes,
        committedBytes id (Publishers.exec before .initial).service.store = some bytes →
        committedBytes id (Publishers.exec (before ++ after) .initial).service.store =
          some bytes := by
      intro id bytes committed
      have later := bytes_exec after (disciplined_exec before) committed
      rw [Publishers.exec, Transition.exec_append]
      exact later
    refine ⟨stays, ?_⟩
    intro index prepared isSubmitting
    exact stays _ _ (exposed_exec before index prepared isSubmitting)

end Exactness

end Publication

end Rhi
