import Rhi.Service.Jobs

/-!
# Leases as fences

A lease value carries the revision of the row it was read from.  Every change of the row raises the
revision for good, so that a lease that missed a change passes none of the four checks again.
-/

namespace Rhi

open Relational Transactional

section Refusal

variable [Sha256]

/-- The row of a lease has moved on. -/
def Lease.Outdated (lease : Lease) (store : Store) : Prop :=
  ∃ row ∈ store.jobs.rows, row.jobId = lease.job.id ∧ lease.job.revision < row.revision

omit [Sha256] in
theorem Lease.Outdated.not_heldBy {lease : Lease} {store : Store} (outdated : lease.Outdated store)
    {row : JobRow} (rowMem : row ∈ store.jobs.rows) : row.heldBy lease = false := by
  rw [← Bool.not_eq_true]
  intro held
  simp only [JobRow.heldBy, Bool.and_eq_true, beq_iff_eq] at held
  rcases outdated with ⟨moved, movedMem, sameId, later⟩
  have same := eq_of_jobId_eq movedMem rowMem (sameId.trans held.1.1.1.1.symm)
  have revision := held.1.1.1.2
  rw [same] at later
  omega

theorem Lease.ReadFrom.revision {lease : Lease} {row : JobRow} (read : lease.ReadFrom row) :
    row.revision = lease.job.revision := by
  rw [← toRow_of_decodeJob read.decoded]
  rfl

theorem Lease.Outdated.not_current {lease : Lease} {store : Store}
    (outdated : lease.Outdated store) : ¬lease.Current store := by
  rintro ⟨row, rowMem, read⟩
  rcases outdated with ⟨moved, movedMem, sameId, later⟩
  have same := eq_of_jobId_eq movedMem rowMem (sameId.trans read.jobId.symm)
  have revision := read.revision
  rw [same] at later
  omega

variable [TradeEvidence]

/-- Every operation a lease authorizes is refused and leaves the store as it is. -/
structure Lease.Refused (lease : Lease) (store : Store) : Prop where
  renew : ∀ mode disposition now,
    ∃ error, renew mode disposition lease now store = (.error error, store)
  recordFailure : ∀ mode disposition now delay,
    ∃ error, recordFailure mode disposition lease now delay store = (.error error, store)
  commitSourceReplays : ∀ mode disposition plan replays,
    (∀ row ∈ store.attempts.rows, row.attemptId ≠ plan.id) →
      ∃ error, commitSourceReplays mode disposition lease plan replays store = (.error error, store)
  commitFinalization : ∀ host disposition attestation publication now,
    attestation.lease = lease →
      (∀ row ∈ store.manifests.rows, row.attemptId ≠ attestation.attemptId) →
        ∃ error, commitFinalization host disposition attestation publication now store =
          (.error error, store)

omit [TradeEvidence] in
theorem Lease.Outdated.renew_refused {lease : Lease} {store : Store}
    (outdated : lease.Outdated store) (mode : HostMode) (disposition : Disposition)
    (now : UnixMilliseconds) :
    ∃ error, renew mode disposition lease now store = (.error error, store) := by
  unfold renew
  split
  · exact ⟨_, rfl⟩
  · split
    · exact ⟨_, rfl⟩
    · split
      · exact ⟨_, rfl⟩
      · apply transaction_refused
        intro renewed next done
        rcases (renewLease_spec done).2.2.1 with ⟨row, rowMem, held⟩
        rw [outdated.not_heldBy rowMem] at held
        cases held

omit [TradeEvidence] in
theorem Lease.Outdated.recordFailure_refused {lease : Lease} {store : Store}
    (outdated : lease.Outdated store) (mode : HostMode) (disposition : Disposition)
    (now : UnixMilliseconds) (delay : RetryDelay) :
    ∃ error, recordFailure mode disposition lease now delay store = (.error error, store) := by
  unfold recordFailure
  split
  · exact ⟨_, rfl⟩
  · split
    · exact ⟨_, rfl⟩
    · split
      · exact ⟨_, rfl⟩
      · apply transaction_refused
        intro job next done
        rcases (recordFailureJob_spec done).2.2 with ⟨row, rowMem, held⟩
        rw [outdated.not_heldBy rowMem] at held
        cases held

theorem Lease.Outdated.commit_refused {lease : Lease} {store : Store}
    (outdated : lease.Outdated store) (mode : HostMode) (disposition : Disposition)
    {plan : AttemptPlan} (replays : List SealedReplay)
    (absent : ∀ row ∈ store.attempts.rows, row.attemptId ≠ plan.id) :
    ∃ error, commitSourceReplays mode disposition lease plan replays store =
      (.error error, store) := by
  unfold commitSourceReplays
  simp only
  split
  · exact ⟨_, rfl⟩
  · split
    · rename_i admitted
      split
      · exact ⟨_, rfl⟩
      · have refused : ∃ error, transaction mapCommitError disposition
            (commitAttempt lease plan (replays.map (·.replay))) store = (.error error, store) := by
          apply transaction_refused
          intro outcome next done
          rcases commitAttempt_spec (trade_of_admitsReplays admitted) done with
            ⟨-, -, row, rowMem, same⟩ | ⟨-, created⟩
          · exact absent row rowMem same
          · exact outdated.not_current created.current
        rcases refused with ⟨error, failed⟩
        simp only [failed]
        exact ⟨error, rfl⟩
    · exact ⟨_, rfl⟩

omit [TradeEvidence] in
theorem Lease.Outdated.finalization_refused {store : Store} (host : Host)
    (disposition : Disposition) {attestation : Attestation} (publication : PublicationAuthority)
    (now : UnixMilliseconds) (outdated : attestation.lease.Outdated store)
    (absent : ∀ row ∈ store.manifests.rows, row.attemptId ≠ attestation.attemptId) :
    ∃ error, commitFinalization host disposition attestation publication now store =
      (.error error, store) := by
  unfold commitFinalization
  split
  · exact ⟨_, rfl⟩
  · split
    · exact ⟨_, rfl⟩
    · split
      · exact ⟨_, rfl⟩
      · rename_i record made
        have sameAttestation : record.attestation = attestation := by
          simp only [FinalizationRecord.fromInputs, Option.bind_eq_bind, Option.bind_eq_some_iff,
            Option.pure_def, Option.some.injEq] at made
          rcases made with ⟨-, -, -, -, -, -, rfl⟩
          rfl
        apply transaction_refused
        intro outcome next done
        rcases finalize_spec done with ⟨-, -, durable⟩ | ⟨-, -, created⟩
        · unfold reconcileFinalization at durable
          split at durable
          · cases durable
          · split at durable
            · rename_i matched
              simp only [rowsMatch, Bool.and_eq_true, beq_iff_eq] at matched
              have present : record.attestation.manifestRow ∈ store.manifests.rows :=
                List.count_pos_iff.mp (by omega)
              rw [sameAttestation] at present
              exact absent _ present rfl
            · cases durable
        · have current := created.fenced.current
          rw [sameAttestation] at current
          exact outdated.not_current current

theorem Lease.Outdated.refused {lease : Lease} {store : Store} (outdated : lease.Outdated store) :
    lease.Refused store where
  renew mode disposition now := outdated.renew_refused mode disposition now
  recordFailure mode disposition now delay :=
    outdated.recordFailure_refused mode disposition now delay
  commitSourceReplays mode disposition _ replays absent :=
    outdated.commit_refused mode disposition replays absent
  commitFinalization host disposition attestation publication now same absent := by
    subst same
    exact outdated.finalization_refused host disposition publication now absent

end Refusal

section Runs

variable [Sha256] [TradeEvidence]

/-- A call that returned a lease. -/
inductive Issued (service : Service) (lease : Lease) : Call → Prop where
  | claimed {host : Host} {disposition : Disposition} {owner : LeaseOwner}
      {now : UnixMilliseconds} (opened : service.host = some host)
      (returned : (claimNextJob host.mode disposition owner now service.store).1 =
        .ok (some lease)) :
      Issued service lease (.operation (.claimNext disposition owner now))
  | renewed {host : Host} {disposition : Disposition} {old : Lease} {now : UnixMilliseconds}
      (opened : service.host = some host)
      (returned : (renew host.mode disposition old now service.store).1 = .ok lease) :
      Issued service lease (.operation (.renew disposition old now))

/-- The row of a job. -/
def jobRow (store : Store) (id : JobId) : Option JobRow :=
  store.jobs.rows.find? fun row => row.jobId == id

/-- An issued lease was read from the row its call left. -/
theorem current_of_issued {service : Service} {lease : Lease} {call : Call}
    (issued : Issued service lease call) : lease.Current (service.apply call).store := by
  cases issued with
  | claimed opened returned =>
      rename_i host disposition owner now
      simp only [Service.apply, opened, Operation.run]
      unfold claimNextJob at returned ⊢
      split at returned
      · cases returned
      · rename_i writable
        simp only [writable, if_false]
        exact (claimNext_spec (transaction_ok returned)).2.2 lease rfl
  | renewed opened returned =>
      rename_i host disposition old now
      simp only [Service.apply, opened, Operation.run]
      unfold renew at returned ⊢
      split at returned
      · cases returned
      · rename_i writable
        split at returned
        · cases returned
        · rename_i unexpired
          split at returned
          · cases returned
          · rename_i due
            simp only [writable, unexpired, due, if_false]
            exact (renewLease_spec (transaction_ok returned)).2.2.2

/-- A row is the same later, or has a higher revision. -/
theorem revision_exec (calls : List Call) (service : Service) {row : JobRow}
    (rowMem : row ∈ service.store.jobs.rows) :
    ∃ next ∈ (service.exec calls).store.jobs.rows, next.jobId = row.jobId ∧
      (next = row ∨ row.revision < next.revision) := by
  refine Transition.exec_invariant (fun state : Service => ∃ next ∈ state.store.jobs.rows,
    next.jobId = row.jobId ∧ (next = row ∨ row.revision < next.revision)) ?_ calls
    ⟨row, rowMem, rfl, .inl rfl⟩
  rintro call state ⟨current, currentMem, currentId, progress⟩
  rcases follows_apply call state currentMem with ⟨next, nextMem, follows, sameId⟩
  refine ⟨next, nextMem, sameId.trans currentId, ?_⟩
  rcases follows with same | ⟨-, -, raised, -⟩
  · rw [same]
    exact progress
  · rcases progress with rfl | higher
    · right
      omega
    · right
      omega

omit [Sha256] [TradeEvidence] in
theorem jobRow_of_mem {store : Store} {row : JobRow} (rowMem : row ∈ store.jobs.rows) :
    jobRow store row.jobId = some row := by
  unfold jobRow
  cases found : store.jobs.rows.find? fun stored => stored.jobId == row.jobId with
  | none =>
      have missed := List.find?_eq_none.mp found row rowMem
      simp at missed
  | some stored =>
      have same : stored.jobId = row.jobId := by simpa using List.find?_some found
      rw [eq_of_jobId_eq (List.mem_of_find?_eq_some found) rowMem same]

/-- A lease stays outdated. -/
theorem outdated_exec {lease : Lease} (calls : List Call) {service : Service}
    (outdated : lease.Outdated service.store) : lease.Outdated (service.exec calls).store := by
  rcases outdated with ⟨row, rowMem, sameId, later⟩
  rcases revision_exec calls service rowMem with ⟨next, nextMem, nextId, same | raised⟩
  · exact ⟨next, nextMem, nextId.trans sameId, by rw [same]; exact later⟩
  · exact ⟨next, nextMem, nextId.trans sameId, by omega⟩

/-- A lease that missed a change of its row is outdated. -/
theorem outdated_of_changed {lease : Lease} {service : Service} (calls : List Call)
    (current : lease.Current service.store)
    (changed : jobRow (service.exec calls).store lease.job.id ≠
      jobRow service.store lease.job.id) : lease.Outdated (service.exec calls).store := by
  rcases current with ⟨row, rowMem, read⟩
  rcases revision_exec calls service rowMem with ⟨next, nextMem, sameId, same | raised⟩
  · exfalso
    apply changed
    rw [← read.jobId, jobRow_of_mem rowMem, ← sameId, jobRow_of_mem nextMem, same]
  · refine ⟨next, nextMem, sameId.trans read.jobId, ?_⟩
    rw [← read.revision]
    exact raised

end Runs

section Attempts

/-- The ways a claimed attempt ends. -/
inductive AttemptEnd where
  | failure
  | expiry
  | supersession
  | completion
deriving DecidableEq, Repr

/-- How a call ends the attempts it ends. -/
def Call.ending : Call → Option AttemptEnd
  | .operation (.recordFailure ..) => some .failure
  | .operation (.claimNext ..) => some .expiry
  | .operation (.scheduleTrade ..) => some .supersession
  | .operation (.commitFinalization ..) => some .completion
  | _ => none

/-- Whether an attempt of a job is under way. -/
def attemptRunning (job : JobId) (attempt : Nat) (store : Store) : Bool :=
  store.jobs.rows.any fun row =>
    row.jobId == job && row.state == .leased && row.attemptCount == attempt

variable [Sha256] [TradeEvidence]

/-- The ends of one attempt along a run. -/
def attemptEnds (job : JobId) (attempt : Nat) : List Call → Service → List (Option AttemptEnd)
  | [], _ => []
  | call :: calls, service =>
      (if attemptRunning job attempt service.store &&
          !attemptRunning job attempt (service.apply call).store then
        [call.ending]
      else
        []) ++ attemptEnds job attempt calls (service.apply call)

omit [Sha256] [TradeEvidence] in
/-- A row is leased after a change only because it was claimed for the next attempt or because a
running lease was renewed. -/
theorem RowChange.attempts {old new : JobRow} {kind : StepKind} (change : RowChange old kind new) :
    old.attemptCount ≤ new.attemptCount ∧ (new.state = .leased →
      old.attemptCount < new.attemptCount ∨
        (kind = .renewal ∧ old.state = .leased ∧ new.attemptCount = old.attemptCount)) := by
  cases change.step with
  | supersede now id revision selected => simp [supersedeJob]
  | expire now due => simp [exhaustExpired]
  | claim owner expires now id revision selected => simp [claimJob]
  | renew expires now lease selected =>
      simp only [renewJob, JobRow.heldBy, Bool.and_eq_true, beq_iff_eq] at selected
      simp [renewJob, selected.1.1.1.1.2]
  | retry next now lease selected => simp [retryJob]
  | exhaust now lease selected => simp [exhaustJob]
  | complete now lease selected => simp [completeJob]

omit [Sha256] [TradeEvidence] in
theorem RowChange.of_renewal {old new : JobRow} (change : RowChange old .renewal new) :
    old.state = .leased ∧ new.state = .leased ∧ new.attemptCount = old.attemptCount := by
  cases change.step with
  | renew expires now lease selected =>
      simp only [renewJob, JobRow.heldBy, Bool.and_eq_true, beq_iff_eq] at selected
      exact ⟨selected.1.1.1.1.2, selected.1.1.1.1.2, rfl⟩

/-- An attempt is over: its job went on to a later attempt, or is no longer leased. -/
def AttemptSpent (job : JobId) (attempt : Nat) (store : Store) : Prop :=
  ∃ row ∈ store.jobs.rows, row.jobId = job ∧ (attempt < row.attemptCount ∨
    (attempt = row.attemptCount ∧ row.state ≠ .leased))

omit [Sha256] [TradeEvidence] in
theorem not_running_of_spent {job : JobId} {attempt : Nat} {store : Store}
    (spent : AttemptSpent job attempt store) : attemptRunning job attempt store = false := by
  rw [← Bool.not_eq_true]
  intro running
  simp only [attemptRunning, List.any_eq_true, Bool.and_eq_true, beq_iff_eq] at running
  rcases running with ⟨row, rowMem, ⟨rowId, leased⟩, count⟩
  rcases spent with ⟨other, otherMem, otherId, ended⟩
  have same := eq_of_jobId_eq otherMem rowMem (otherId.trans rowId.symm)
  rw [same] at ended
  rcases ended with later | ⟨-, idle⟩
  · omega
  · exact idle leased

theorem spent_apply {job : JobId} {attempt : Nat} (call : Call) {service : Service}
    (spent : AttemptSpent job attempt service.store) :
    AttemptSpent job attempt (service.apply call).store := by
  rcases spent with ⟨row, rowMem, rowId, ended⟩
  rcases successor_apply call service rowMem with ⟨next, nextMem, sameId, same | changed⟩
  · exact ⟨next, nextMem, sameId.trans rowId, by rw [same]; exact ended⟩
  · rcases changed with ⟨kind, -, change⟩
    refine ⟨next, nextMem, sameId.trans rowId, ?_⟩
    rcases change.attempts with ⟨grows, releases⟩
    rcases ended with later | ⟨equal, idle⟩
    · left
      omega
    · by_cases leased : next.state = .leased
      · rcases releases leased with raised | ⟨-, held, -⟩
        · left
          omega
        · exact absurd held idle
      · by_cases count : attempt = next.attemptCount
        · exact .inr ⟨count, leased⟩
        · left
          omega

/-- A call that ends an attempt spends it, and is one of the four that may. -/
theorem spent_of_ends {job : JobId} {attempt : Nat} {call : Call} {service : Service}
    (running : attemptRunning job attempt service.store = true)
    (ended : attemptRunning job attempt (service.apply call).store = false) :
    AttemptSpent job attempt (service.apply call).store ∧ call.ending.isSome = true := by
  simp only [attemptRunning, List.any_eq_true, Bool.and_eq_true, beq_iff_eq] at running
  rcases running with ⟨row, rowMem, ⟨rowId, leased⟩, count⟩
  rcases successor_apply call service rowMem with ⟨next, nextMem, sameId, changed⟩
  have stopped : ¬(next.state = .leased ∧ next.attemptCount = attempt) := by
    rintro ⟨still, sameCount⟩
    have runs : attemptRunning job attempt (service.apply call).store = true := by
      simp only [attemptRunning, List.any_eq_true, Bool.and_eq_true, beq_iff_eq]
      exact ⟨next, nextMem, ⟨sameId.trans rowId, still⟩, sameCount⟩
    rw [runs] at ended
    cases ended
  rcases changed with same | ⟨kind, kindMem, change⟩
  · exfalso
    apply stopped
    rw [same]
    exact ⟨leased, count⟩
  · rcases change.attempts with ⟨grows, -⟩
    refine ⟨⟨next, nextMem, sameId.trans rowId, ?_⟩, ?_⟩
    · by_cases same : attempt = next.attemptCount
      · exact .inr ⟨same, fun still => stopped ⟨still, same.symm⟩⟩
      · left
        omega
    · have notRenewal : kind ≠ .renewal := by
        rintro rfl
        rcases change.of_renewal with ⟨-, still, sameCount⟩
        exact stopped ⟨still, sameCount.trans count⟩
      cases call with
      | operation operation =>
          cases operation with
          | renew disposition lease now =>
              simp only [Call.stepKinds, List.mem_singleton] at kindMem
              exact absurd kindMem notRenewal
          | scheduleTrade | claimNext | recordFailure | commitFinalization => rfl
          | commitSourceResult | commitSourceReplays | progressOutbox | progressTargets =>
              simp [Call.stepKinds] at kindMem
      | openReadWrite | openInspection | close | applyConfiguration =>
          simp [Call.stepKinds] at kindMem

theorem attemptEnds_of_spent {job : JobId} {attempt : Nat} (calls : List Call) {service : Service}
    (spent : AttemptSpent job attempt service.store) :
    attemptEnds job attempt calls service = [] := by
  induction calls generalizing service with
  | nil => rfl
  | cons call calls ih =>
      simp [attemptEnds, not_running_of_spent spent, ih (spent_apply call spent)]

theorem attemptEnds_le_one (job : JobId) (attempt : Nat) (calls : List Call) (service : Service) :
    ∃ ends : List AttemptEnd, attemptEnds job attempt calls service = ends.map some ∧
      ends.length ≤ 1 := by
  induction calls generalizing service with
  | nil => exact ⟨[], rfl, by simp⟩
  | cons call calls ih =>
      unfold attemptEnds
      by_cases ended : attemptRunning job attempt service.store = true ∧
          attemptRunning job attempt (service.apply call).store = false
      · rcases spent_of_ends ended.1 ended.2 with ⟨spent, known⟩
        rcases Option.isSome_iff_exists.mp known with ⟨kind, isKind⟩
        refine ⟨[kind], ?_, by simp⟩
        simp [ended.1, ended.2, isKind, attemptEnds_of_spent calls spent]
      · have continues : (attemptRunning job attempt service.store &&
            !attemptRunning job attempt (service.apply call).store) = false := by
          rw [← Bool.not_eq_true]
          intro stops
          simp only [Bool.and_eq_true, Bool.not_eq_true'] at stops
          exact ended stops
        rcases ih (service.apply call) with ⟨ends, same, short⟩
        exact ⟨ends, by simp [continues, same], short⟩

end Attempts

section Fencing

variable [Sha256] [TradeEvidence]

/-- Lease fencing: a lease whose row changed after it was issued authorizes nothing any more, and
each claimed attempt ends at most once, by a recorded failure, an expiry, a supersession or a
completion. -/
theorem leases_fenced :
    (∀ before call between later lease,
      Issued (.exec before .initial) lease call →
      jobRow (Service.exec (before ++ call :: between) .initial).store lease.job.id ≠
        jobRow (Service.exec (before ++ [call]) .initial).store lease.job.id →
      lease.Refused (Service.exec (before ++ call :: between ++ later) .initial).store) ∧
    (∀ calls job attempt, ∃ ends : List AttemptEnd,
      attemptEnds job attempt calls .initial = ends.map some ∧ ends.length ≤ 1) := by
  refine ⟨?_, fun calls job attempt => attemptEnds_le_one job attempt calls .initial⟩
  intro before call between later lease issued changed
  have current := current_of_issued issued
  have outdated : lease.Outdated (Service.exec (before ++ call :: between) .initial).store := by
    have moved := outdated_of_changed between current (by simpa [Service.exec] using changed)
    simpa [Service.exec] using moved
  have still := outdated_exec later outdated
  apply Lease.Outdated.refused
  simpa [Service.exec] using still

end Fencing

end Rhi
