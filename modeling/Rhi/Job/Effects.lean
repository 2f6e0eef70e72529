import Rhi.Job.Transitions

/-!
# Effects of the job operations

One lemma per operation: which rows a successful call may rewrite, what it appends, that it
touches no other table, and which stored row it depended on.
-/

namespace Rhi

open Relational Transactional

variable [Sha256]

/-- The stored row a lease value was read from. -/
structure Lease.ReadFrom (lease : Lease) (row : JobRow) : Prop where
  decoded : decodeJob row = .ok lease.job
  leased : lease.job.state = .leased
  expires : lease.job.leaseExpires = some lease.leaseExpires

section Reading

theorem readJob_eq_some {store : Store} {id : JobId} {job : Job}
    (read : readJob store id = .ok (some job)) :
    ∃ row ∈ store.jobs.rows, row.jobId = id ∧ decodeJob row = .ok job := by
  unfold readJob at read
  split at read
  · cases read
  · rename_i row found
    cases decoded : decodeJob row with
    | error error => simp [decoded, Except.map] at read
    | ok value =>
        simp only [decoded, Except.map, Except.ok.injEq, Option.some.injEq] at read
        subst read
        refine ⟨row, List.mem_of_find?_eq_some found, ?_, decoded⟩
        simpa using List.find?_some found

theorem readLease_spec {store : Store} {id : JobId} {owner : LeaseOwner} {lease : Lease}
    (read : readLease store id owner = .ok lease) :
    lease.job.id = id ∧ lease.owner = owner ∧ ∃ row ∈ store.jobs.rows, lease.ReadFrom row := by
  simp only [readLease, bind_eq_ok, orError_eq_ok, require_eq_ok, pure_eq_ok,
    beq_iff_eq] at read
  rcases read with ⟨_, found, job, rfl, -, leased, expires, expiry, rfl⟩
  rcases readJob_eq_some found with ⟨row, rowMem, sameId, decoded⟩
  refine ⟨?_, rfl, row, rowMem, decoded, leased, expiry⟩
  have encoded := toRow_of_decodeJob decoded
  rw [← sameId, ← encoded]
  rfl

end Reading

section Claiming

/-- Effect of `claim_next`, and the row the returned lease was read from. -/
theorem claimNext_spec {owner : LeaseOwner} {now : UnixMilliseconds} {store next : Store}
    {claimed : Option Lease} (done : claimNext owner now store = .ok (claimed, next)) :
    JobsOnly store next ∧ JobsRewritten [.expiry, .claim] store.jobs.rows next.jobs.rows ∧
      ∀ lease, claimed = some lease → ∃ row ∈ next.jobs.rows, lease.ReadFrom row := by
  simp only [claimNext, bind_eq_ok] at done
  rcases done with ⟨⟨count, middle⟩, exhausted, done⟩
  have expired := exhaustExpired_rewritten exhausted
  have expiredOnly := (updateJobs_spec exhausted).1
  split at done
  · simp only [pure_eq_ok, Prod.mk.injEq] at done
    rcases done with ⟨rfl, rfl⟩
    refine ⟨expiredOnly, expired.weaken (by simp), ?_⟩
    intro lease impossible
    cases impossible
  · rename_i row read
    simp only [bind_eq_ok, require_eq_ok, pure_eq_ok, Prod.mk.injEq] at done
    rcases done with ⟨candidate, decoded, -, bounded, ⟨affected, last⟩, updated, -, single, lease,
      leaseRead, rfl, rfl⟩
    refine ⟨expiredOnly.trans (updateJobs_spec updated).1,
      rewritten_claim_after_expiry expired (claimJob_rewritten updated), ?_⟩
    intro returned same
    cases same
    exact (readLease_spec leaseRead).2.2

end Claiming

section Holding

/-- Effect of `renew`, and the fence it passed. -/
theorem renewLease_spec {lease renewed : Lease} {now : UnixMilliseconds} {store next : Store}
    (done : renewLease lease now store = .ok (renewed, next)) :
    JobsOnly store next ∧ JobsRewritten [.renewal] store.jobs.rows next.jobs.rows ∧
      (∃ row ∈ store.jobs.rows, row.heldBy lease = true) ∧
      ∃ row ∈ next.jobs.rows, renewed.ReadFrom row := by
  simp only [renewLease, bind_eq_ok, require_eq_ok, pure_eq_ok, Prod.mk.injEq] at done
  rcases done with ⟨-, -, ⟨affected, last⟩, updated, -, single, value, read, rfl, rfl⟩
  rcases exists_selected_of_affected updated single with ⟨row, rowMem, selected⟩
  refine ⟨(updateJobs_spec updated).1, ?_, ⟨row, rowMem, ?_⟩, (readLease_spec read).2.2⟩
  · exact rewritten_of_updateJobs updated fun _ _ selected => .renew _ now.get lease selected
  · simp only [renewJob, Bool.and_eq_true] at selected
    exact selected.1.1

/-- Effect of `record_failure`, and the fence it passed. -/
theorem recordFailureJob_spec {lease : Lease} {now : UnixMilliseconds} {delay : RetryDelay}
    {store next : Store} {job : Job}
    (done : recordFailureJob lease now delay store = .ok (job, next)) :
    JobsOnly store next ∧ JobsRewritten [.failure] store.jobs.rows next.jobs.rows ∧
      ∃ row ∈ store.jobs.rows, row.heldBy lease = true := by
  simp only [recordFailureJob, bind_eq_ok, require_eq_ok, orError_eq_ok, pure_eq_ok,
    Prod.mk.injEq] at done
  rcases done with ⟨statement, chosen, ⟨affected, last⟩, updated, -, single, _, -, _, -, -, rfl⟩
  rcases exists_selected_of_affected updated single with ⟨row, rowMem, selected⟩
  refine ⟨(updateJobs_spec updated).1, ?_, row, rowMem, (failureStatement_spec chosen selected).1⟩
  exact rewritten_of_updateJobs updated fun _ _ chosenRow =>
    (failureStatement_spec chosen chosenRow).2

end Holding

section Scheduling

theorem supersedeActive_spec {store next : Store} {trade : TradeId} {dirty : DirtyRow} {now : Nat}
    (done : supersedeActive store trade dirty now = .ok next) :
    JobsOnly store next ∧ JobsRewritten [.supersession] store.jobs.rows next.jobs.rows := by
  simp only [supersedeActive, bind_eq_ok] at done
  rcases done with ⟨active, read, done⟩
  cases active with
  | none =>
      simp only [pure_eq_ok] at done
      subst done
      exact ⟨.refl store, .refl _ _⟩
  | some job =>
      simp only [bind_eq_ok, require_eq_ok, pure_eq_ok] at done
      rcases done with ⟨-, -, ⟨affected, last⟩, updated, -, -, rfl⟩
      exact ⟨(updateJobs_spec updated).1,
        rewritten_of_updateJobs updated fun _ _ selected => .supersede _ _ _ selected⟩

/-- What a successful `schedule` found or did. -/
structure Scheduled (trade : TradeId) (policy : JobPolicy) (now : Nat) (dirty : DirtyRow)
    (before after : Store) : Prop where
  only : JobsOnly before after
  inserted : ∃ middle, JobsRewritten [.supersession] before.jobs.rows middle ∧
    activeCount middle < policy.queueCapacity ∧
    after.jobs.rows = middle ++ [readyRow trade dirty policy now] ∧
    ∀ row ∈ middle, row.jobId ≠ (readyRow trade dirty policy now).jobId

/-- Effect of `schedule`: it found the job of the current generation, or inserted it. -/
theorem schedule_spec {trade : TradeId} {policy : JobPolicy} {now : UnixMilliseconds}
    {store next : Store} {outcome : ScheduleOutcome}
    (done : schedule trade policy now store = .ok (outcome, next)) :
    ∃ dirty, readDirty store trade = some dirty ∧
      ((outcome.created = false ∧ next = store ∧ ∃ row ∈ store.jobs.rows, row.tradeId = trade ∧
          row.inputGeneration = dirty.generation ∧ row.evidencePolicy = dirty.evidencePolicy) ∨
        (outcome.created = true ∧ Scheduled trade policy now.get dirty store next)) := by
  simp only [schedule, bind_eq_ok, orError_eq_ok] at done
  rcases done with ⟨dirty, dirtyRead, existing, existingRead, done⟩
  refine ⟨dirty, dirtyRead, ?_⟩
  cases existing with
  | some job =>
      simp only [bind_eq_ok, require_eq_ok, pure_eq_ok, Bool.and_eq_true, beq_iff_eq,
        Prod.mk.injEq] at done
      rcases done with ⟨-, ⟨⟨sameTrade, sameGeneration⟩, samePolicy⟩, rfl, rfl⟩
      rcases readJob_eq_some existingRead with ⟨row, rowMem, -, decoded⟩
      have encoded := toRow_of_decodeJob decoded
      refine .inl ⟨rfl, rfl, row, rowMem, ?_⟩
      rw [← encoded]
      exact ⟨sameTrade, sameGeneration, samePolicy⟩
  | none =>
      simp only [bind_eq_ok, require_eq_ok, orError_eq_ok, pure_eq_ok, decide_eq_true_eq,
        Prod.mk.injEq] at done
      rcases done with ⟨middle, superseded, -, room, last, inserted, -, -, -, -, rfl, rfl⟩
      rcases supersedeActive_spec superseded with ⟨supersededOnly, rewritten⟩
      rcases insertJob_spec inserted with ⟨insertedOnly, rows, fresh⟩
      exact .inr ⟨rfl, supersededOnly.trans insertedOnly, _, rewritten, room, rows, fresh⟩

theorem readyRow_wellFormed (trade : TradeId) (dirty : DirtyRow) (policy : JobPolicy)
    (now : Nat) : (readyRow trade dirty policy now).WellFormed := by
  refine ⟨rfl, Nat.zero_le _, ?_, ?_⟩
  · simp [readyRow]
  · simp [readyRow]

end Scheduling

end Rhi
