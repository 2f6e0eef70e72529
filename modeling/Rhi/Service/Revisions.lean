import Mathlib.Data.List.Induction
import Rhi.Job.Selection
import Rhi.Service.Fence

/-!
# Revisions that never run out

Each renewal moves the clock of its row, since it must move the expiry and a lease carries the
duration of the row it was read from.  The revision of a row is therefore bounded by the instant of
its last claim or renewal and the number of its attempts, and the lease that followed that instant
ended within the range of the clock.  Leases are made by the repository alone, so that this holds
of every run whose renewals use the leases it was given.
-/

namespace Rhi

open Relational Transactional

section Pace

/-- How far a row is past its last claim or renewal. -/
def JobState.slack : JobState → Nat
  | .leased => 0
  | .ready => 1
  | .exhausted | .superseded | .completed => 2

/-- The revision of a row, bounded by an instant from which it could still be leased. -/
structure JobRow.PacedBy (row : JobRow) (last : Nat) : Prop where
  past : last ≤ row.updatedAt
  room : last + row.leaseDuration ≤ maxInteger
  revision : row.revision ≤ last + 2 * row.attemptCount + row.state.slack
  held : row.state = .leased → row.leaseExpires = some (last + row.leaseDuration)

/-- The revisions of a row keep behind its clock. -/
def JobRow.Paced (row : JobRow) : Prop :=
  ∃ last, row.PacedBy last

theorem JobRow.Paced.revision_add_two_le {row : JobRow} (paced : row.Paced)
    (checked : reconciliationJobs.check row = true) : row.revision + 2 ≤ maxInteger := by
  rcases paced with ⟨last, paced⟩
  rcases (JobRow.check_iff.mp checked).1 with ⟨-, -, attempts, -, -, duration, -⟩
  have room := paced.room
  have revision := paced.revision
  have slack : row.state.slack ≤ 2 := by
    cases row.state <;> decide
  omega

theorem RowChange.idle {old new : JobRow} {kind : StepKind} (change : RowChange old kind new)
    (unclaimed : kind ≠ .claim) (unrenewed : kind ≠ .renewal) : new.state ≠ .leased := by
  cases change.step with
  | supersede now id revision selected => simp [supersedeJob]
  | expire now due => simp [exhaustExpired]
  | claim owner expires now id revision selected => exact absurd rfl unclaimed
  | renew expires now lease selected => exact absurd rfl unrenewed
  | retry next now lease selected => simp [retryJob]
  | exhaust now lease selected => simp [exhaustJob]
  | complete now lease selected => simp [completeJob]

theorem RowChange.transitionAllowed {old new : JobRow} {kind : StepKind}
    (change : RowChange old kind new) : JobRow.transitionAllowed old.state new.state = true := by
  have guarded := change.guarded
  simp only [reconciliationJobs, Bool.and_eq_true] at guarded
  exact guarded.2

/-- A change that leaves no lease keeps the pace. -/
theorem RowChange.paced {old new : JobRow} {kind : StepKind} (change : RowChange old kind new)
    (idle : new.state ≠ .leased) (paced : old.Paced) : new.Paced := by
  rcases paced with ⟨last, paced⟩
  rcases change.sameIdentity with ⟨-, -, -, -, -, sameDuration, -⟩
  have slack : old.state.slack + 1 ≤ new.state.slack := by
    have active := change.active
    have allowed := change.transitionAllowed
    cases before : old.state <;> cases after : new.state <;>
      simp_all [JobState.slack, JobState.active, JobRow.transitionAllowed]
  have attempts := change.attempts.1
  refine ⟨last, ?_, ?_, ?_, fun leased => absurd leased idle⟩
  · exact paced.past.trans change.updatedAt_le
  · rw [sameDuration]
    exact paced.room
  · have revision := paced.revision
    rw [change.revision_succ]
    omega

theorem JobRow.Paced.claimed {row : JobRow} (paced : row.Paced) (owner : LeaseOwner) {now : Nat}
    (claimable : row.claimable now = true) (clock : now + row.leaseDuration ≤ maxInteger) :
    (row.claimed owner now).Paced := by
  rcases paced with ⟨last, paced⟩
  have past := paced.past
  have revision := paced.revision
  simp only [JobRow.claimable, Bool.and_eq_true, Bool.or_eq_true, decide_eq_true_eq,
    beq_iff_eq] at claimable
  have slack : row.state.slack ≤ 1 := by
    rcases claimable.2 with ready | leased
    · rw [ready.1]
      decide
    · rw [leased.1]
      decide
  refine ⟨now, le_rfl, clock, ?_, fun _ => rfl⟩
  simp only [JobRow.claimed, JobState.slack]
  omega

theorem JobRow.Paced.expire {row : JobRow} (paced : row.Paced) (now : Nat) :
    (row.expire now).Paced := by
  cases due : row.exhaustible now with
  | false =>
      rw [JobRow.expire_of_not due]
      exact paced
  | true =>
      rw [JobRow.expire_of_exhaustible due]
      rcases paced with ⟨last, paced⟩
      have past := paced.past
      have revision := paced.revision
      simp only [JobRow.exhaustible, Bool.and_eq_true, beq_iff_eq, decide_eq_true_eq] at due
      rw [due.1.1.1] at revision
      refine ⟨last, past.trans due.2, paced.room, ?_, by simp [exhaustExpired]⟩
      simp only [exhaustExpired, JobState.slack] at revision ⊢
      omega

theorem JobRow.Paced.renewed {row : JobRow} (paced : row.Paced) {lease : Lease} {now : Nat}
    (selected : (renewJob (now + row.leaseDuration) now lease).selects row = true)
    (clock : lease.leaseExpires.get < now + row.leaseDuration ∧
      now + row.leaseDuration ≤ maxInteger) :
    ((renewJob (now + row.leaseDuration) now lease).write row).Paced := by
  rcases paced with ⟨last, paced⟩
  simp only [renewJob, JobRow.heldBy, Bool.and_eq_true, beq_iff_eq] at selected
  rcases selected with ⟨⟨⟨⟨⟨-, leased⟩, -⟩, expiry⟩, -⟩, -⟩
  have held := paced.held leased
  rw [expiry, Option.some.injEq] at held
  have revision := paced.revision
  rw [leased] at revision
  refine ⟨now, le_rfl, clock.2, ?_, fun _ => rfl⟩
  simp only [renewJob, leased, JobState.slack] at revision ⊢
  omega

theorem readyRow_paced [Sha256] (trade : TradeId) (dirty : DirtyRow) (policy : JobPolicy)
    (now : Nat) : (readyRow trade dirty policy now).Paced := by
  have duration := policy.valid.2.1.2
  refine ⟨0, Nat.zero_le _, ?_, ?_, ?_⟩
  · simp only [readyRow, Nat.zero_add]
    exact duration.trans (by decide)
  · simp [readyRow, JobState.slack]
  · simp [readyRow]

end Pace

section Steps

variable [Sha256]

/-- The job table of a reachable store: its rows are well formed and keep their pace, and the
queue is within the bound of all queues. -/
structure JobsSteady (store : Store) : Prop where
  wellFormed : ∀ row ∈ store.jobs.rows, row.WellFormed
  bounded : activeCount store.jobs.rows ≤ jobMaxActive
  paced : ∀ row ∈ store.jobs.rows, row.Paced

theorem JobsSteady.ready {store : Store} (steady : JobsSteady store) : JobsReady store where
  wellFormed := steady.wellFormed
  room row rowMem :=
    (steady.paced row rowMem).revision_add_two_le (store.jobs.checked row rowMem)

/-- A lease carries the duration of the row of its job. -/
def Lease.Timed (lease : Lease) (store : Store) : Prop :=
  ∃ row ∈ store.jobs.rows, row.jobId = lease.job.id ∧
    row.leaseDuration = lease.job.policy.leaseDuration

/-- Only a rewriting that leaves no lease, and a row that was just scheduled, need no look at the
lease. -/
theorem JobsSteady.paced_of_idle {store : Store} {kinds : List StepKind} {after : List JobRow}
    (steady : JobsSteady store) (idle : .claim ∉ kinds ∧ .renewal ∉ kinds)
    (rewritten : JobsRewritten kinds store.jobs.rows after) : ∀ row ∈ after, row.Paced := by
  intro row rowMem
  rcases rewritten.origin rowMem with ⟨old, oldMem, -, same | ⟨kind, kindMem, change⟩⟩
  · rw [same]
    exact steady.paced old oldMem
  · refine change.paced (change.idle ?_ ?_) (steady.paced old oldMem)
    · rintro rfl
      exact idle.1 kindMem
    · rintro rfl
      exact idle.2 kindMem

theorem paced_of_claimNext {owner : LeaseOwner} {now : UnixMilliseconds} {store next : Store}
    {claimed : Option Lease} (steady : JobsSteady store)
    (done : claimNext owner now store = .ok (claimed, next)) :
    ∀ row ∈ next.jobs.rows, row.Paced := by
  have expired : ∀ row ∈ store.jobs.rows, (row.expire now.get).Paced :=
    fun row rowMem => (steady.paced row rowMem).expire now.get
  rcases idle_or_claims store now.get with idle | ⟨first, claims⟩
  · rcases claimNext_of_idle steady.ready owner steady.bounded idle with ⟨next', done', -, rows⟩
    rw [done'] at done
    cases done
    rw [rows]
    simpa using expired
  · rcases claimNext_of_claims steady.ready owner steady.bounded claims with ⟨fits, overflows⟩
    rcases Nat.lt_or_ge maxInteger (now.get + first.leaseDuration) with beyond | clock
    · rw [overflows beyond] at done
      cases done
    · rcases fits clock with ⟨lease, next', done', leased⟩
      rw [done'] at done
      cases done
      rw [leased.rows]
      intro row rowMem
      rcases List.mem_map.mp rowMem with ⟨old, oldMem, rfl⟩
      unfold JobRow.afterClaim
      split
      · exact (steady.paced first claims.mem).claimed owner claims.selected clock
      · exact expired old oldMem

theorem paced_of_renewLease {lease renewed : Lease} {now : UnixMilliseconds} {store next : Store}
    (steady : JobsSteady store) (timed : lease.Timed store)
    (done : renewLease lease now store = .ok (renewed, next)) :
    ∀ row ∈ next.jobs.rows, row.Paced := by
  simp only [renewLease, bind_eq_ok, require_eq_ok, pure_eq_ok, Prod.mk.injEq,
    decide_eq_true_eq] at done
  rcases done with ⟨-, clock, ⟨affected, last⟩, updated, -, -, -, -, -, rfl⟩
  rw [(updateJobs_spec updated).2.1]
  intro row rowMem
  rcases List.mem_map.mp rowMem with ⟨old, oldMem, rfl⟩
  cases selected : (renewJob (now.get + lease.job.policy.leaseDuration) now.get lease).selects
      old with
  | false =>
      rw [Table.rewrite_of_not_selects selected]
      exact steady.paced old oldMem
  | true =>
      rw [Table.rewrite_of_selects selected]
      rcases timed with ⟨timing, timingMem, sameId, duration⟩
      have held := selected
      simp only [renewJob, JobRow.heldBy, Bool.and_eq_true, beq_iff_eq] at held
      have same := eq_of_jobId_eq oldMem timingMem (held.1.1.1.1.1.1.trans sameId.symm)
      rw [← same] at duration
      rw [← duration] at selected clock ⊢
      exact (steady.paced old oldMem).renewed selected clock

variable [TradeEvidence]

/-- A renewal uses a lease that carries the duration of its row. -/
def Call.Timed (store : Store) : Call → Prop
  | .operation (.renew _ lease _) => lease.Timed store
  | _ => True

theorem paced_operation (operation : Operation) (host : Host) {store : Store}
    (steady : JobsSteady store) (timed : Call.Timed store (.operation operation)) :
    ∀ row ∈ (operation.run host store).jobs.rows, row.Paced := by
  have step := jobsStep_of_effect (run_effect operation host store)
  cases operation with
  | claimNext disposition owner now =>
      simp only [Operation.run]
      unfold claimNextJob
      split
      · exact steady.paced
      · rcases transaction_store mapJobError disposition (claimNext owner now) store
          with same | ⟨claimed, next, done, same⟩
        · rw [same]
          exact steady.paced
        · rw [same]
          exact paced_of_claimNext steady done
  | renew disposition lease now =>
      simp only [Operation.run]
      unfold Rhi.renew
      split
      · exact steady.paced
      · split
        · exact steady.paced
        · split
          · exact steady.paced
          · rcases transaction_store mapJobError disposition (renewLease lease now) store
              with same | ⟨renewed, next, done, same⟩
            · rw [same]
              exact steady.paced
            · rw [same]
              exact paced_of_renewLease steady timed done
  | scheduleTrade disposition trade policy now =>
      cases step with
      | rewritten rewritten => exact steady.paced_of_idle (by simp [Call.stepKinds]) rewritten
      | inserted scheduled =>
          rcases scheduled.inserted with ⟨middle, superseded, -, rows, -⟩
          intro row rowMem
          rw [rows, List.mem_append, List.mem_singleton] at rowMem
          rcases rowMem with old | new
          · exact steady.paced_of_idle (by simp) superseded row old
          · rw [new]
            exact readyRow_paced _ _ _ _
  | recordFailure | commitSourceResult | commitSourceReplays | commitFinalization
  | progressOutbox | progressTargets =>
      cases step with
      | rewritten rewritten => exact steady.paced_of_idle (by simp [Call.stepKinds]) rewritten

/-- The queue stays within the bound of all queues. -/
theorem bounded_apply (call : Call) (service : Service)
    (bounded : activeCount service.store.jobs.rows ≤ jobMaxActive) :
    activeCount (service.apply call).store.jobs.rows ≤ jobMaxActive := by
  cases jobsStep_apply call service with
  | rewritten rows => exact rows.activeCount_le.trans bounded
  | inserted scheduled =>
      rename_i disposition trade policy now dirty
      rcases scheduled.inserted with ⟨middle, -, room, rows, -⟩
      have capacity := policy.valid.1.2
      have appended : activeCount (middle ++ [readyRow trade dirty policy now.get]) =
          activeCount middle + 1 := by
        simp [activeCount, readyRow, JobState.active]
      rw [rows, appended]
      omega

theorem steady_apply (call : Call) (service : Service) (timed : call.Timed service.store)
    (steady : JobsSteady service.store) : JobsSteady (service.apply call).store where
  wellFormed := jobsWellFormed_apply call service steady.wellFormed
  bounded := bounded_apply call service steady.bounded
  paced := by
    rcases apply_cases call service with ⟨operation, host, rfl, -, applied⟩ | only
    · rw [applied]
      exact paced_operation operation host steady timed
    · rw [only]
      exact steady.paced

end Steps

section Runs

variable [Sha256] [TradeEvidence]

/-- Every renewal of a run uses a lease that an earlier call of the run returned: leases have no
other constructor. -/
def GenuineLeases (calls : List Call) : Prop :=
  ∀ before disposition lease now after,
    calls = before ++ .operation (.renew disposition lease now) :: after →
      ∃ earlier call between, before = earlier ++ call :: between ∧
        Issued (.exec earlier .initial) lease call

theorem GenuineLeases.of_append {first second : List Call}
    (genuine : GenuineLeases (first ++ second)) : GenuineLeases first := by
  intro before disposition lease now after split
  exact genuine before disposition lease now (after ++ second) (by simp [split])

/-- The duration of a job stays what it was. -/
theorem Lease.Timed.exec {lease : Lease} {service : Service} (calls : List Call)
    (timed : lease.Timed service.store) : lease.Timed (service.exec calls).store := by
  refine Transition.exec_invariant (fun state : Service => lease.Timed state.store) ?_ calls timed
  rintro call state ⟨row, rowMem, sameId, duration⟩
  rcases successor_apply call state rowMem with ⟨next, nextMem, nextId, same | ⟨kind, -, change⟩⟩
  · exact ⟨next, nextMem, nextId.trans sameId, by rw [same]; exact duration⟩
  · rcases change.sameIdentity with ⟨-, -, -, -, -, sameDuration, -⟩
    exact ⟨next, nextMem, nextId.trans sameId, sameDuration.trans duration⟩

omit [TradeEvidence] in
theorem Lease.Current.timed {lease : Lease} {store : Store} (current : lease.Current store) :
    lease.Timed store := by
  rcases current with ⟨row, rowMem, read⟩
  refine ⟨row, rowMem, read.jobId, ?_⟩
  rw [← toRow_of_decodeJob read.decoded]
  rfl

theorem GenuineLeases.timed {calls : List Call} {call : Call}
    (genuine : GenuineLeases (calls ++ [call])) :
    call.Timed (Service.exec calls .initial).store := by
  unfold Call.Timed
  split
  · rename_i disposition lease now
    rcases genuine calls disposition lease now [] rfl with ⟨earlier, call, between, rfl, issued⟩
    have timed := (current_of_issued issued).timed.exec between
    simpa [Service.exec] using timed
  · trivial

/-- The job table is steady in every store that genuine leases reach. -/
theorem steady_exec {calls : List Call} (genuine : GenuineLeases calls) :
    JobsSteady (Service.exec calls .initial).store := by
  induction calls using List.reverseRecOn with
  | nil =>
      refine ⟨?_, ?_, ?_⟩
      · simp [Service.exec, Service.initial, Store.initial]
      · simp [Service.exec, Service.initial, Store.initial, activeCount]
      · simp [Service.exec, Service.initial, Store.initial]
  | append_singleton calls call ih =>
      have stepped : Service.exec (calls ++ [call]) .initial =
          (Service.exec calls .initial).apply call := by
        simp [Service.exec]
      rw [stepped]
      exact steady_apply call _ genuine.timed (ih genuine.of_append)

end Runs

end Rhi
