import Rhi.Job.Totality
import Rhi.Lib.Least

/-!
# What a claim selects

The two updates and the query of `claim_next` compose into one rule: what is expired for good is
exhausted, and the least claimable row is leased.
-/

namespace Rhi

open Relational Transactional

section Order

variable {due : JobRow → Nat}

instance : Std.Total (JobRow.before due) := by
  refine ⟨fun left right => ?_⟩
  unfold JobRow.before
  rcases lt_trichotomy (due left) (due right) with less | same | more
  · exact .inl (.inl less)
  · rcases lt_trichotomy left.createdAt right.createdAt with older | alike | younger
    · exact .inl (.inr ⟨same, .inl older⟩)
    · rcases Nat.le_total left.jobId.toNat right.jobId.toNat with lower | higher
      · exact .inl (.inr ⟨same, .inr ⟨alike, lower⟩⟩)
      · exact .inr (.inr ⟨same.symm, .inr ⟨alike.symm, higher⟩⟩)
    · exact .inr (.inr ⟨same.symm, .inl younger⟩)
  · exact .inr (.inl more)

instance : IsTrans JobRow (JobRow.before due) := by
  refine ⟨fun first second third left right => ?_⟩
  rcases left with less | ⟨same, older | ⟨alike, lower⟩⟩
  · rcases right with less' | ⟨same', -⟩
    · exact .inl (less.trans less')
    · exact .inl (same' ▸ less)
  · rcases right with less' | ⟨same', older' | ⟨alike', -⟩⟩
    · exact .inl (same ▸ less')
    · exact .inr ⟨same.trans same', .inl (older.trans older')⟩
    · exact .inr ⟨same.trans same', .inl (alike' ▸ older)⟩
  · rcases right with less' | ⟨same', older' | ⟨alike', lower'⟩⟩
    · exact .inl (same ▸ less')
    · exact .inr ⟨same.trans same', .inl (alike ▸ older')⟩
    · exact .inr ⟨same.trans same', .inr ⟨alike.trans alike', Nat.le_trans lower lower'⟩⟩

/-- Each of two rows comes before the other only if they have the same identity. -/
theorem JobRow.jobId_eq_of_before {left right : JobRow} (forth : JobRow.before due left right)
    (back : JobRow.before due right left) : left.jobId = right.jobId := by
  rcases forth with less | ⟨same, older | ⟨alike, lower⟩⟩
  · rcases back with less' | ⟨same', -⟩ <;> omega
  · rcases back with less' | ⟨-, older' | ⟨alike', -⟩⟩ <;> omega
  · rcases back with less' | ⟨-, older' | ⟨-, lower'⟩⟩
    · omega
    · omega
    · exact BitVec.eq_of_toNat_eq (Nat.le_antisymm lower lower')

end Order

section Exhaustion

/-- The row after everything that is expired for good was exhausted. -/
def JobRow.expire (now : Nat) (row : JobRow) : JobRow :=
  if row.exhaustible now then
    { row with
      state := .exhausted, revision := row.revision + 1, failureCount := row.attemptCount,
      leaseOwner := none, leaseExpires := none, updatedAt := now }
  else
    row

theorem JobRow.expire_of_exhaustible {now : Nat} {row : JobRow}
    (due : row.exhaustible now = true) :
    row.expire now = (exhaustExpired now []).write row := by
  simp [JobRow.expire, due, exhaustExpired]

theorem JobRow.expire_of_not {now : Nat} {row : JobRow} (kept : row.exhaustible now = false) :
    row.expire now = row := by
  simp [JobRow.expire, kept]

theorem JobRow.expire_jobId (now : Nat) (row : JobRow) : (row.expire now).jobId = row.jobId := by
  unfold JobRow.expire
  split <;> rfl

/-- What can be claimed is not expired for good. -/
theorem JobRow.not_exhaustible_of_claimable {now : Nat} {row : JobRow}
    (claimable : row.claimable now = true) : row.exhaustible now = false := by
  by_contra due
  simp only [JobRow.claimable, JobRow.exhaustible, Bool.and_eq_true, decide_eq_true_eq,
    Bool.not_eq_false] at claimable due
  omega

theorem JobRow.claimable_expire (now : Nat) (row : JobRow) :
    (row.expire now).claimable now = row.claimable now := by
  cases due : row.exhaustible now with
  | false => rw [JobRow.expire_of_not due]
  | true =>
      have idle : row.claimable now = false := by
        by_contra claimable
        rw [JobRow.not_exhaustible_of_claimable (by simpa using claimable)] at due
        cases due
      rw [JobRow.expire_of_exhaustible due, idle]
      simp [exhaustExpired, JobRow.claimable]

/-- A queue within the bound of all queues is exhausted by one statement. -/
theorem exhaustExpired_selects {jobs : Table reconciliationJobs} {now : Nat} {row : JobRow}
    (bounded : activeCount jobs.rows ≤ jobMaxActive) (rowMem : row ∈ jobs.rows) :
    (exhaustExpired now jobs.rows).selects row = row.exhaustible now := by
  have few : (jobs.rows.filter fun stored => stored.exhaustible now).length ≤ 65536 := by
    rw [← List.countP_eq_length_filter]
    refine le_trans (List.countP_mono_left fun stored _ due => ?_) bounded
    simp only [JobRow.exhaustible, Bool.and_eq_true, beq_iff_eq] at due
    simp [due.1.1.1, JobState.active]
  cases due : row.exhaustible now with
  | false =>
      by_contra selected
      rw [exhaustible_of_selects rowMem (by simpa using selected)] at due
      cases due
  | true =>
      simp only [exhaustExpired, List.any_eq_true, beq_iff_eq]
      rw [List.take_of_length_le (by rwa [List.length_insertionSort])]
      exact ⟨row, (List.mem_insertionSort _).mpr (List.mem_filter.mpr ⟨rowMem, due⟩), rfl⟩

theorem exhaustExpired_rows {store next : Store} {now affected : Nat}
    (bounded : activeCount store.jobs.rows ≤ jobMaxActive)
    (updated : store.updateJobs (exhaustExpired now store.jobs.rows) = .ok (affected, next)) :
    next.jobs.rows = store.jobs.rows.map (JobRow.expire now) := by
  rw [(updateJobs_spec updated).2.1]
  refine List.map_congr_left fun row rowMem => ?_
  have selects := @exhaustExpired_selects store.jobs now row bounded rowMem
  cases due : row.exhaustible now with
  | false =>
      rw [due] at selects
      rw [Table.rewrite_of_not_selects selects, JobRow.expire_of_not due]
  | true =>
      rw [due] at selects
      rw [Table.rewrite_of_selects selects, JobRow.expire_of_exhaustible due]
      rfl

end Exhaustion

section Claiming

variable [Sha256]

/-- When a row is due: a ready one at its next attempt, a leased one at its expiry. -/
def JobRow.due (row : JobRow) : Nat :=
  if row.state == .ready then row.nextAttempt.getD 0 else row.leaseExpires.getD 0

/-- The first claimable row. -/
def Claims (store : Store) (now : Nat) (row : JobRow) : Prop :=
  Least (JobRow.before JobRow.due) (fun stored => stored.claimable now) store.jobs.rows row

omit [Sha256] in
/-- Only one row is the first. -/
theorem Claims.unique {store : Store} {now : Nat} {left right : JobRow}
    (leftFirst : Claims store now left) (rightFirst : Claims store now right) : left = right := by
  rcases leftFirst.first right rightFirst.mem rightFirst.selected with same | forth
  · exact same.symm
  · rcases rightFirst.first left leftFirst.mem leftFirst.selected with same | back
    · exact same
    · exact eq_of_jobId_eq leftFirst.mem rightFirst.mem (JobRow.jobId_eq_of_before forth back)

omit [Sha256] in
/-- The query reads the first claimable row of the table before the exhaustions. -/
theorem readClaimable_expired {store : Store} {now : Nat} :
    match readClaimable now (store.jobs.rows.map (JobRow.expire now)) with
    | none => ∀ row ∈ store.jobs.rows, row.claimable now = false
    | some row => Claims store now row := by
  cases read : readClaimable now (store.jobs.rows.map (JobRow.expire now)) with
  | none =>
      have idle := head?_insertionSort_eq_none.mp read
      intro row rowMem
      rw [← JobRow.claimable_expire]
      exact idle _ (List.mem_map_of_mem rowMem)
  | some row =>
      have least : Least (JobRow.before JobRow.due) (fun stored => stored.claimable now)
          (store.jobs.rows.map (JobRow.expire now)) row := least_of_head? read
      have kept : ∀ {stored : JobRow}, stored.claimable now = true → stored.expire now = stored :=
        fun claimable => JobRow.expire_of_not (JobRow.not_exhaustible_of_claimable claimable)
      rcases List.mem_map.mp least.mem with ⟨old, oldMem, rfl⟩
      have claimable := least.selected
      rw [JobRow.claimable_expire] at claimable
      rw [kept claimable] at least ⊢
      refine ⟨oldMem, claimable, fun other otherMem selected => ?_⟩
      have first := least.first (other.expire now) (List.mem_map_of_mem otherMem)
        (by rwa [JobRow.claimable_expire])
      rwa [kept selected] at first

omit [Sha256] in
/-- Nothing can be claimed, or one row is the first. -/
theorem idle_or_claims (store : Store) (now : Nat) :
    (∀ row ∈ store.jobs.rows, row.claimable now = false) ∨ ∃ row, Claims store now row := by
  have answered := @readClaimable_expired store now
  cases read : readClaimable now (store.jobs.rows.map (JobRow.expire now)) with
  | none =>
      rw [read] at answered
      exact .inl answered
  | some row =>
      rw [read] at answered
      exact .inr ⟨row, answered⟩

/-- The row that a claim leaves of the one it selected. -/
def JobRow.claimed (row : JobRow) (owner : LeaseOwner) (now : Nat) : JobRow :=
  { row with
    state := .leased, revision := row.revision + 1, attemptCount := row.attemptCount + 1,
    nextAttempt := none, leaseOwner := some owner.bytes,
    leaseExpires := some (now + row.leaseDuration), updatedAt := now }

/-- What the two updates of a claim leave of a stored row. -/
def JobRow.afterClaim (selected : JobRow) (owner : LeaseOwner) (now : Nat) (row : JobRow) :
    JobRow :=
  if row.jobId = selected.jobId then selected.claimed owner now else row.expire now

/-- The claim of the first claimable row. -/
structure Claimed (owner : LeaseOwner) (now : Nat) (row : JobRow) (store next : Store)
    (lease : Lease) : Prop where
  only : JobsOnly store next
  rows : next.jobs.rows = store.jobs.rows.map (row.afterClaim owner now)
  read : lease.ReadFrom (row.claimed owner now)
  owned : lease.owner = owner

theorem claimNext_of_idle {store : Store} (ready : JobsReady store) (owner : LeaseOwner)
    {now : UnixMilliseconds} (bounded : activeCount store.jobs.rows ≤ jobMaxActive)
    (idle : ∀ row ∈ store.jobs.rows, row.claimable now.get = false) :
    ∃ next, claimNext owner now store = .ok (none, next) ∧ JobsOnly store next ∧
      next.jobs.rows = store.jobs.rows.map (JobRow.expire now.get) := by
  rcases exhaustExpired_total ready now with ⟨affected, middle, exhausted⟩
  have rows := exhaustExpired_rows bounded exhausted
  have answered := @readClaimable_expired store now.get
  rw [← rows] at answered
  refine ⟨middle, ?_, (updateJobs_spec exhausted).1, rows⟩
  simp only [claimNext, bind_eq_ok]
  refine ⟨_, exhausted, ?_⟩
  cases read : readClaimable now.get middle.jobs.rows with
  | none => rfl
  | some row =>
      rw [read] at answered
      have claimable := answered.selected
      rw [idle row answered.mem] at claimable
      cases claimable

theorem claimNext_of_claims {store : Store} (ready : JobsReady store) (owner : LeaseOwner)
    {now : UnixMilliseconds} {row : JobRow} (bounded : activeCount store.jobs.rows ≤ jobMaxActive)
    (first : Claims store now.get row) :
    (now.get + row.leaseDuration ≤ maxInteger → ∃ lease next,
        claimNext owner now store = .ok (some lease, next) ∧
        Claimed owner now.get row store next lease) ∧
      (maxInteger < now.get + row.leaseDuration →
        claimNext owner now store = .error .invalidInput) := by
  rcases exhaustExpired_total ready now with ⟨affected, middle, exhausted⟩
  have rows := exhaustExpired_rows bounded exhausted
  have answered := @readClaimable_expired store now.get
  rw [← rows] at answered
  have read : readClaimable now.get middle.jobs.rows = some row := by
    cases read : readClaimable now.get middle.jobs.rows with
    | none =>
        rw [read] at answered
        have claimable := first.selected
        rw [answered row first.mem] at claimable
        cases claimable
    | some other =>
        rw [read] at answered
        rw [Claims.unique answered first]
  have kept := JobRow.expire_of_not (JobRow.not_exhaustible_of_claimable first.selected)
  have middleMem : row ∈ middle.jobs.rows := by
    rw [rows, ← kept]
    exact List.mem_map_of_mem first.mem
  rcases ready.after (exhaustExpired_rewritten exhausted) with ⟨wellFormed, room⟩
  rcases decodeJob_of_wellFormed (middle.jobs.checked row middleMem) (wellFormed row middleMem) with
    ⟨candidate, decoded⟩
  have encoded := toRow_of_decodeJob decoded
  have duration : candidate.policy.leaseDuration = row.leaseDuration := by
    rw [← encoded]
    rfl
  have sameId : candidate.id = row.jobId := by
    rw [← encoded]
    rfl
  have sameRevision : candidate.revision = row.revision := by
    rw [← encoded]
    rfl
  constructor
  · intro clock
    have bounds := (JobRow.check_iff.mp (middle.jobs.checked row middleMem)).1.2.2.2.2.2.1
    rcases claimJob_total owner middleMem (wellFormed row middleMem) (room row middleMem)
      first.selected ⟨by omega, clock⟩ with ⟨next, lease, updated, leaseRead⟩
    refine ⟨lease, next, ?_, ?_⟩
    · simp only [claimNext, bind_eq_ok]
      refine ⟨_, exhausted, ?_⟩
      simp only [read, bind_eq_ok, require_eq_ok, decide_eq_true_eq, pure_eq_ok]
      refine ⟨candidate, decoded, (), by rwa [duration], (1, next), ?_, (), rfl, lease, ?_, rfl⟩
      · rw [sameId, sameRevision, duration]
        exact updated
      · rw [sameId]
        exact leaseRead
    · have write : ∀ {other : JobRow}, other ∈ store.jobs.rows →
          Table.rewrite
          (claimJob owner (now.get + row.leaseDuration) now.get row.jobId row.revision)
            (other.expire now.get) = row.afterClaim owner now.get other := by
        intro other otherMem
        unfold JobRow.afterClaim
        split
        · rename_i same
          rw [eq_of_jobId_eq otherMem first.mem same, kept, Table.rewrite_of_selects]
          · rfl
          · simp [claimJob, first.selected]
        · rename_i differs
          refine Table.rewrite_of_not_selects ?_
          simp [claimJob, JobRow.expire_jobId, differs]
      have updatedRows := (updateJobs_spec updated).2.1
      rw [rows, List.map_map] at updatedRows
      have nextRows : next.jobs.rows = store.jobs.rows.map (row.afterClaim owner now.get) :=
        updatedRows.trans (List.map_congr_left fun other otherMem => write otherMem)
      rcases readLease_spec leaseRead with ⟨leaseId, owned, stored, storedMem, leaseFrom⟩
      have claimedMem : row.claimed owner now.get ∈ next.jobs.rows := by
        rw [nextRows]
        exact List.mem_map.mpr ⟨row, first.mem, by simp [JobRow.afterClaim]⟩
      have same : stored = row.claimed owner now.get := by
        have encoded := congrArg JobRow.jobId (toRow_of_decodeJob leaseFrom.decoded)
        exact eq_of_jobId_eq storedMem claimedMem (encoded.symm.trans leaseId)
      exact ⟨(updateJobs_spec exhausted).1.trans (updateJobs_spec updated).1, nextRows,
        same ▸ leaseFrom, owned⟩
  · intro overflow
    have refused : ¬now.get + candidate.policy.leaseDuration ≤ maxInteger := by
      rw [duration]
      exact Nat.not_le.mpr overflow
    simp [claimNext, exhausted, read, decoded, require, refused, bind, Except.bind]

end Claiming

end Rhi
