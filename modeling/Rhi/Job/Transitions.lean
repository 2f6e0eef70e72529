import Rhi.Job.Rows

/-!
# What the statements can do to the job table

Every operation rewrites some rows, each by one statement, and `schedule` may append one ready
row.  The lemmas of this module say so for each operation; everything else about runs of the store
is derived from them without looking at an operation again.
-/

namespace Rhi

open Relational Transactional

/-- Why a job row was rewritten. -/
inductive StepKind where
  | supersession
  | expiry
  | claim
  | renewal
  | failure
  | completion
deriving DecidableEq, Repr

/-- The rewriting of one row by one statement that selected it. -/
inductive RowStep (row : JobRow) : StepKind → JobRow → Prop where
  | supersede (now : Nat) (id : JobId) (revision : Nat)
      (selected : (supersedeJob now id revision).selects row = true) :
      RowStep row .supersession ((supersedeJob now id revision).write row)
  | expire (now : Nat) (due : row.exhaustible now = true) :
      RowStep row .expiry ((exhaustExpired now []).write row)
  | claim (owner : LeaseOwner) (expires now : Nat) (id : JobId) (revision : Nat)
      (selected : (claimJob owner expires now id revision).selects row = true) :
      RowStep row .claim ((claimJob owner expires now id revision).write row)
  | renew (expires now : Nat) (lease : Lease)
      (selected : (renewJob expires now lease).selects row = true) :
      RowStep row .renewal ((renewJob expires now lease).write row)
  | retry (next now : Nat) (lease : Lease)
      (selected : (retryJob next now lease).selects row = true) :
      RowStep row .failure ((retryJob next now lease).write row)
  | exhaust (now : Nat) (lease : Lease) (selected : (exhaustJob now lease).selects row = true) :
      RowStep row .failure ((exhaustJob now lease).write row)
  | complete (now : Nat) (lease : Lease)
      (selected : (completeJob now lease).selects row = true) :
      RowStep row .completion ((completeJob now lease).write row)

/-- A rewriting the update trigger let through. -/
structure RowChange (old : JobRow) (kind : StepKind) (new : JobRow) : Prop where
  step : RowStep old kind new
  guarded : reconciliationJobs.guardUpdate old new = true

namespace RowChange

variable {old new : JobRow} {kind : StepKind}

theorem sameIdentity (change : RowChange old kind new) : old.SameIdentity new := by
  have guarded := change.guarded
  simp only [reconciliationJobs, Bool.and_eq_true, decide_eq_true_eq] at guarded
  exact guarded.1.1.1

theorem revision_succ (change : RowChange old kind new) : new.revision = old.revision + 1 := by
  have guarded := change.guarded
  simp only [reconciliationJobs, Bool.and_eq_true, beq_iff_eq] at guarded
  exact guarded.1.1.2

theorem updatedAt_le (change : RowChange old kind new) : old.updatedAt ≤ new.updatedAt := by
  have guarded := change.guarded
  simp only [reconciliationJobs, Bool.and_eq_true, decide_eq_true_eq] at guarded
  exact guarded.1.2

/-- Only active rows are ever rewritten, although the trigger would let an exhausted one be
superseded. -/
theorem active (change : RowChange old kind new) : old.state.active = true := by
  cases change.step with
  | supersede now id revision selected =>
      simp only [supersedeJob, Bool.and_eq_true] at selected
      exact selected.2
  | expire now due =>
      simp only [JobRow.exhaustible, Bool.and_eq_true, beq_iff_eq] at due
      simp [due.1.1.1, JobState.active]
  | claim owner expires now id revision selected =>
      simp only [claimJob, JobRow.claimable, Bool.and_eq_true, Bool.or_eq_true,
        beq_iff_eq] at selected
      rcases selected.2.2 with ready | leased
      · simp [ready.1, JobState.active]
      · simp [leased.1, JobState.active]
  | renew expires now lease selected =>
      simp only [renewJob, JobRow.heldBy, Bool.and_eq_true, beq_iff_eq] at selected
      simp [selected.1.1.1.1.2, JobState.active]
  | retry next now lease selected =>
      simp only [retryJob, JobRow.heldBy, Bool.and_eq_true, beq_iff_eq] at selected
      simp [selected.1.1.1.1.2, JobState.active]
  | exhaust now lease selected =>
      simp only [exhaustJob, JobRow.heldBy, Bool.and_eq_true, beq_iff_eq] at selected
      simp [selected.1.1.1.1.2, JobState.active]
  | complete now lease selected =>
      simp only [completeJob, JobRow.heldBy, Bool.and_eq_true, beq_iff_eq] at selected
      simp [selected.1.1.1.2, JobState.active]

theorem state_of_expiry (change : RowChange old .expiry new) : new.state = .exhausted := by
  cases change.step
  rfl

variable [Sha256]

theorem wellFormed (change : RowChange old kind new)
    (checked : reconciliationJobs.check old = true) (before : old.WellFormed) :
    new.WellFormed := by
  rcases change.sameIdentity with ⟨sameJob, sameTrade, sameGeneration, samePolicy, -⟩
  have identity : new.jobId = Rhi.jobId new.tradeId new.inputGeneration new.evidencePolicy := by
    rw [sameJob, sameTrade, sameGeneration, samePolicy]
    exact before.identity
  have failures : old.failureCount ≤ old.attemptCount :=
    (JobRow.check_iff.mp checked).1.2.2.2.1
  have attempts := before.attempts
  cases change.step with
  | supersede now id revision selected =>
      exact ⟨identity, attempts, by simp [supersedeJob], by simp [supersedeJob]⟩
  | expire now due =>
      exact ⟨identity, attempts, by simp [exhaustExpired], by simp [exhaustExpired]⟩
  | claim owner expires now id revision selected =>
      simp only [claimJob, JobRow.claimable, Bool.and_eq_true, decide_eq_true_eq] at selected
      have room : old.attemptCount < old.maxAttempts := selected.2.1.1
      refine ⟨identity, ?_, ?_, ?_⟩
      · simp only [claimJob]
        omega
      · intro _
        simp only [claimJob]
        omega
      · simpa [claimJob] using owner.nonzero
  | renew expires now lease selected =>
      exact ⟨identity, attempts, before.pending, before.owner⟩
  | retry next now lease selected =>
      exact ⟨identity, attempts, by simp [retryJob], by simp [retryJob]⟩
  | exhaust now lease selected =>
      exact ⟨identity, attempts, by simp [exhaustJob], by simp [exhaustJob]⟩
  | complete now lease selected =>
      exact ⟨identity, attempts, by simp [completeJob], by simp [completeJob]⟩

end RowChange

/-- Every row stayed as it was or changed by one statement of an allowed kind. -/
def JobsRewritten (allowed : List StepKind) (before after : List JobRow) : Prop :=
  ∃ rewriting : JobRow → JobRow, after = before.map rewriting ∧
    ∀ row ∈ before, rewriting row = row ∨ ∃ kind ∈ allowed, RowChange row kind (rewriting row)

namespace JobsRewritten

theorem refl (allowed : List StepKind) (rows : List JobRow) : JobsRewritten allowed rows rows :=
  ⟨id, by simp, fun _ _ => .inl rfl⟩

theorem weaken {allowed larger : List StepKind} {before after : List JobRow}
    (rewritten : JobsRewritten allowed before after) (included : allowed ⊆ larger) :
    JobsRewritten larger before after := by
  rcases rewritten with ⟨rewriting, same, changed⟩
  refine ⟨rewriting, same, ?_⟩
  intro row rowMem
  rcases changed row rowMem with unchanged | ⟨kind, kindMem, change⟩
  · exact .inl unchanged
  · exact .inr ⟨kind, included kindMem, change⟩

variable {allowed : List StepKind} {before after : List JobRow}

theorem successor (rewritten : JobsRewritten allowed before after) {row : JobRow}
    (rowMem : row ∈ before) : ∃ next ∈ after, next.jobId = row.jobId ∧
      (next = row ∨ ∃ kind ∈ allowed, RowChange row kind next) := by
  rcases rewritten with ⟨rewriting, rfl, changed⟩
  refine ⟨rewriting row, List.mem_map_of_mem rowMem, ?_⟩
  rcases changed row rowMem with unchanged | ⟨kind, kindMem, change⟩
  · rw [unchanged]
    exact ⟨rfl, .inl rfl⟩
  · exact ⟨change.sameIdentity.1, .inr ⟨kind, kindMem, change⟩⟩

theorem origin (rewritten : JobsRewritten allowed before after) {row : JobRow}
    (rowMem : row ∈ after) : ∃ old ∈ before, old.jobId = row.jobId ∧
      (row = old ∨ ∃ kind ∈ allowed, RowChange old kind row) := by
  rcases rewritten with ⟨rewriting, rfl, changed⟩
  rcases List.mem_map.mp rowMem with ⟨old, oldMem, rfl⟩
  rcases changed old oldMem with unchanged | ⟨kind, kindMem, change⟩
  · exact ⟨old, oldMem, by rw [unchanged], .inl unchanged⟩
  · exact ⟨old, oldMem, change.sameIdentity.1.symm, .inr ⟨kind, kindMem, change⟩⟩

theorem activeCount_le (rewritten : JobsRewritten allowed before after) :
    activeCount after ≤ activeCount before := by
  rcases rewritten with ⟨rewriting, rfl, changed⟩
  unfold activeCount
  rw [List.countP_map]
  apply List.countP_mono_left
  intro row rowMem active
  rcases changed row rowMem with unchanged | ⟨kind, -, change⟩
  · simp only [Function.comp_apply, unchanged] at active
    exact active
  · exact change.active

end JobsRewritten

theorem wellFormed_of_rewritten [Sha256] {jobs : Table reconciliationJobs} {allowed : List StepKind}
    {after : List JobRow} (rewritten : JobsRewritten allowed jobs.rows after)
    (before : ∀ row ∈ jobs.rows, row.WellFormed) : ∀ row ∈ after, row.WellFormed := by
  intro row rowMem
  rcases rewritten.origin rowMem with ⟨old, oldMem, -, same | ⟨kind, -, change⟩⟩
  · rw [same]
    exact before old oldMem
  · exact change.wellFormed (jobs.checked old oldMem) (before old oldMem)

/-- The store after a change of the job table alone. -/
def JobsOnly (before after : Store) : Prop :=
  after = { before with jobs := after.jobs }

theorem JobsOnly.refl (store : Store) : JobsOnly store store := rfl

theorem JobsOnly.trans {first second third : Store} (left : JobsOnly first second)
    (right : JobsOnly second third) : JobsOnly first third := by
  unfold JobsOnly at left right ⊢
  rw [right, left]

section Updates

theorem updateJobs_spec {store next : Store} {change : Change JobRow} {affected : Nat}
    (updated : store.updateJobs change = .ok (affected, next)) :
    JobsOnly store next ∧
      next.jobs.rows = store.jobs.rows.map (Table.rewrite change) ∧
      affected = store.jobs.rows.countP change.selects ∧
      ∀ row ∈ store.jobs.rows, change.selects row = true →
        reconciliationJobs.guardUpdate row (change.write row) = true := by
  simp only [Store.updateJobs, bind_eq_ok, orError_eq_ok, pure_eq_ok] at updated
  rcases updated with ⟨⟨jobs, count⟩, result, same⟩
  cases same
  rcases Table.update_spec result with ⟨rows, counted, accepted⟩
  refine ⟨rfl, rows, counted, ?_⟩
  intro row rowMem selected
  exact (accepted row rowMem selected).2

theorem rewritten_of_updateJobs {store next : Store} {change : Change JobRow} {affected : Nat}
    {kind : StepKind} (updated : store.updateJobs change = .ok (affected, next))
    (steps : ∀ row ∈ store.jobs.rows, change.selects row = true →
      RowStep row kind (change.write row)) :
    JobsRewritten [kind] store.jobs.rows next.jobs.rows := by
  rcases updateJobs_spec updated with ⟨-, rows, -, guarded⟩
  refine ⟨Table.rewrite change, rows, ?_⟩
  intro row rowMem
  cases selected : change.selects row with
  | false => exact .inl (Table.rewrite_of_not_selects selected)
  | true =>
      rw [Table.rewrite_of_selects selected]
      exact .inr ⟨kind, by simp, steps row rowMem selected, guarded row rowMem selected⟩

theorem reconciliationJobs_clash_comm (left right : JobRow) :
    reconciliationJobs.clash left right = reconciliationJobs.clash right left := by
  simp only [reconciliationJobs]
  rw [Bool.eq_iff_iff]
  simp only [Bool.or_eq_true, Bool.and_eq_true, beq_iff_eq]
  constructor
  · rintro (same | ⟨⟨left, right⟩, same⟩)
    · exact .inl same.symm
    · exact .inr ⟨⟨right, left⟩, same.symm⟩
  · rintro (same | ⟨⟨left, right⟩, same⟩)
    · exact .inl same.symm
    · exact .inr ⟨⟨right, left⟩, same.symm⟩

/-- A job identity names one row. -/
theorem eq_of_jobId_eq {jobs : Table reconciliationJobs} {left right : JobRow}
    (leftMem : left ∈ jobs.rows) (rightMem : right ∈ jobs.rows)
    (same : left.jobId = right.jobId) : left = right :=
  Table.eq_of_clash reconciliationJobs_clash_comm leftMem rightMem
    (by simp [reconciliationJobs, same])

/-- At most one active job per trade. -/
theorem eq_of_active {jobs : Table reconciliationJobs} {left right : JobRow}
    (leftMem : left ∈ jobs.rows) (rightMem : right ∈ jobs.rows)
    (leftActive : left.state.active = true) (rightActive : right.state.active = true)
    (same : left.tradeId = right.tradeId) : left = right :=
  Table.eq_of_clash reconciliationJobs_clash_comm leftMem rightMem
    (by simp [reconciliationJobs, leftActive, rightActive, same])

theorem exhaustible_of_selects {jobs : Table reconciliationJobs} {now : Nat} {row : JobRow}
    (rowMem : row ∈ jobs.rows) (selected : (exhaustExpired now jobs.rows).selects row = true) :
    row.exhaustible now = true := by
  simp only [exhaustExpired, List.any_eq_true, beq_iff_eq] at selected
  rcases selected with ⟨stored, storedMem, same⟩
  have sorted := List.mem_of_mem_take storedMem
  rw [List.mem_insertionSort, List.mem_filter] at sorted
  rw [eq_of_jobId_eq rowMem sorted.1 same.symm]
  exact sorted.2

theorem mem_of_readClaimable {now : Nat} {rows : List JobRow} {row : JobRow}
    (read : readClaimable now rows = some row) : row ∈ rows ∧ row.claimable now = true := by
  have sorted := List.mem_of_head? read
  rw [List.mem_insertionSort, List.mem_filter] at sorted
  exact sorted

theorem exhaustExpired_rewritten {store next : Store} {now affected : Nat}
    (updated : store.updateJobs (exhaustExpired now store.jobs.rows) = .ok (affected, next)) :
    JobsRewritten [.expiry] store.jobs.rows next.jobs.rows :=
  rewritten_of_updateJobs updated fun _ rowMem selected =>
    .expire now (exhaustible_of_selects rowMem selected)

theorem claimJob_rewritten {store next : Store} {owner : LeaseOwner} {expires now affected : Nat}
    {id : JobId} {revision : Nat}
    (updated : store.updateJobs (claimJob owner expires now id revision) = .ok (affected, next)) :
    JobsRewritten [.claim] store.jobs.rows next.jobs.rows :=
  rewritten_of_updateJobs updated fun _ _ selected => .claim owner expires now id revision selected

/-- A row that expired for good is not claimed in the same transaction. -/
theorem rewritten_claim_after_expiry {before middle after : List JobRow}
    (expired : JobsRewritten [.expiry] before middle)
    (claimed : JobsRewritten [.claim] middle after) :
    JobsRewritten [.expiry, .claim] before after := by
  rcases expired with ⟨expire, rfl, expiry⟩
  rcases claimed with ⟨claim, rfl, claiming⟩
  refine ⟨claim ∘ expire, by simp, ?_⟩
  intro row rowMem
  have step := claiming (expire row) (List.mem_map_of_mem rowMem)
  rcases expiry row rowMem with unchanged | ⟨kind, kindMem, change⟩
  · simp only [Function.comp_apply, unchanged] at step ⊢
    rcases step with same | ⟨kind, kindMem, change⟩
    · exact .inl same
    · exact .inr ⟨kind, by simp_all, change⟩
  · rcases step with same | ⟨kind', -, change'⟩
    · simp only [Function.comp_apply, same]
      exact .inr ⟨kind, by simp_all, change⟩
    · have active := change'.active
      simp only [List.mem_singleton] at kindMem
      subst kindMem
      rw [change.state_of_expiry] at active
      cases active

/-- A statement that affected one row selected one. -/
theorem exists_selected_of_affected {store next : Store} {change : Change JobRow}
    {affected : Nat} (updated : store.updateJobs change = .ok (affected, next))
    (single : (affected == 1) = true) :
    ∃ row ∈ store.jobs.rows, change.selects row = true := by
  have counted := (updateJobs_spec updated).2.2.1
  have positive : 0 < store.jobs.rows.countP change.selects := by
    simp only [beq_iff_eq] at single
    omega
  exact List.countP_pos_iff.mp positive

theorem failureStatement_spec {lease : Lease} {now : UnixMilliseconds} {delay : RetryDelay}
    {statement : Change JobRow} (chosen : failureStatement lease now delay = .ok statement)
    {row : JobRow} (selected : statement.selects row = true) :
    row.heldBy lease = true ∧ RowStep row .failure (statement.write row) := by
  unfold failureStatement at chosen
  split at chosen
  · cases chosen
    refine ⟨?_, .exhaust now.get lease selected⟩
    simp only [exhaustJob, Bool.and_eq_true] at selected
    exact selected.1.1
  · simp only [bind_eq_ok, require_eq_ok, pure_eq_ok] at chosen
    rcases chosen with ⟨-, -, rfl⟩
    refine ⟨?_, .retry _ now.get lease selected⟩
    simp only [retryJob, Bool.and_eq_true] at selected
    exact selected.1.1

theorem insertJob_spec {store next : Store} {row : JobRow}
    (inserted : store.insertJob row = .ok next) :
    JobsOnly store next ∧ next.jobs.rows = store.jobs.rows ++ [row] ∧
      ∀ stored ∈ store.jobs.rows, stored.jobId ≠ row.jobId := by
  simp only [Store.insertJob, bind_eq_ok, require_eq_ok, orError_eq_ok, pure_eq_ok] at inserted
  rcases inserted with ⟨-, -, jobs, added, rfl⟩
  rcases Table.insert_spec added with ⟨rows, -, -, apart⟩
  refine ⟨rfl, rows, ?_⟩
  intro stored storedMem same
  have unclashing := apart stored storedMem
  simp [reconciliationJobs, same] at unclashing

end Updates

end Rhi
