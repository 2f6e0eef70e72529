import Rhi.Evidence.Effects
import Rhi.Job.Effects

/-!
# Job operations that succeed

When the clock is in range and no revision is about to overflow, nothing in a well-formed table can
make a claim fail, nor the recording of a failure by the holder of the current lease, nor the
scheduling of a trade whose active job is not newer than the clock.
-/

namespace Rhi

open Relational Transactional

section Statements

/-- What a rewriting must respect to pass the checks and the trigger of the table. -/
theorem accepts_of_shaped {row : JobRow} (new : JobRow)
    (checked : reconciliationJobs.check row = true)
    (identity : row.SameIdentity new) (revised : new.revision = row.revision + 1)
    (room : row.revision < maxInteger)
    (counts : new.attemptCount ≤ 100 ∧ new.failureCount ≤ new.attemptCount)
    (later : row.updatedAt ≤ new.updatedAt ∧ new.updatedAt ≤ maxInteger)
    (shaped : new.Shaped) (allowed : JobRow.transitionAllowed row.state new.state = true) :
    reconciliationJobs.check new = true ∧ reconciliationJobs.guardUpdate row new = true := by
  rcases (JobRow.check_iff.mp checked).1 with ⟨generation, revision, -, -, maximum, duration,
    renewal, initial, backoff, created, updated, shorter, ordered⟩
  constructor
  · refine JobRow.check_iff.mpr ⟨?_, shaped⟩
    rcases identity with ⟨-, -, sameGeneration, -, sameMaximum, sameDuration, sameRenewal,
      sameInitial, sameBackoff, sameCreated⟩
    unfold JobRow.Bounded
    rw [sameGeneration, sameMaximum, sameDuration, sameRenewal, sameInitial, sameBackoff,
      sameCreated, revised]
    exact ⟨generation, ⟨by omega, by omega⟩, counts.1, counts.2, maximum, duration, renewal,
      initial, backoff, created, ⟨updated.1.trans later.1, later.2⟩, shorter, ordered⟩
  · simp only [reconciliationJobs, Bool.and_eq_true, decide_eq_true_eq, beq_iff_eq]
    exact ⟨⟨⟨identity, revised⟩, later.1⟩, allowed⟩

/-- A statement that rewrites only active rows keeps the unique keys. -/
theorem apart_of_active {jobs : Table reconciliationJobs} {change : Change JobRow}
    (active : ∀ row ∈ jobs.rows, change.selects row = true →
      row.state.active = true ∧ row.SameIdentity (change.write row)) :
    (jobs.rows.map (Table.rewrite change)).Pairwise
      fun left right => reconciliationJobs.clash left right = false := by
  have kept : ∀ row ∈ jobs.rows, (Table.rewrite change row).jobId = row.jobId ∧
      (Table.rewrite change row).tradeId = row.tradeId ∧
      ((Table.rewrite change row).state.active = true → row.state.active = true) := by
    intro row rowMem
    cases selected : change.selects row with
    | false =>
        rw [Table.rewrite_of_not_selects selected]
        exact ⟨rfl, rfl, id⟩
    | true =>
        rw [Table.rewrite_of_selects selected]
        rcases active row rowMem selected with ⟨wasActive, identity⟩
        exact ⟨identity.1, identity.2.1, fun _ => wasActive⟩
  rw [List.pairwise_map]
  refine jobs.distinct.imp_of_mem ?_
  intro left right leftMem rightMem apart
  rcases kept left leftMem with ⟨leftId, leftTrade, leftActive⟩
  rcases kept right rightMem with ⟨rightId, rightTrade, rightActive⟩
  by_contra clashing
  simp only [reconciliationJobs, Bool.not_eq_false, Bool.or_eq_true, Bool.and_eq_true,
    beq_iff_eq, leftId, rightId, leftTrade, rightTrade] at clashing
  have collides : reconciliationJobs.clash left right = true := by
    simp only [reconciliationJobs, Bool.or_eq_true, Bool.and_eq_true, beq_iff_eq]
    rcases clashing with same | ⟨⟨leftNow, rightNow⟩, same⟩
    · exact .inl same
    · exact .inr ⟨⟨leftActive leftNow, rightActive rightNow⟩, same⟩
  rw [apart] at collides
  cases collides

/-- An update of active rows that no check refuses succeeds. -/
theorem updateJobs_total {store : Store} {change : Change JobRow}
    (accepts : ∀ row ∈ store.jobs.rows, change.selects row = true →
      row.state.active = true ∧ reconciliationJobs.check (change.write row) = true ∧
        reconciliationJobs.guardUpdate row (change.write row) = true) :
    ∃ next, store.updateJobs change = .ok (store.jobs.rows.countP change.selects, next) := by
  have identities : ∀ row ∈ store.jobs.rows, change.selects row = true →
      row.state.active = true ∧ row.SameIdentity (change.write row) := by
    intro row rowMem selected
    rcases accepts row rowMem selected with ⟨active, -, guarded⟩
    simp only [reconciliationJobs, Bool.and_eq_true, decide_eq_true_eq] at guarded
    exact ⟨active, guarded.1.1.1⟩
  rcases Table.update_of_accepted (fun row rowMem selected => (accepts row rowMem selected).2)
    (apart_of_active identities) with ⟨jobs, updated, -⟩
  exact ⟨{ store with jobs }, by simp [Store.updateJobs, updated, orError, bind, Except.bind,
    pure, Except.pure]⟩

/-- A statement that names a job and selects its row rewrites this row alone. -/
theorem updateJobs_of_selected {store : Store} {change : Change JobRow} {row : JobRow}
    (keyed : ∀ stored, change.selects stored = true → stored.jobId = row.jobId)
    (rowMem : row ∈ store.jobs.rows) (selected : change.selects row = true)
    (active : row.state.active = true)
    (accepted : reconciliationJobs.check (change.write row) = true ∧
      reconciliationJobs.guardUpdate row (change.write row) = true) :
    ∃ next, store.updateJobs change = .ok (1, next) ∧ change.write row ∈ next.jobs.rows := by
  have accepts : ∀ stored ∈ store.jobs.rows, change.selects stored = true →
      stored.state.active = true ∧ reconciliationJobs.check (change.write stored) = true ∧
        reconciliationJobs.guardUpdate stored (change.write stored) = true := by
    intro stored storedMem chosen
    rw [eq_of_jobId_eq storedMem rowMem (keyed stored chosen)]
    exact ⟨active, accepted⟩
  have single : store.jobs.rows.countP change.selects = 1 := by
    refine (Table.countP_eq_one_iff ?_).mpr ⟨row, rowMem, selected⟩
    intro left right leftSelected rightSelected
    simp [reconciliationJobs, keyed left leftSelected, keyed right rightSelected]
  rcases updateJobs_total accepts with ⟨next, updated⟩
  rw [single] at updated
  refine ⟨next, updated, ?_⟩
  rw [(updateJobs_spec updated).2.1, ← Table.rewrite_of_selects selected]
  exact List.mem_map_of_mem rowMem

end Statements

section Reading

variable [Sha256]

/-- Every row of a store is well formed, and its revision may grow twice more. -/
structure JobsReady (store : Store) : Prop where
  wellFormed : ∀ row ∈ store.jobs.rows, row.WellFormed
  room : ∀ row ∈ store.jobs.rows, row.revision + 2 ≤ maxInteger

/-- A stored job is read by its identity. -/
theorem readJob_of_mem {store : Store} {row : JobRow} (rowMem : row ∈ store.jobs.rows)
    (wellFormed : row.WellFormed) :
    ∃ job, readJob store row.jobId = .ok (some job) ∧ decodeJob row = .ok job := by
  rcases decodeJob_of_wellFormed (store.jobs.checked row rowMem) wellFormed with ⟨job, decoded⟩
  refine ⟨job, ?_, decoded⟩
  unfold readJob
  cases found : store.jobs.rows.find? fun stored => stored.jobId == row.jobId with
  | none =>
      have absent := List.find?_eq_none.mp found row rowMem
      simp at absent
  | some stored =>
      have same : stored.jobId = row.jobId := by
        simpa using List.find?_some found
      rw [eq_of_jobId_eq (List.mem_of_find?_eq_some found) rowMem same]
      simp [decoded, Except.map]

theorem readLease_of_mem {store : Store} {row : JobRow} (owner : LeaseOwner)
    (rowMem : row ∈ store.jobs.rows) (wellFormed : row.WellFormed) (leased : row.state = .leased) :
    ∃ lease, readLease store row.jobId owner = .ok lease := by
  rcases readJob_of_mem rowMem wellFormed with ⟨job, read, decoded⟩
  have encoded := toRow_of_decodeJob decoded
  have jobLeased : job.state = .leased := by
    rw [← leased, ← encoded]
    rfl
  have shaped := (JobRow.check_iff.mp (store.jobs.checked row rowMem)).2
  unfold JobRow.Shaped at shaped
  rw [leased] at shaped
  rcases shaped with ⟨-, -, -, -, expires, expiry, -⟩
  have jobExpires : ∃ instant, job.leaseExpires = some instant := by
    rw [← encoded] at expiry
    rcases Option.map_eq_some_iff.mp expiry with ⟨instant, present, -⟩
    exact ⟨instant, present⟩
  rcases jobExpires with ⟨instant, present⟩
  refine ⟨⟨job, owner, instant⟩, ?_⟩
  simp only [readLease, bind_eq_ok, orError_eq_ok, require_eq_ok, pure_eq_ok, beq_iff_eq]
  exact ⟨_, read, job, rfl, (), jobLeased, instant, present, rfl⟩

/-- Rows that a statement rewrote once are still well formed, with room for one more revision. -/
theorem JobsReady.after {store next : Store} {allowed : List StepKind} (ready : JobsReady store)
    (rewritten : JobsRewritten allowed store.jobs.rows next.jobs.rows) :
    (∀ row ∈ next.jobs.rows, row.WellFormed) ∧
      ∀ row ∈ next.jobs.rows, row.revision + 1 ≤ maxInteger := by
  refine ⟨wellFormed_of_rewritten rewritten ready.wellFormed, ?_⟩
  intro row rowMem
  rcases rewritten.origin rowMem with ⟨old, oldMem, -, same | ⟨kind, -, change⟩⟩
  · have room := ready.room old oldMem
    rw [same]
    omega
  · have room := ready.room old oldMem
    rw [change.revision_succ]
    omega

end Reading

section Claiming

variable [Sha256]

/-- Retiring the expired leases of the last attempts succeeds. -/
theorem exhaustExpired_total {store : Store} (ready : JobsReady store) (now : UnixMilliseconds) :
    ∃ affected next,
      store.updateJobs (exhaustExpired now.get store.jobs.rows) = .ok (affected, next) := by
  refine ⟨_, updateJobs_total ?_⟩
  intro row rowMem selected
  have due := exhaustible_of_selects rowMem selected
  simp only [JobRow.exhaustible, Bool.and_eq_true, beq_iff_eq, decide_eq_true_eq] at due
  rcases due with ⟨⟨⟨leased, -⟩, -⟩, earlier⟩
  have checked := store.jobs.checked row rowMem
  rcases JobRow.check_iff.mp checked with ⟨bounded, shaped⟩
  have room := ready.room row rowMem
  unfold JobRow.Shaped at shaped
  rw [leased] at shaped
  refine ⟨by rw [leased]; rfl, accepts_of_shaped _ checked ⟨rfl, rfl, rfl, rfl, rfl, rfl, rfl, rfl,
    rfl, rfl⟩ rfl (by omega) ⟨bounded.2.2.1, le_rfl⟩ ⟨earlier, now.bounded⟩ ?_ ?_⟩
  · exact ⟨shaped.2.2.1, rfl, rfl⟩
  · rw [leased]
    rfl

/-- Claiming a claimable row succeeds. -/
theorem claimJob_total {store : Store} {row : JobRow} {now : UnixMilliseconds} {expires : Nat}
    (owner : LeaseOwner) (rowMem : row ∈ store.jobs.rows) (wellFormed : row.WellFormed)
    (room : row.revision + 1 ≤ maxInteger) (claimable : row.claimable now.get = true)
    (clock : 1 ≤ expires ∧ expires ≤ maxInteger) :
    ∃ next lease, store.updateJobs (claimJob owner expires now.get row.jobId row.revision) =
      .ok (1, next) ∧ readLease next row.jobId owner = .ok lease := by
  have selected : (claimJob owner expires now.get row.jobId row.revision).selects row = true := by
    simp [claimJob, claimable]
  have keyed : ∀ stored, (claimJob owner expires now.get row.jobId row.revision).selects stored =
      true → stored.jobId = row.jobId := by
    intro stored chosen
    simp only [claimJob, Bool.and_eq_true, beq_iff_eq] at chosen
    exact chosen.1.1
  have checked := store.jobs.checked row rowMem
  have bounded := (JobRow.check_iff.mp checked).1
  simp only [JobRow.claimable, Bool.and_eq_true, decide_eq_true_eq] at claimable
  have active : row.state.active = true := by
    rcases Bool.or_eq_true_iff.mp claimable.2 with due | due
    · simp only [Bool.and_eq_true, beq_iff_eq] at due
      rw [due.1]
      rfl
    · simp only [Bool.and_eq_true, beq_iff_eq] at due
      rw [due.1]
      rfl
  have accepted : reconciliationJobs.check
        ((claimJob owner expires now.get row.jobId row.revision).write row) = true ∧
      reconciliationJobs.guardUpdate row
        ((claimJob owner expires now.get row.jobId row.revision).write row) = true := by
    have attempts := claimable.1.1
    have maximum := bounded.2.2.2.2.1.2
    have failures := bounded.2.2.2.1
    refine accepts_of_shaped _ checked ⟨rfl, rfl, rfl, rfl, rfl, rfl, rfl, rfl, rfl, rfl⟩ rfl
      (by omega) ⟨?_, ?_⟩ ⟨claimable.1.2, now.bounded⟩ ?_ ?_
    · simp only [claimJob]
      omega
    · simp only [claimJob]
      omega
    · exact ⟨by simp [claimJob], attempts, rfl, ⟨_, rfl⟩, expires, rfl, clock⟩
    · cases state : row.state with
      | ready | leased => rfl
      | exhausted | superseded | completed =>
          rw [state] at active
          cases active
  rcases updateJobs_of_selected keyed rowMem selected active accepted with
    ⟨next, updated, claimedMem⟩
  have claimedFormed : ((claimJob owner expires now.get row.jobId row.revision).write
      row).WellFormed :=
    RowChange.wellFormed ⟨.claim owner expires now.get row.jobId row.revision selected,
      accepted.2⟩ checked wellFormed
  rcases readLease_of_mem owner claimedMem claimedFormed rfl with ⟨lease, read⟩
  exact ⟨next, lease, updated, read⟩

/-- `claim_next` succeeds while the clock leaves room for a lease. -/
theorem claimNext_total {store : Store} (ready : JobsReady store) (owner : LeaseOwner)
    {now : UnixMilliseconds} (clock : now.get + 300000 ≤ maxInteger) :
    ∃ claimed next, claimNext owner now store = .ok (claimed, next) := by
  rcases exhaustExpired_total ready now with ⟨affected, middle, exhausted⟩
  rcases ready.after (exhaustExpired_rewritten exhausted) with ⟨wellFormed, room⟩
  cases read : readClaimable now.get middle.jobs.rows with
  | none =>
      refine ⟨none, middle, ?_⟩
      simp only [claimNext, bind_eq_ok]
      exact ⟨_, exhausted, by simp [read, pure, Except.pure]⟩
  | some row =>
      rcases mem_of_readClaimable read with ⟨rowMem, claimable⟩
      rcases decodeJob_of_wellFormed (middle.jobs.checked row rowMem) (wellFormed row rowMem) with
        ⟨candidate, decoded⟩
      have encoded := toRow_of_decodeJob decoded
      have duration : candidate.policy.leaseDuration = row.leaseDuration := by
        rw [← encoded]
        rfl
      have bounds := (JobRow.check_iff.mp (middle.jobs.checked row rowMem)).1.2.2.2.2.2.1
      have expires : 1 ≤ now.get + candidate.policy.leaseDuration ∧
          now.get + candidate.policy.leaseDuration ≤ maxInteger := by
        rw [duration]
        constructor
        · omega
        · omega
      have sameId : candidate.id = row.jobId := by
        rw [← encoded]
        rfl
      have sameRevision : candidate.revision = row.revision := by
        rw [← encoded]
        rfl
      rcases claimJob_total owner rowMem (wellFormed row rowMem) (room row rowMem) claimable
        expires with ⟨next, lease, updated, leaseRead⟩
      refine ⟨some lease, next, ?_⟩
      simp only [claimNext, bind_eq_ok]
      refine ⟨_, exhausted, ?_⟩
      simp only [read, bind_eq_ok, require_eq_ok, decide_eq_true_eq, pure_eq_ok]
      refine ⟨candidate, decoded, (), expires.2, (1, next), ?_, (), rfl, lease, ?_, rfl⟩
      · rw [sameId, sameRevision]
        exact updated
      · rw [sameId]
        exact leaseRead

end Claiming

section Failing

variable [Sha256]

/-- A lease value carries the owner of the row it was read from. -/
def Lease.Owned (lease : Lease) : Prop :=
  lease.job.leaseOwner = some lease.owner

/-- The row of a current lease is held by it. -/
theorem heldBy_of_readFrom {lease : Lease} {row : JobRow} (owned : lease.Owned)
    (read : lease.ReadFrom row) : row.heldBy lease = true := by
  rw [← toRow_of_decodeJob read.decoded]
  have leased := read.leased
  have expires := read.expires
  unfold Lease.Owned at owned
  simp [JobRow.heldBy, Job.toRow, leased, expires, owned]

/-- The statement that records a failure selects the row of the current lease, and the table
accepts what it writes. -/
theorem failureStatement_total {lease : Lease} {row : JobRow} {now : UnixMilliseconds}
    {delay : RetryDelay} (owned : lease.Owned) (read : lease.ReadFrom row)
    (checked : reconciliationJobs.check row = true) (wellFormed : row.WellFormed)
    (room : row.revision + 1 ≤ maxInteger) (ordered : row.updatedAt ≤ now.get)
    (unexpired : now.get < lease.leaseExpires.get) (clock : now.get + delay.get ≤ maxInteger) :
    ∃ statement, failureStatement lease now delay = .ok statement ∧
      statement.selects row = true ∧ RowChange row .failure (statement.write row) ∧
      reconciliationJobs.check (statement.write row) = true := by
  have held := heldBy_of_readFrom owned read
  have encoded := toRow_of_decodeJob read.decoded
  have sameAttempts : lease.job.attemptCount = row.attemptCount := by
    rw [← encoded]
    rfl
  have sameMaximum : lease.job.policy.maxAttempts = row.maxAttempts := by
    rw [← encoded]
    rfl
  have leased : row.state = .leased := by
    rw [← encoded]
    exact read.leased
  have running : row.expiredAt now.get = false := by
    rw [← encoded]
    simp [JobRow.expiredAt, Job.toRow, read.expires, unexpired]
  rcases JobRow.check_iff.mp checked with ⟨bounded, shaped⟩
  have pending := wellFormed.pending leased
  have attempts := bounded.2.2.1
  by_cases last : lease.job.policy.maxAttempts ≤ lease.job.attemptCount
  · have selected : (exhaustJob now.get lease).selects row = true := by
      simp only [exhaustJob, held, running, Bool.not_false, Bool.and_true, Bool.true_and,
        decide_eq_true_eq]
      omega
    have accepted := accepts_of_shaped ((exhaustJob now.get lease).write row) checked
      ⟨rfl, rfl, rfl, rfl, rfl, rfl, rfl, rfl, rfl, rfl⟩ rfl (by omega)
      ⟨attempts, by simp only [exhaustJob]; omega⟩ ⟨ordered, now.bounded⟩ ⟨rfl, rfl, rfl⟩
      (by rw [leased]; rfl)
    exact ⟨_, if_pos last, selected, ⟨.exhaust now.get lease selected, accepted.2⟩, accepted.1⟩
  · have selected : (retryJob (now.get + delay.get) now.get lease).selects row = true := by
      simp only [retryJob, held, running, Bool.not_false, Bool.and_true, Bool.true_and,
        decide_eq_true_eq]
      omega
    have fewer : row.attemptCount < row.maxAttempts := by omega
    have accepted := accepts_of_shaped
      ((retryJob (now.get + delay.get) now.get lease).write row) checked
      ⟨rfl, rfl, rfl, rfl, rfl, rfl, rfl, rfl, rfl, rfl⟩ rfl (by omega)
      ⟨attempts, by simp only [retryJob]; omega⟩ ⟨ordered, now.bounded⟩
      ⟨fewer, ⟨_, rfl, clock⟩, rfl, rfl⟩ (by rw [leased]; rfl)
    refine ⟨retryJob (now.get + delay.get) now.get lease, ?_, selected,
      ⟨.retry (now.get + delay.get) now.get lease selected, accepted.2⟩, accepted.1⟩
    simp [failureStatement, last, require, clock, bind, Except.bind, pure, Except.pure]

/-- The holder of the current lease can record a failure. -/
theorem recordFailureJob_total {store : Store} {lease : Lease} {row : JobRow}
    {now : UnixMilliseconds} {delay : RetryDelay} (rowMem : row ∈ store.jobs.rows)
    (owned : lease.Owned) (read : lease.ReadFrom row) (wellFormed : row.WellFormed)
    (room : row.revision + 1 ≤ maxInteger) (ordered : row.updatedAt ≤ now.get)
    (unexpired : now.get < lease.leaseExpires.get) (clock : now.get + delay.get ≤ maxInteger) :
    ∃ job next, recordFailureJob lease now delay store = .ok (job, next) := by
  have checked := store.jobs.checked row rowMem
  rcases failureStatement_total owned read checked wellFormed room ordered unexpired clock with
    ⟨statement, chosen, selected, change, accepted⟩
  have sameId : row.jobId = lease.job.id := by
    rw [← toRow_of_decodeJob read.decoded]
    rfl
  have keyed : ∀ stored, statement.selects stored = true → stored.jobId = row.jobId := by
    intro stored storedSelected
    have held := (failureStatement_spec chosen storedSelected).1
    simp only [JobRow.heldBy, Bool.and_eq_true, beq_iff_eq] at held
    rw [held.1.1.1.1, sameId]
  rcases updateJobs_of_selected keyed rowMem selected change.active ⟨accepted, change.guarded⟩ with
    ⟨next, updated, failedMem⟩
  have failedId : (statement.write row).jobId = lease.job.id := by
    rw [change.sameIdentity.1, sameId]
  rcases readJob_of_mem failedMem (change.wellFormed checked wellFormed) with ⟨job, found, -⟩
  rw [failedId] at found
  refine ⟨job, next, ?_⟩
  simp only [recordFailureJob, bind_eq_ok, require_eq_ok, orError_eq_ok, pure_eq_ok]
  exact ⟨statement, chosen, (1, next), updated, (), rfl, some job, found, job, rfl, rfl⟩

end Failing

section Scheduling

variable [Sha256]

/-- The active job of a trade, if there is one, is read. -/
theorem readActiveJob_total {store : Store} (wellFormed : ∀ row ∈ store.jobs.rows, row.WellFormed)
    (trade : TradeId) :
    (readActiveJob store trade = .ok none ∧
        ∀ row ∈ store.jobs.rows, row.tradeId = trade → row.state.active = false) ∨
      ∃ row ∈ store.jobs.rows, row.tradeId = trade ∧ row.state.active = true ∧
        ∃ job, decodeJob row = .ok job ∧ readActiveJob store trade = .ok (some job) := by
  have single : (store.jobs.rows.filter fun row =>
      row.tradeId == trade && row.state.active).length ≤ 1 := by
    rw [← List.countP_eq_length_filter]
    refine Table.countP_le_one store.jobs.distinct ?_
    intro left right leftSelected rightSelected
    simp only [Bool.and_eq_true, beq_iff_eq] at leftSelected rightSelected
    simp [reconciliationJobs, leftSelected, rightSelected]
  unfold readActiveJob
  cases found : store.jobs.rows.filter fun row => row.tradeId == trade && row.state.active with
  | nil =>
      refine .inl ⟨rfl, ?_⟩
      intro row rowMem sameTrade
      have skipped := List.filter_eq_nil_iff.mp found row rowMem
      simpa [sameTrade] using skipped
  | cons row rest =>
      rw [found] at single
      have alone : rest = [] := by
        simpa using single
      have rowMem : row ∈ store.jobs.rows.filter fun row =>
          row.tradeId == trade && row.state.active := by
        rw [found]
        exact List.mem_cons_self
      rw [List.mem_filter] at rowMem
      simp only [Bool.and_eq_true, beq_iff_eq] at rowMem
      rcases decodeJob_of_wellFormed (store.jobs.checked row rowMem.1)
        (wellFormed row rowMem.1) with ⟨job, decoded⟩
      refine .inr ⟨row, rowMem.1, rowMem.2.1, rowMem.2.2, job, decoded, ?_⟩
      simp [alone, decoded, Except.map]

/-- The active job of an older generation is superseded, and leaves none behind. -/
theorem supersedeActive_total {store : Store} (ready : JobsReady store) {trade : TradeId}
    {dirty : DirtyRow} {now : UnixMilliseconds}
    (older : ∀ row ∈ store.jobs.rows, row.tradeId = trade → row.state.active = true →
      row.inputGeneration < dirty.generation ∧ row.updatedAt ≤ now.get) :
    ∃ next, supersedeActive store trade dirty now.get = .ok next ∧
      ∀ row ∈ next.jobs.rows, row.tradeId = trade → row.state.active = false := by
  rcases readActiveJob_total ready.wellFormed trade with
    ⟨read, inactive⟩ | ⟨row, rowMem, sameTrade, active, job, decoded, read⟩
  · refine ⟨store, ?_, inactive⟩
    simp [supersedeActive, read, bind, Except.bind, pure, Except.pure]
  · have encoded := toRow_of_decodeJob decoded
    rcases older row rowMem sameTrade active with ⟨behind, ordered⟩
    have selected : (supersedeJob now.get row.jobId row.revision).selects row = true := by
      simp [supersedeJob, active]
    have keyed : ∀ stored, (supersedeJob now.get row.jobId row.revision).selects stored = true →
        stored.jobId = row.jobId := by
      intro stored chosen
      simp only [supersedeJob, Bool.and_eq_true, beq_iff_eq] at chosen
      exact chosen.1.1
    have checked := store.jobs.checked row rowMem
    have bounded := (JobRow.check_iff.mp checked).1
    have room := ready.room row rowMem
    have accepted := accepts_of_shaped ((supersedeJob now.get row.jobId row.revision).write row)
      checked ⟨rfl, rfl, rfl, rfl, rfl, rfl, rfl, rfl, rfl, rfl⟩ rfl (by omega)
      ⟨bounded.2.2.1, bounded.2.2.2.1⟩ ⟨ordered, now.bounded⟩ ⟨rfl, rfl, rfl⟩ (by
        cases state : row.state with
        | ready | leased => rfl
        | exhausted | superseded | completed =>
            rw [state] at active
            cases active)
    rcases updateJobs_of_selected keyed rowMem selected active accepted with ⟨next, updated, -⟩
    refine ⟨next, ?_, ?_⟩
    · simp only [supersedeActive, read, bind_eq_ok, Except.ok.injEq, exists_eq_left']
      rw [show job.id = row.jobId by rw [← encoded]; rfl,
        show job.revision = row.revision by rw [← encoded]; rfl,
        show job.inputGeneration = row.inputGeneration by rw [← encoded]; rfl]
      simp only [require_eq_ok, decide_eq_true_eq, pure_eq_ok]
      exact ⟨(), behind, (1, next), updated, (), rfl, rfl⟩
    · intro stored storedMem storedTrade
      rw [(updateJobs_spec updated).2.1] at storedMem
      rcases List.mem_map.mp storedMem with ⟨old, oldMem, rfl⟩
      cases chosen : (supersedeJob now.get row.jobId row.revision).selects old with
      | true =>
          rw [Table.rewrite_of_selects chosen]
          rfl
      | false =>
          rw [Table.rewrite_of_not_selects chosen] at storedTrade ⊢
          by_contra stillActive
          rw [Bool.not_eq_false] at stillActive
          have same := eq_of_active oldMem rowMem stillActive active
            (storedTrade.trans sameTrade.symm)
          rw [same, selected] at chosen
          cases chosen

/-- The table accepts a fresh job. -/
theorem readyRow_checked {trade : TradeId} {dirty : DirtyRow} (policy : JobPolicy)
    (now : UnixMilliseconds) (bounds : 1 ≤ dirty.generation ∧ dirty.generation ≤ maxInteger) :
    reconciliationJobs.check (readyRow trade dirty policy now.get) = true := by
  rcases policy.valid with ⟨-, duration, renewal, shorter, attempts, initial, maximum, ordered⟩
  refine JobRow.check_iff.mpr ⟨?_, attempts.1, ⟨_, rfl, now.bounded⟩, rfl, rfl⟩
  have first : 1 ≤ maxInteger := by decide
  exact ⟨bounds, ⟨le_rfl, first⟩, Nat.zero_le _, le_rfl, attempts,
    duration, renewal, initial, maximum, now.bounded, ⟨le_rfl, now.bounded⟩, shorter, ordered⟩

/-- Inserting the job of a dirty trade that has no active job succeeds. -/
theorem insertJob_total {store : Store} {trade : TradeId} {dirty : DirtyRow} (policy : JobPolicy)
    (now : UnixMilliseconds) (read : readDirty store trade = some dirty)
    (fresh : ∀ row ∈ store.jobs.rows,
      row.jobId ≠ jobId trade dirty.generation dirty.evidencePolicy)
    (inactive : ∀ row ∈ store.jobs.rows, row.tradeId = trade → row.state.active = false) :
    ∃ next, store.insertJob (readyRow trade dirty policy now.get) = .ok next ∧
      ∃ job, readJob next (jobId trade dirty.generation dirty.evidencePolicy) = .ok (some job) := by
  rcases readDirty_spec read with ⟨dirtyMem, dirtyTrade⟩
  have bounds : 1 ≤ dirty.generation ∧ dirty.generation ≤ maxInteger := by
    have checked := store.dirty.checked dirty dirtyMem
    simp only [tradeDirtyGenerations, decide_eq_true_eq] at checked
    exact ⟨checked.1, checked.2.1⟩
  have referenced : (store.dirty.rows.any fun row =>
      row.tradeId == (readyRow trade dirty policy now.get).tradeId) = true :=
    List.any_eq_true.mpr ⟨dirty, dirtyMem, by simp [readyRow, dirtyTrade]⟩
  have apart : ∀ stored ∈ store.jobs.rows,
      reconciliationJobs.clash stored (readyRow trade dirty policy now.get) = false := by
    intro stored storedMem
    have idle := inactive stored storedMem
    simp only [reconciliationJobs, readyRow, Bool.or_eq_false_iff, beq_eq_false_iff_ne]
    refine ⟨fresh stored storedMem, ?_⟩
    by_cases same : stored.tradeId = trade
    · simp [idle same]
    · simp [same]
  rcases Table.insert_of_accepted (readyRow_checked policy now bounds) rfl apart with
    ⟨jobs, inserted, rows⟩
  refine ⟨{ store with jobs }, ?_, ?_⟩
  · simp only [Store.insertJob, bind_eq_ok, require_eq_ok, orError_eq_ok, pure_eq_ok]
    exact ⟨(), referenced, jobs, inserted, rfl⟩
  · have insertedMem : readyRow trade dirty policy now.get ∈
        ({ store with jobs } : Store).jobs.rows := by
      rw [rows]
      exact List.mem_append_right _ (List.mem_singleton_self _)
    rcases readJob_of_mem insertedMem (readyRow_wellFormed _ _ _ _) with ⟨job, found, -⟩
    exact ⟨job, found⟩

/-- `schedule` succeeds when every job of the trade is behind its dirty row and not newer than the
clock, and the queue has room. -/
theorem schedule_total {store : Store} (ready : JobsReady store) {trade : TradeId}
    {policy : JobPolicy} {now : UnixMilliseconds} {dirty : DirtyRow}
    (read : readDirty store trade = some dirty)
    (named : ∀ row ∈ store.jobs.rows,
      row.jobId = jobId trade dirty.generation dirty.evidencePolicy →
        row.tradeId = trade ∧ row.inputGeneration = dirty.generation ∧
          row.evidencePolicy = dirty.evidencePolicy)
    (behind : ∀ row ∈ store.jobs.rows, row.tradeId = trade →
      row.inputGeneration ≤ dirty.generation ∧
        (row.inputGeneration = dirty.generation → row.evidencePolicy = dirty.evidencePolicy))
    (ordered : ∀ row ∈ store.jobs.rows, row.tradeId = trade → row.state.active = true →
      row.updatedAt ≤ now.get)
    (room : activeCount store.jobs.rows < policy.queueCapacity) :
    ∃ outcome next, schedule trade policy now store = .ok (outcome, next) := by
  by_cases known : ∃ row ∈ store.jobs.rows,
      row.jobId = jobId trade dirty.generation dirty.evidencePolicy
  · rcases known with ⟨row, rowMem, sameId⟩
    rcases named row rowMem sameId with ⟨sameTrade, sameGeneration, samePolicy⟩
    rcases readJob_of_mem rowMem (ready.wellFormed row rowMem) with ⟨job, found, decoded⟩
    have encoded := toRow_of_decodeJob decoded
    rw [sameId] at found
    refine ⟨⟨job, false⟩, store, ?_⟩
    simp only [schedule, bind_eq_ok, orError_eq_ok]
    refine ⟨dirty, read, some job, found, ?_⟩
    simp only [bind_eq_ok, require_eq_ok, pure_eq_ok, Bool.and_eq_true, beq_iff_eq]
    refine ⟨(), ⟨⟨?_, ?_⟩, ?_⟩, trivial⟩
    · rw [← sameTrade, ← encoded]
      rfl
    · rw [← sameGeneration, ← encoded]
      rfl
    · rw [← samePolicy, ← encoded]
      rfl
  · have fresh : ∀ row ∈ store.jobs.rows,
        row.jobId ≠ jobId trade dirty.generation dirty.evidencePolicy := by
      intro row rowMem sameId
      exact known ⟨row, rowMem, sameId⟩
    have absent : readJob store (jobId trade dirty.generation dirty.evidencePolicy) =
        .ok none := by
      unfold readJob
      rw [List.find?_eq_none.mpr fun row rowMem => by simpa using fresh row rowMem]
    have older : ∀ row ∈ store.jobs.rows, row.tradeId = trade → row.state.active = true →
        row.inputGeneration < dirty.generation ∧ row.updatedAt ≤ now.get := by
      intro row rowMem sameTrade active
      rcases behind row rowMem sameTrade with ⟨notAhead, samePolicy⟩
      refine ⟨lt_of_le_of_ne notAhead ?_, ordered row rowMem sameTrade active⟩
      intro same
      apply fresh row rowMem
      rw [(ready.wellFormed row rowMem).identity, sameTrade, same, samePolicy same]
    rcases supersedeActive_total ready older with ⟨middle, superseded, inactive⟩
    rcases supersedeActive_spec superseded with ⟨only, rewritten⟩
    have middleRead : readDirty middle trade = some dirty := by
      rw [only]
      exact read
    have middleFresh : ∀ row ∈ middle.jobs.rows,
        row.jobId ≠ jobId trade dirty.generation dirty.evidencePolicy := by
      intro row rowMem
      rcases rewritten.origin rowMem with ⟨old, oldMem, sameId, -⟩
      rw [← sameId]
      exact fresh old oldMem
    have middleRoom : activeCount middle.jobs.rows < policy.queueCapacity :=
      lt_of_le_of_lt rewritten.activeCount_le room
    rcases insertJob_total policy now middleRead middleFresh inactive with
      ⟨next, inserted, job, found⟩
    refine ⟨⟨job, true⟩, next, ?_⟩
    simp only [schedule, bind_eq_ok, orError_eq_ok]
    refine ⟨dirty, read, none, absent, ?_⟩
    simp only [bind_eq_ok, require_eq_ok, orError_eq_ok, pure_eq_ok, decide_eq_true_eq]
    exact ⟨middle, superseded, (), middleRoom, next, inserted, some job, found, job, rfl, rfl⟩

end Scheduling

end Rhi
