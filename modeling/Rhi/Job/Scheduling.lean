import Rhi.Job.Totality

/-!
# What a schedule call does

A call for the generation that already has its job only reads it.  Any other call retires the
active job of the trade before it counts the queue, so that replacing a job needs no free place.
-/

namespace Rhi

open Relational Transactional

section Superseding

/-- The row after the active job of a trade was superseded. -/
def JobRow.supersededFor (trade : TradeId) (now : Nat) (row : JobRow) : JobRow :=
  if row.tradeId = trade ∧ row.state.active = true then
    { row with
      state := .superseded, revision := row.revision + 1, nextAttempt := none,
      leaseOwner := none, leaseExpires := none, updatedAt := now }
  else
    row

theorem JobRow.supersededFor_jobId (trade : TradeId) (now : Nat) (row : JobRow) :
    (row.supersededFor trade now).jobId = row.jobId := by
  unfold JobRow.supersededFor
  split <;> rfl

variable [Sha256]

theorem readActiveJob_eq_none {store : Store} {trade : TradeId}
    (read : readActiveJob store trade = .ok none) :
    ∀ row ∈ store.jobs.rows, row.tradeId = trade → row.state.active = false := by
  intro row rowMem sameTrade
  by_contra active
  have present : row ∈ store.jobs.rows.filter fun row => row.tradeId == trade && row.state.active :=
    List.mem_filter.mpr ⟨rowMem, by simpa [sameTrade] using active⟩
  unfold readActiveJob at read
  split at read
  · rename_i empty
    rcases List.take_eq_nil_iff.mp empty with impossible | empty
    · cases impossible
    · rw [empty] at present
      cases present
  · rename_i single alone
    cases decoded : decodeJob single with
    | error error => simp [decoded, Except.map] at read
    | ok job => simp [decoded, Except.map] at read
  · cases read

theorem readActiveJob_eq_some {store : Store} {trade : TradeId} {job : Job}
    (read : readActiveJob store trade = .ok (some job)) :
    ∃ row ∈ store.jobs.rows, row.tradeId = trade ∧ row.state.active = true ∧
      decodeJob row = .ok job := by
  unfold readActiveJob at read
  split at read
  · cases read
  · rename_i row single
    have present :
        row ∈ store.jobs.rows.filter fun row => row.tradeId == trade && row.state.active :=
      List.mem_of_mem_take (single ▸ List.mem_singleton_self row)
    rcases List.mem_filter.mp present with ⟨rowMem, chosen⟩
    simp only [Bool.and_eq_true, beq_iff_eq] at chosen
    cases decoded : decodeJob row with
    | error error => simp [decoded, Except.map] at read
    | ok value =>
        simp only [decoded, Except.map, Except.ok.injEq, Option.some.injEq] at read
        exact ⟨row, rowMem, chosen.1, chosen.2, by rw [decoded, read]⟩
  · cases read

/-- Exactly the active job of the trade is superseded, and its generation is older. -/
theorem supersedeActive_rows {store next : Store} {trade : TradeId} {dirty : DirtyRow} {now : Nat}
    (done : supersedeActive store trade dirty now = .ok next) :
    next.jobs.rows = store.jobs.rows.map (JobRow.supersededFor trade now) ∧
      ∀ row ∈ store.jobs.rows, row.tradeId = trade → row.state.active = true →
        row.inputGeneration < dirty.generation := by
  simp only [supersedeActive, bind_eq_ok] at done
  rcases done with ⟨active, read, done⟩
  cases active with
  | none =>
      simp only [pure_eq_ok] at done
      subst done
      have inactive := readActiveJob_eq_none read
      constructor
      · refine (List.map_id _).symm.trans (List.map_congr_left fun row rowMem => ?_)
        unfold JobRow.supersededFor
        rw [if_neg]
        · rfl
        · rintro ⟨sameTrade, active⟩
          rw [inactive row rowMem sameTrade] at active
          cases active
      · intro row rowMem sameTrade active
        rw [inactive row rowMem sameTrade] at active
        cases active
  | some job =>
      simp only [bind_eq_ok, require_eq_ok, pure_eq_ok, decide_eq_true_eq] at done
      rcases done with ⟨-, older, ⟨affected, last⟩, updated, -, single, rfl⟩
      rcases readActiveJob_eq_some read with ⟨active, activeMem, sameTrade, isActive, decoded⟩
      have encoded := toRow_of_decodeJob decoded
      have alone : ∀ row ∈ store.jobs.rows, row.tradeId = trade → row.state.active = true →
          row = active := fun row rowMem rowTrade rowActive =>
        eq_of_active rowMem activeMem rowActive isActive (rowTrade.trans sameTrade.symm)
      constructor
      · rw [(updateJobs_spec updated).2.1]
        refine List.map_congr_left fun row rowMem => ?_
        unfold JobRow.supersededFor
        split
        · rename_i chosen
          rw [alone row rowMem chosen.1 chosen.2, Table.rewrite_of_selects]
          · rfl
          · simp [supersedeJob, ← encoded, Job.toRow, ← encoded ▸ isActive]
        · rename_i other
          refine Table.rewrite_of_not_selects ?_
          by_contra selected
          simp only [supersedeJob, Bool.not_eq_false, Bool.and_eq_true, beq_iff_eq] at selected
          have sameId : row.jobId = active.jobId := by
            rw [selected.1.1, ← encoded]
            rfl
          have same := eq_of_jobId_eq rowMem activeMem sameId
          exact other (by rw [same]; exact ⟨sameTrade, isActive⟩)
      · intro row rowMem rowTrade rowActive
        rw [alone row rowMem rowTrade rowActive, ← encoded]
        exact older

omit [Sha256] in
/-- Superseding an active job makes a place in the queue. -/
theorem activeCount_supersededFor {rows : List JobRow} {trade : TradeId} (now : Nat) {row : JobRow}
    (rowMem : row ∈ rows) (sameTrade : row.tradeId = trade) (active : row.state.active = true) :
    activeCount (rows.map (JobRow.supersededFor trade now)) < activeCount rows := by
  have kept : ∀ other : JobRow, (other.supersededFor trade now).state.active = true →
      other.state.active = true ∧ other.supersededFor trade now = other := by
    intro other
    unfold JobRow.supersededFor
    split
    · intro superseded
      cases superseded
    · exact fun stillActive => ⟨stillActive, rfl⟩
  have retired : (row.supersededFor trade now).state.active = false := by
    rw [JobRow.supersededFor, if_pos ⟨sameTrade, active⟩]
    rfl
  rcases List.append_of_mem rowMem with ⟨before, after, rfl⟩
  have fewer : ∀ part : List JobRow,
      part.countP ((fun row => row.state.active) ∘ JobRow.supersededFor trade now) ≤
        part.countP fun row => row.state.active :=
    fun part => List.countP_mono_left fun other _ stillActive => (kept other stillActive).1
  have first := fewer before
  have last := fewer after
  simp only [activeCount, List.countP_map, List.countP_append, List.countP_cons,
    Function.comp_apply, retired, active] at first last ⊢
  simp only [Bool.false_eq_true, if_false, if_true]
  omega

end Superseding

section Creating

variable [Sha256]

/-- What a call that created a job did. -/
structure ScheduleCreated (trade : TradeId) (policy : JobPolicy) (now : Nat) (dirty : DirtyRow)
    (store next : Store) (job : Job) : Prop where
  only : JobsOnly store next
  rows : next.jobs.rows = store.jobs.rows.map (JobRow.supersededFor trade now) ++
    [readyRow trade dirty policy now]
  older : ∀ row ∈ store.jobs.rows, row.tradeId = trade → row.state.active = true →
    row.inputGeneration < dirty.generation
  room : activeCount (store.jobs.rows.map (JobRow.supersededFor trade now)) < policy.queueCapacity
  fresh : ∀ row ∈ store.jobs.rows, row.jobId ≠ (readyRow trade dirty policy now).jobId
  job_eq : job.toRow = readyRow trade dirty policy now

theorem schedule_cases {trade : TradeId} {policy : JobPolicy} {now : UnixMilliseconds}
    {store next : Store} {outcome : ScheduleOutcome}
    (done : schedule trade policy now store = .ok (outcome, next)) :
    ∃ dirty, readDirty store trade = some dirty ∧
      ((outcome.created = false ∧ next = store) ∨
        (outcome.created = true ∧
          ScheduleCreated trade policy now.get dirty store next outcome.job)) ∧
      readJob next (jobId trade dirty.generation dirty.evidencePolicy) = .ok (some outcome.job) ∧
      outcome.job.tradeId = trade ∧ outcome.job.inputGeneration = dirty.generation ∧
      outcome.job.policyDigest = dirty.evidencePolicy := by
  simp only [schedule, bind_eq_ok, orError_eq_ok] at done
  rcases done with ⟨dirty, dirtyRead, existing, existingRead, done⟩
  refine ⟨dirty, dirtyRead, ?_⟩
  cases existing with
  | some job =>
      simp only [bind_eq_ok, require_eq_ok, pure_eq_ok, Bool.and_eq_true, beq_iff_eq,
        Prod.mk.injEq] at done
      rcases done with ⟨-, ⟨⟨sameTrade, sameGeneration⟩, samePolicy⟩, rfl, rfl⟩
      exact ⟨.inl ⟨rfl, rfl⟩, existingRead, sameTrade, sameGeneration, samePolicy⟩
  | none =>
      simp only [bind_eq_ok, require_eq_ok, orError_eq_ok, pure_eq_ok, decide_eq_true_eq,
        Prod.mk.injEq] at done
      rcases done with ⟨middle, superseded, -, room, last, inserted, _, read, job, rfl, rfl, rfl⟩
      rcases supersedeActive_rows superseded with ⟨middleRows, older⟩
      rcases insertJob_spec inserted with ⟨insertedOnly, rows, fresh⟩
      rcases readJob_eq_some read with ⟨row, rowMem, sameId, decoded⟩
      have readyMem : readyRow trade dirty policy now.get ∈ last.jobs.rows := by
        rw [rows]
        exact List.mem_append_right _ (List.mem_singleton_self _)
      have encoded := toRow_of_decodeJob decoded
      rw [eq_of_jobId_eq rowMem readyMem sameId] at encoded
      refine ⟨.inr ⟨rfl, ?_⟩, read, ?_, ?_, ?_⟩
      · exact {
          only := (supersedeActive_spec superseded).1.trans insertedOnly
          rows := by rw [rows, middleRows]
          older
          room := by rwa [← middleRows]
          fresh := fun row rowMem => by
            have apart := fresh (row.supersededFor trade now.get)
              (by rw [middleRows]; exact List.mem_map_of_mem rowMem)
            rwa [JobRow.supersededFor_jobId] at apart
          job_eq := encoded }
      · exact congrArg JobRow.tradeId encoded
      · exact congrArg JobRow.inputGeneration encoded
      · exact congrArg JobRow.evidencePolicy encoded

/-- A call that succeeded only reads its job when it is repeated. -/
theorem schedule_again {trade : TradeId} {policy : JobPolicy} {now : UnixMilliseconds}
    {store next : Store} {outcome : ScheduleOutcome}
    (done : schedule trade policy now store = .ok (outcome, next)) (policy' : JobPolicy)
    (now' : UnixMilliseconds) :
    schedule trade policy' now' next = .ok (⟨outcome.job, false⟩, next) := by
  rcases schedule_cases done with ⟨dirty, read, found | ⟨-, created⟩, job, sameTrade,
    sameGeneration, samePolicy⟩
  all_goals
    have still : readDirty next trade = some dirty := by
      first
        | rw [found.2]; exact read
        | rw [created.only]; exact read
    simp only [schedule, bind_eq_ok, orError_eq_ok]
    refine ⟨dirty, still, some outcome.job, job, ?_⟩
    simp [require, sameTrade, sameGeneration, samePolicy, bind, Except.bind, pure, Except.pure]

omit [Sha256] in
theorem optionalColumn_ne_queueFull {Column Value : Type} {decode : Column → Option Value}
    {column : Option Column} : optionalColumn decode column ≠ .error .queueFull := by
  cases column with
  | none => simp [optionalColumn]
  | some present =>
      cases decoded : decode present with
      | none => simp [optionalColumn, decoded, orError, Except.map]
      | some value => simp [optionalColumn, decoded, orError, Except.map]

theorem decodeJob_ne_queueFull (row : JobRow) : decodeJob row ≠ .error .queueFull := by
  intro failed
  simp only [decodeJob, bind_eq_error, require_eq_error, orError_eq_error, pure_ne_error,
    optionalColumn_ne_queueFull, reduceCtorEq, and_false, exists_false, or_false] at failed

theorem readJob_ne_queueFull (store : Store) (id : JobId) :
    readJob store id ≠ .error .queueFull := by
  unfold readJob
  split
  · simp
  · rename_i row found
    have decodes := decodeJob_ne_queueFull row
    cases decoded : decodeJob row with
    | ok job => simp [Except.map]
    | error failure =>
        rw [decoded] at decodes
        simpa [Except.map] using decodes

theorem supersedeActive_ne_queueFull (store : Store) (trade : TradeId) (dirty : DirtyRow)
    (now : Nat) : supersedeActive store trade dirty now ≠ .error .queueFull := by
  have reads : readActiveJob store trade ≠ .error .queueFull := by
    unfold readActiveJob
    split
    · simp
    · rename_i row alone
      have decodes := decodeJob_ne_queueFull row
      cases decoded : decodeJob row with
      | ok job => simp [Except.map]
      | error failure =>
          rw [decoded] at decodes
          simpa [Except.map] using decodes
    · simp
  intro full
  simp only [supersedeActive, bind_eq_error] at full
  rcases full with failed | ⟨active, -, full⟩
  · exact reads failed
  · cases active with
    | none => exact pure_ne_error full
    | some job =>
        simp only [bind_eq_error, require_eq_error, Store.updateJobs, orError_eq_error,
          pure_ne_error, reduceCtorEq, and_false, exists_false, or_false] at full

/-- Replacing an active job never finds the queue full. -/
theorem schedule_ne_queueFull {trade : TradeId} {policy : JobPolicy} {now : UnixMilliseconds}
    {store : Store} {row : JobRow} (rowMem : row ∈ store.jobs.rows)
    (sameTrade : row.tradeId = trade) (active : row.state.active = true)
    (bounded : activeCount store.jobs.rows ≤ policy.queueCapacity) :
    schedule trade policy now store ≠ .error .queueFull := by
  intro full
  simp only [schedule, bind_eq_error, orError_eq_error, orError_eq_ok] at full
  rcases full with ⟨-, impossible⟩ | ⟨dirty, -, failed | ⟨existing, -, full⟩⟩
  · cases impossible
  · exact readJob_ne_queueFull _ _ failed
  · cases existing with
    | some job =>
        simp only [bind_eq_error, require_eq_error, pure_ne_error, reduceCtorEq, and_false,
          exists_false, or_false] at full
    | none =>
        simp only [bind_eq_error, require_eq_error, require_eq_ok, orError_eq_error,
          decide_eq_true_eq, decide_eq_false_iff_not, pure_ne_error, Store.insertJob] at full
        rcases full with failed | ⟨middle, superseded, ⟨crowded, -⟩ | ⟨-, room, rest⟩⟩
        · exact supersedeActive_ne_queueFull _ _ _ _ failed
        · rw [(supersedeActive_rows superseded).1] at crowded
          have fewer := activeCount_supersededFor now.get rowMem sameTrade active
          omega
        · simp only [reduceCtorEq, and_false, exists_false, or_false, false_or] at rest
          rcases rest with ⟨last, -, failed⟩
          exact readJob_ne_queueFull _ _ failed

end Creating

end Rhi
