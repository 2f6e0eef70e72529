import Mathlib.Logic.Relation
import Rhi.Admin.Journal
import Rhi.Lib.Transition

/-!
# Runs of the journal

A call prunes what has expired, admits one operation, completes one, or does the first two and the
last at once.  What these three steps keep, every run keeps.
-/

namespace Rhi

open Relational Transactional

section Pruning

theorem adminOperations_clash_comm (left right : OperationRow) :
    adminOperations.clash left right = adminOperations.clash right left := by
  simp [adminOperations, Bool.beq_comm]

/-- An operation identity names one row. -/
theorem eq_of_operationId {journal : Table adminOperations} {left right : OperationRow}
    (leftMem : left ∈ journal.rows) (rightMem : right ∈ journal.rows)
    (same : left.operationId = right.operationId) : left = right :=
  Table.eq_of_clash adminOperations_clash_comm leftMem rightMem (by simp [adminOperations, same])

theorem mem_of_mem_pruneExpired {now : Nat} {journal : Table adminOperations} {row : OperationRow}
    (rowMem : row ∈ (pruneExpired now journal).rows) : row ∈ journal.rows :=
  (Table.mem_delete.mp rowMem).1

/-- Only expired rows are pruned. -/
theorem expired_of_pruned {now : Nat} {journal : Table adminOperations} {row : OperationRow}
    (rowMem : row ∈ journal.rows) (pruned : row ∉ (pruneExpired now journal).rows) :
    row.expired now = true := by
  have selected := not_imp_not.mpr (fun skipped => Table.mem_delete.mpr ⟨rowMem, skipped⟩) pruned
  simp only [Bool.not_eq_false, List.any_eq_true, beq_iff_eq] at selected
  rcases selected with ⟨other, otherMem, same⟩
  have sorted := List.mem_of_mem_take otherMem
  rw [List.mem_insertionSort, List.mem_filter] at sorted
  rw [← eq_of_operationId sorted.1 rowMem same]
  exact sorted.2

theorem mem_pruneExpired_of_unexpired {now : Nat} {journal : Table adminOperations}
    {row : OperationRow} (rowMem : row ∈ journal.rows) (unexpired : row.expired now = false) :
    row ∈ (pruneExpired now journal).rows := by
  by_contra pruned
  rw [expired_of_pruned rowMem pruned] at unexpired
  cases unexpired

/-- A journal within its bounds loses every expired row. -/
theorem unexpired_of_mem_pruneExpired {now : Nat} {journal : Table adminOperations}
    {row : OperationRow} (bounded : journal.rows.length ≤ pruneLimit)
    (rowMem : row ∈ (pruneExpired now journal).rows) : row.expired now = false := by
  rcases Table.mem_delete.mp rowMem with ⟨stored, skipped⟩
  by_contra expired
  have every : ((journal.rows.filter (·.expired now)).insertionSort OperationRow.before).take
      pruneLimit = (journal.rows.filter (·.expired now)).insertionSort OperationRow.before := by
    refine List.take_of_length_le ?_
    rw [List.length_insertionSort]
    exact (List.length_filter_le _ _).trans bounded
  simp only [every, List.any_eq_false, List.mem_insertionSort, List.mem_filter] at skipped
  exact skipped row ⟨stored, by simpa using expired⟩ (by simp)

theorem length_pruneExpired_le (now : Nat) (journal : Table adminOperations) :
    (pruneExpired now journal).rows.length ≤ journal.rows.length :=
  List.length_filter_le _ _

theorem countP_pruneExpired_le (now : Nat) (journal : Table adminOperations)
    (selects : OperationRow → Bool) :
    (pruneExpired now journal).rows.countP selects ≤ journal.rows.countP selects :=
  List.Sublist.countP_le List.filter_sublist

end Pruning

section Counting

theorem countP_add_countP (rows : List OperationRow) :
    rows.countP (fun row => row.state == .completed) +
      rows.countP (fun row => row.state == .prepared) = rows.length := by
  induction rows with
  | nil => rfl
  | cons row rest ih =>
      simp only [List.countP_cons, List.length_cons]
      cases row.state <;> simp <;> omega

end Counting

section Steps

variable [Sha256]

/-- What a token names in the journal. -/
def PreparedOperation.row (prepared : PreparedOperation) : OperationRow where
  operationId := prepared.operationId
  route := prepared.route
  requestSha256 := prepared.requestSha256
  state := .prepared
  responseModel := none
  responseSha256 := none
  preparedAt := prepared.preparedAt.get
  completedAt := none
  expiresAt := none

/-- The row is still there, possibly completed. -/
def OperationRow.Becomes (row later : OperationRow) : Prop :=
  later = row ∨ (row.state = .prepared ∧ later.state = .completed ∧
    later.operationId = row.operationId ∧ later.route = row.route ∧
    later.requestSha256 = row.requestSha256 ∧ later.preparedAt = row.preparedAt)

omit [Sha256] in
theorem OperationRow.Becomes.trans {first second third : OperationRow}
    (left : first.Becomes second) (right : second.Becomes third) : first.Becomes third := by
  rcases left with rfl | ⟨prepared, completed, same⟩
  · exact right
  · rcases right with rfl | ⟨isPrepared, -⟩
    · exact .inr ⟨prepared, completed, same⟩
    · rw [completed] at isPrepared
      cases isPrepared

/-- The steps that the journal is changed by. -/
inductive JournalStep (now : Nat) : Table adminOperations → Table adminOperations → Prop where
  | prune (journal : Table adminOperations) : JournalStep now journal (pruneExpired now journal)
  | prepare {journal next : Table adminOperations} {binding : RequestBinding}
      (mutation : binding.route.isMutation = true)
      (room : journal.rows.length < completedLimit ∧
        (journal.rows.countP fun row => row.state == .prepared) < preparedLimit)
      (rows : next.rows = journal.rows ++ [binding.row now]) : JournalStep now journal next
  | complete {journal next : Table adminOperations} {prepared : PreparedOperation}
      {response : List UInt8}
      (stored : prepared.row ∈ journal.rows)
      (rows : next.rows = journal.rows.map (Table.rewrite
        (completeRow prepared.operationId response now (now + completedRetention)))) :
      JournalStep now journal next

/-- What a call at an instant does to the journal. -/
def Evolves (now : Nat) : Table adminOperations → Table adminOperations → Prop :=
  Relation.ReflTransGen (JournalStep now)

omit [Sha256] in
theorem lt_add_completedRetention (now : Nat) : now < now + completedRetention := by
  have positive : 0 < completedRetention := by decide
  revert positive
  generalize completedRetention = retention
  omega

omit [Sha256] in
theorem unexpired_of_lt {row : OperationRow} {now instant : Nat}
    (expires : row.expiresAt = some instant) (later : now < instant) : row.expired now = false := by
  simp [OperationRow.expired, expires, later]

/-- The bounds of the journal. -/
structure Bounded (journal : Table adminOperations) : Prop where
  rows : journal.rows.length ≤ completedLimit
  prepared : (journal.rows.countP fun row => row.state == .prepared) ≤ preparedLimit
  mutations : ∀ row ∈ journal.rows, row.route.isMutation = true

theorem rewrite_completeRow {id : OperationId} {response : List UInt8} {completed expires : Nat}
    (row : OperationRow) :
    Table.rewrite (completeRow id response completed expires) row = row ∨
      (row.operationId = id ∧ row.state = .prepared ∧
        Table.rewrite (completeRow id response completed expires) row = { row with
          state := .completed, responseModel := some response
          responseSha256 := some (Sha256.digest response), completedAt := some completed
          expiresAt := some expires }) := by
  cases selected : (completeRow id response completed expires).selects row with
  | false => exact .inl (Table.rewrite_of_not_selects selected)
  | true =>
      refine .inr ?_
      rw [Table.rewrite_of_selects selected]
      simp only [completeRow, Bool.and_eq_true, beq_iff_eq] at selected
      exact ⟨selected.1, selected.2, rfl⟩

namespace JournalStep

variable {now : Nat} {before after : Table adminOperations}

theorem bounded (step : JournalStep now before after) (bounded : Bounded before) :
    Bounded after := by
  cases step with
  | prune =>
      exact ⟨(length_pruneExpired_le now before).trans bounded.rows,
        (countP_pruneExpired_le now before _).trans bounded.prepared,
        fun row rowMem => bounded.mutations row (mem_of_mem_pruneExpired rowMem)⟩
  | @prepare _ binding mutation room rows =>
      refine ⟨?_, ?_, ?_⟩
      · rw [rows, List.length_append]
        exact room.1
      · rw [rows, List.countP_append]
        have single : ([binding.row now].countP fun row => row.state == .prepared) = 1 := rfl
        rw [single]
        exact room.2
      · intro row rowMem
        rw [rows] at rowMem
        rcases List.mem_append.mp rowMem with old | new
        · exact bounded.mutations row old
        · rw [List.mem_singleton.mp new]
          exact mutation
  | complete stored rows =>
      refine ⟨?_, ?_, ?_⟩
      · rw [rows, List.length_map]
        exact bounded.rows
      · rw [rows, List.countP_map]
        refine (List.countP_mono_left ?_).trans bounded.prepared
        intro row rowMem counted
        simp only [Function.comp_apply] at counted
        rcases rewrite_completeRow row with same | ⟨-, prepared, -⟩
        · rwa [same] at counted
        · simp [prepared]
      · intro row rowMem
        rw [rows] at rowMem
        rcases List.mem_map.mp rowMem with ⟨old, oldMem, rfl⟩
        rcases rewrite_completeRow old with same | ⟨-, -, written⟩
        · rw [same]
          exact bounded.mutations old oldMem
        · rw [written]
          exact bounded.mutations old oldMem

/-- A completed row stays as it is until it is pruned. -/
theorem completed_kept (step : JournalStep now before after) {row : OperationRow}
    (rowMem : row ∈ before.rows) (completed : row.state = .completed) :
    row ∈ after.rows ∨ row.expired now = true := by
  cases step with
  | prune =>
      by_cases kept : row ∈ (pruneExpired now before).rows
      · exact .inl kept
      · exact .inr (expired_of_pruned rowMem kept)
  | prepare mutation room rows =>
      rw [rows]
      exact .inl (List.mem_append_left _ rowMem)
  | @complete _ prepared response stored rows =>
      refine .inl ?_
      rw [rows]
      refine List.mem_map.mpr ⟨row, rowMem, ?_⟩
      rcases rewrite_completeRow row with same | ⟨-, isPrepared, -⟩
      · exact same
      · rw [completed] at isPrepared
        cases isPrepared

/-- What has not expired is not lost. -/
theorem unexpired_kept (step : JournalStep now before after) {row : OperationRow}
    (rowMem : row ∈ before.rows) (unexpired : row.expired now = false) :
    ∃ later ∈ after.rows, row.Becomes later ∧ later.expired now = false := by
  cases step with
  | prune => exact ⟨row, mem_pruneExpired_of_unexpired rowMem unexpired, .inl rfl, unexpired⟩
  | prepare mutation room rows =>
      rw [rows]
      exact ⟨row, List.mem_append_left _ rowMem, .inl rfl, unexpired⟩
  | @complete _ token response stored rows =>
      refine ⟨_, by rw [rows]; exact List.mem_map_of_mem rowMem, ?_⟩
      rcases rewrite_completeRow row with same | ⟨-, prepared, written⟩
      · rw [same]
        exact ⟨.inl rfl, unexpired⟩
      · rw [written]
        exact ⟨.inr ⟨prepared, rfl, rfl, rfl, rfl, rfl⟩,
          unexpired_of_lt rfl (lt_add_completedRetention now)⟩

/-- Where a completed row comes from. -/
theorem completed_origin (step : JournalStep now before after) {row : OperationRow}
    (rowMem : row ∈ after.rows) (completed : row.state = .completed) :
    row ∈ before.rows ∨
      (row.completedAt = some now ∧ row.expiresAt = some (now + completedRetention)) := by
  cases step with
  | prune => exact .inl (mem_of_mem_pruneExpired rowMem)
  | prepare mutation room rows =>
      rw [rows] at rowMem
      rcases List.mem_append.mp rowMem with old | new
      · exact .inl old
      · rw [List.mem_singleton.mp new] at completed
        cases completed
  | complete stored rows =>
      rw [rows] at rowMem
      rcases List.mem_map.mp rowMem with ⟨old, oldMem, rfl⟩
      rcases rewrite_completeRow old with same | ⟨-, -, written⟩
      · rw [same]
        exact .inl oldMem
      · rw [written]
        exact .inr ⟨rfl, rfl⟩

end JournalStep

namespace Evolves

variable {now : Nat} {before after : Table adminOperations}

/-- What every step keeps, a call keeps. -/
theorem invariant {property : Table adminOperations → Prop}
    (kept : ∀ {now before after}, JournalStep now before after → property before → property after)
    (evolves : Evolves now before after) (initially : property before) : property after := by
  induction evolves with
  | refl => exact initially
  | tail _ step ih => exact kept step ih

theorem bounded (evolves : Evolves now before after) (initially : Bounded before) :
    Bounded after :=
  evolves.invariant JournalStep.bounded initially

theorem completed_kept (evolves : Evolves now before after) {row : OperationRow}
    (rowMem : row ∈ before.rows) (completed : row.state = .completed) :
    row ∈ after.rows ∨ row.expired now = true := by
  induction evolves with
  | refl => exact .inl rowMem
  | tail _ step ih =>
      rcases ih with kept | expired
      · exact step.completed_kept kept completed
      · exact .inr expired

theorem completed_origin (evolves : Evolves now before after) {row : OperationRow}
    (rowMem : row ∈ after.rows) (completed : row.state = .completed) :
    row ∈ before.rows ∨
      (row.completedAt = some now ∧ row.expiresAt = some (now + completedRetention)) := by
  induction evolves with
  | refl => exact .inl rowMem
  | tail _ step ih =>
      rcases step.completed_origin rowMem completed with old | new
      · exact ih old
      · exact .inr new

theorem unexpired_kept (evolves : Evolves now before after) {row : OperationRow}
    (rowMem : row ∈ before.rows) (unexpired : row.expired now = false) :
    ∃ later ∈ after.rows, row.Becomes later ∧ later.expired now = false := by
  induction evolves with
  | refl => exact ⟨row, rowMem, .inl rfl, unexpired⟩
  | tail _ step ih =>
      rcases ih with ⟨middle, middleMem, becomes, still⟩
      rcases step.unexpired_kept middleMem still with ⟨later, laterMem, becomesLater, stillLater⟩
      exact ⟨later, laterMem, becomes.trans becomesLater, stillLater⟩

end Evolves

end Steps

section Calls

variable [Sha256] [ResponseModels]

omit [Sha256] [ResponseModels] in
theorem readOperation_eq {id : OperationId} {journal : Table adminOperations} {row : OperationRow}
    (rowMem : row ∈ journal.rows) (same : row.operationId = id) :
    readOperation id journal = (decodeOperation row).map some := by
  have found : journal.rows.find? (fun other => other.operationId == id) = some row := by
    cases looked : journal.rows.find? fun other => other.operationId == id with
    | none =>
        have missed := List.find?_eq_none.mp looked row rowMem
        simp [same] at missed
    | some other =>
        have answered := List.find?_some looked
        simp only [beq_iff_eq] at answered
        rw [eq_of_operationId (List.mem_of_find?_eq_some looked) rowMem (answered.trans same.symm)]
  simp [readOperation, found]

omit [Sha256] [ResponseModels] in
theorem readOperation_eq_none {id : OperationId} {journal : Table adminOperations}
    (read : readOperation id journal = .ok none) : ∀ row ∈ journal.rows, row.operationId ≠ id := by
  intro row rowMem same
  rw [readOperation_eq rowMem same] at read
  cases decoded : decodeOperation row <;> simp [decoded, Except.map] at read

omit [Sha256] [ResponseModels] in
theorem readOperation_eq_some {id : OperationId} {journal : Table adminOperations}
    {stored : StoredOperation} (read : readOperation id journal = .ok (some stored)) :
    ∃ row ∈ journal.rows, row.operationId = id ∧ decodeOperation row = .ok stored := by
  unfold readOperation at read
  split at read
  · cases read
  · rename_i row looked
    have answered := List.find?_some looked
    simp only [beq_iff_eq] at answered
    refine ⟨row, List.mem_of_find?_eq_some looked, answered, ?_⟩
    cases decoded : decodeOperation row with
    | error failure => simp [decoded, Except.map] at read
    | ok found =>
        simp only [decoded, Except.map, Except.ok.injEq, Option.some.injEq] at read
        rw [read]

omit [Sha256] [ResponseModels] in
theorem decodeOperation_eq_ok {row : OperationRow} {stored : StoredOperation}
    (decoded : decodeOperation row = .ok stored) :
    (∃ prepared, stored = .prepared row.route row.requestSha256 prepared ∧
        row.state = .prepared ∧ row.responseModel = none ∧ row.responseSha256 = none ∧
        row.preparedAt = prepared ∧ row.completedAt = none ∧ row.expiresAt = none) ∨
      ∃ response responseSha256 completed expires,
        stored = .completed row.route row.requestSha256 response responseSha256 row.preparedAt
          completed expires ∧ row.state = .completed ∧ row.responseModel = some response ∧
        row.responseSha256 = some responseSha256 ∧ row.completedAt = some completed ∧
        row.expiresAt = some expires := by
  unfold decodeOperation at decoded
  split at decoded
  · split at decoded
    · cases decoded
      exact .inl ⟨_, rfl, by assumption, by assumption, by assumption, rfl, by assumption,
        by assumption⟩
    · cases decoded
      exact .inr ⟨_, _, _, _, rfl, by assumption, by assumption, by assumption, by assumption,
        by assumption⟩
    · cases decoded
  · cases decoded

omit [Sha256] [ResponseModels] in
/-- The token of an admission. -/
def RequestBinding.token (binding : RequestBinding) (now : UnixMilliseconds) :
    PreparedOperation where
  operationId := binding.operationId
  route := binding.route
  requestSha256 := binding.requestSha256
  preparedAt := now

omit [Sha256] [ResponseModels] in
/-- The row holds the receipt of a request. -/
structure Receipt (binding : RequestBinding) (response : List UInt8) (row : OperationRow) :
    Prop where
  identity : row.operationId = binding.operationId
  route : row.route = binding.route
  request : row.requestSha256 = binding.requestSha256
  completed : row.state = .completed
  response : row.responseModel = some response

theorem admitStored_eq_ok {binding : RequestBinding} {row : OperationRow} {stored : StoredOperation}
    {admission : Admission} (decoded : decodeOperation row = .ok stored)
    (same : row.operationId = binding.operationId)
    (admitted : admitStored binding stored = .ok admission) :
    ∃ response : ResponseDocument, admission = .exactReplay response ∧
      response.route = binding.route ∧ Receipt binding response.canonicalBytes row := by
  rcases decodeOperation_eq_ok decoded with ⟨prepared, rfl, -⟩ |
    ⟨bytes, digest, completed, expires, rfl, state, model, -⟩
  · simp only [admitStored] at admitted
    split at admitted <;> cases admitted
  · simp only [admitStored] at admitted
    split at admitted
    · rename_i matched
      split at admitted
      · split at admitted
        · rename_i document read
          cases admitted
          unfold ResponseDocument.fromCanonicalBytes at read
          split at read
          · cases read
            exact ⟨_, rfl, matched.1, same, matched.1, matched.2, state, model⟩
          · cases read
        · cases admitted
      · cases admitted
    · cases admitted

/-- An admission replays a receipt, or journals a new operation. -/
theorem prepareOperation_spec {binding : RequestBinding} {now : UnixMilliseconds}
    {journal next : Table adminOperations} {admission : Admission}
    (done : prepareOperation binding now journal = .ok (admission, next)) :
    (next = pruneExpired now.get journal ∧ ∃ response : ResponseDocument,
        admission = .exactReplay response ∧ response.route = binding.route ∧
          ∃ row ∈ next.rows, Receipt binding response.canonicalBytes row) ∨
      (admission = .prepared (binding.token now) ∧
        next.rows = (pruneExpired now.get journal).rows ++ [binding.row now.get] ∧
        (∀ row ∈ (pruneExpired now.get journal).rows, row.operationId ≠ binding.operationId) ∧
        (pruneExpired now.get journal).rows.length < completedLimit ∧
        ((pruneExpired now.get journal).rows.countP fun row => row.state == .prepared) <
          preparedLimit) := by
  simp only [prepareOperation, bind_eq_ok] at done
  rcases done with ⟨found, read, done⟩
  cases found with
  | some stored =>
      simp only [bind_eq_ok, pure_eq_ok, Prod.mk.injEq] at done
      rcases done with ⟨replay, admitted, rfl, rfl⟩
      rcases readOperation_eq_some read with ⟨row, rowMem, same, decoded⟩
      rcases admitStored_eq_ok decoded same admitted with ⟨response, isReplay, route, receipt⟩
      exact .inl ⟨rfl, response, isReplay, route, row, rowMem, receipt⟩
  | none =>
      simp only [bind_eq_ok, require_eq_ok, orError_eq_ok, pure_eq_ok, Prod.mk.injEq, readCounts,
        decide_eq_true_eq, countP_add_countP] at done
      rcases done with ⟨-, room, inserted, added, _, -, -, -, rfl, rfl⟩
      exact .inr ⟨rfl, (Table.insert_spec added).1, readOperation_eq_none read, room⟩

omit [ResponseModels] in
/-- A completion finds its receipt, or writes it. -/
theorem completeOperation_spec {prepared : PreparedOperation} {response : List UInt8}
    {completed : UnixMilliseconds} {expires : Nat} {journal next : Table adminOperations}
    {completion : Completion}
    (done : completeOperation prepared response completed expires journal =
      .ok (completion, next)) :
    (completion = .exactReplay ∧ next = journal ∧ ∃ row ∈ journal.rows,
        row.operationId = prepared.operationId ∧ row.state = .completed) ∨
      (completion = .completed ∧ prepared.row ∈ journal.rows ∧
        next.rows = journal.rows.map (Table.rewrite
          (completeRow prepared.operationId response completed.get expires))) := by
  simp only [completeOperation, bind_eq_ok] at done
  rcases done with ⟨found, read, done⟩
  cases found with
  | none => cases done
  | some stored =>
      rcases readOperation_eq_some read with ⟨row, rowMem, same, decoded⟩
      rcases decodeOperation_eq_ok decoded with
        ⟨preparedAt, rfl, state, model, digest, instant, completedAt, expiresAt⟩ |
        ⟨bytes, digest, completedAt, expiresAt, rfl, state, -⟩
      · simp only at done
        split at done
        · rename_i matched
          simp only [bind_eq_ok, require_eq_ok, orError_eq_ok, pure_eq_ok, Prod.mk.injEq] at done
          rcases done with ⟨-, -, ⟨updated, affected⟩, rewritten, -, -, _, -, -, -, rfl, rfl⟩
          refine .inr ⟨rfl, ?_, (Table.update_spec rewritten).1⟩
          have isRow : row = prepared.row := by
            cases row
            simp only at same state model digest instant completedAt expiresAt matched
            simp only [PreparedOperation.row, OperationRow.mk.injEq]
            exact ⟨same, matched.1, matched.2.1, state, model, digest, instant.trans matched.2.2,
              completedAt, expiresAt⟩
          rw [← isRow]
          exact rowMem
        · cases done
      · simp only at done
        split at done
        · simp only [pure_eq_ok, Prod.mk.injEq] at done
          exact .inl ⟨done.1.symm, done.2.symm, row, rowMem, same, state⟩
        · cases done

theorem prepareOperation_evolves {binding : RequestBinding} {now : UnixMilliseconds}
    {journal next : Table adminOperations} {admission : Admission}
    (mutation : binding.route.isMutation = true)
    (done : prepareOperation binding now journal = .ok (admission, next)) :
    Evolves now.get journal next := by
  have pruned : Evolves now.get journal (pruneExpired now.get journal) := .single (.prune _)
  rcases prepareOperation_spec done with ⟨rfl, -⟩ | ⟨-, rows, -, room, prepared⟩
  · exact pruned
  · exact pruned.tail (.prepare mutation ⟨room, prepared⟩ rows)

omit [Sha256] [ResponseModels] in
theorem expiryOf_eq_some {completed : UnixMilliseconds} {expires : Nat}
    (instant : expiryOf completed = some expires) :
    expires = completed.get + completedRetention := by
  unfold expiryOf at instant
  split at instant
  · exact (Option.some.inj instant).symm
  · cases instant

omit [ResponseModels] in
theorem completeOperation_evolves {prepared : PreparedOperation} {response : List UInt8}
    {completed : UnixMilliseconds} {expires : Nat} {journal next : Table adminOperations}
    {completion : Completion} (instant : expiryOf completed = some expires)
    (done : completeOperation prepared response completed expires journal =
      .ok (completion, next)) :
    Evolves completed.get journal next := by
  rw [expiryOf_eq_some instant] at done
  rcases completeOperation_spec done with ⟨-, rfl, -⟩ | ⟨-, stored, rows⟩
  · exact .refl
  · exact .single (.complete stored rows)

variable {Domain : Type}

/-- A database operation replays its receipt, or commits its effect together with it. -/
theorem executeOperation_spec {binding : RequestBinding} {completed : UnixMilliseconds}
    {expires : Nat} {operation : Domain → Except JournalError (ResponseDocument × Domain)}
    {store next : Journaled Domain} {response : ResponseDocument}
    (mutation : binding.route.isMutation = true) (instant : expiryOf completed = some expires)
    (done : executeOperation binding completed expires operation store = .ok (response, next)) :
    Evolves completed.get store.journal next.journal ∧ response.route = binding.route ∧
      (∃ row ∈ next.journal.rows, Receipt binding response.canonicalBytes row) ∧
      (next = { store with journal := pruneExpired completed.get store.journal } ∨
        ((∀ row ∈ store.journal.rows, row.operationId = binding.operationId →
            row.expired completed.get = true) ∧
          operation store.domain = .ok (response, next.domain))) := by
  simp only [executeOperation, bind_eq_ok] at done
  rcases done with ⟨⟨admission, journal⟩, admitting, done⟩
  have evolves := prepareOperation_evolves mutation admitting
  rcases prepareOperation_spec admitting with
    ⟨rfl, replay, rfl, route, row, rowMem, receipt⟩ | ⟨rfl, rows, absent, -, -⟩
  · simp only [pure_eq_ok, Prod.mk.injEq] at done
    rcases done with ⟨rfl, rfl⟩
    exact ⟨evolves, route, ⟨row, rowMem, receipt⟩, .inl rfl⟩
  · simp only [bind_eq_ok, require_eq_ok, decide_eq_true_eq, pure_eq_ok, Prod.mk.injEq] at done
    rcases done with ⟨⟨answer, domain⟩, operated, -, fits, ⟨completion, finished⟩, completing, rfl,
      rfl⟩
    have freshness : ∀ row ∈ store.journal.rows, row.operationId = binding.operationId →
        row.expired completed.get = true := by
      intro row rowMem same
      by_contra unexpired
      exact absent row (mem_pruneExpired_of_unexpired rowMem (by simpa using unexpired)) same
    refine ⟨evolves.trans (completeOperation_evolves instant completing), fits.1, ?_,
      .inr ⟨freshness, operated⟩⟩
    have inserted : binding.row completed.get ∈ journal.rows := by
      rw [rows]
      simp
    rcases completeOperation_spec completing with ⟨-, rfl, row, rowMem, same, state⟩ |
      ⟨-, stored, written⟩
    · have isRow := eq_of_operationId rowMem inserted same
      rw [isRow] at state
      cases state
    · have selected : (completeRow (binding.token completed).operationId answer.canonicalBytes
          completed.get expires).selects (binding.row completed.get) = true := by
        simp [completeRow, RequestBinding.token, RequestBinding.row]
      have writtenMem : (completeRow (binding.token completed).operationId answer.canonicalBytes
          completed.get expires).write (binding.row completed.get) ∈ finished.rows := by
        rw [written, ← Table.rewrite_of_selects selected]
        exact List.mem_map_of_mem inserted
      exact ⟨_, writtenMem, rfl, rfl, rfl, rfl, rfl⟩

end Calls

section Runs

variable [Sha256] [ResponseModels] {Domain : Type}

/-- A call of the journal, or a change of the rest of the database. -/
inductive JournalCall (Domain : Type) where
  | prepare (mode : HostMode) (disposition : Disposition) (request : RequestDocument)
      (now : UnixMilliseconds)
  | complete (mode : HostMode) (disposition : Disposition) (prepared : PreparedOperation)
      (response : ResponseDocument) (completed : UnixMilliseconds)
  | execute (mode : HostMode) (disposition : Disposition) (request : RequestDocument)
      (completed : UnixMilliseconds)
      (operation : Domain → Except JournalError (ResponseDocument × Domain))
  | other (change : Domain → Domain)

/-- The database after a call. -/
def JournalCall.apply (call : JournalCall Domain) (store : Journaled Domain) : Journaled Domain :=
  match call with
  | .prepare mode disposition request now =>
      (prepareAdminOperation mode disposition request now store).2
  | .complete mode disposition prepared response completed =>
      (completeAdminOperation mode disposition prepared response completed store).2
  | .execute mode disposition request completed operation =>
      (executeDatabaseAdminOperation mode disposition request completed operation store).2
  | .other change => { store with domain := change store.domain }

omit [Sha256] in
/-- The instant a call is made at. -/
def JournalCall.instant : JournalCall Domain → Option Nat
  | .prepare _ _ _ now => some now.get
  | .complete _ _ _ _ completed => some completed.get
  | .execute _ _ _ completed _ => some completed.get
  | .other _ => none

/-- The database after a run. -/
def journalExec (calls : List (JournalCall Domain)) (store : Journaled Domain) : Journaled Domain :=
  Transition.exec JournalCall.apply calls store

/-- The journal before any call. -/
def Journaled.initial (domain : Domain) : Journaled Domain := ⟨.empty, domain⟩

omit [ResponseModels] in
theorem isMutation_of_fromDocument {request : RequestDocument} {binding : RequestBinding}
    (made : RequestBinding.fromDocument request = .ok binding) :
    binding.route.isMutation = true := by
  unfold RequestBinding.fromDocument at made
  split at made
  · rename_i mutation
    split at made
    · cases made
    · cases made
      exact mutation
  · cases made

theorem prepareAdminOperation_evolves (mode : HostMode) (disposition : Disposition)
    (request : RequestDocument) (now : UnixMilliseconds) (store : Journaled Domain) :
    Evolves now.get store.journal
      (prepareAdminOperation mode disposition request now store).2.journal := by
  rcases prepareAdminOperation_store mode disposition request now store with
    same | ⟨binding, admission, journal, made, admitting, same⟩
  · rw [same]
    exact .refl
  · rw [same]
    exact prepareOperation_evolves (isMutation_of_fromDocument made) admitting

theorem completeAdminOperation_evolves (mode : HostMode) (disposition : Disposition)
    (prepared : PreparedOperation) (response : ResponseDocument) (completed : UnixMilliseconds)
    (store : Journaled Domain) : Evolves completed.get store.journal
      (completeAdminOperation mode disposition prepared response completed store).2.journal := by
  rcases completeAdminOperation_store mode disposition prepared response completed store with
    same | ⟨expires, completion, journal, instant, completing, same⟩
  · rw [same]
    exact .refl
  · rw [same]
    exact completeOperation_evolves instant completing

theorem executeDatabaseAdminOperation_evolves (mode : HostMode) (disposition : Disposition)
    (request : RequestDocument) (completed : UnixMilliseconds)
    (operation : Domain → Except JournalError (ResponseDocument × Domain))
    (store : Journaled Domain) : Evolves completed.get store.journal
      (executeDatabaseAdminOperation mode disposition request completed operation
        store).2.journal := by
  unfold executeDatabaseAdminOperation
  split
  · exact .refl
  · split
    · exact .refl
    · exact .refl
    · rename_i binding expires made instant
      rcases transaction_store mapJournalError disposition
        (executeOperation binding completed expires operation) store with same |
        ⟨value, next, done, same⟩
      · rw [same]
        exact .refl
      · rw [same]
        exact (executeOperation_spec (isMutation_of_fromDocument made) instant done).1

/-- A call at an instant is a sequence of steps at this instant; any other leaves the journal. -/
theorem JournalCall.evolves (call : JournalCall Domain) (store : Journaled Domain) :
    match call.instant with
    | some now => Evolves now store.journal (call.apply store).journal
    | none => (call.apply store).journal = store.journal := by
  cases call with
  | prepare mode disposition request now =>
      exact prepareAdminOperation_evolves mode disposition request now store
  | complete mode disposition prepared response completed =>
      exact completeAdminOperation_evolves mode disposition prepared response completed store
  | execute mode disposition request completed operation =>
      exact executeDatabaseAdminOperation_evolves mode disposition request completed operation store
  | other change => rfl

end Runs

end Rhi
