import Rhi.Service.Dirty
import Rhi.Service.Finalizations

/-!
# The history of configurations

Configurations are appended by opening a store and by applying a configuration.  Over every run the
history counts its rows from one and never goes back in time, the open host is bound to its last
row, and every dirty row carries the policy of that row.
-/

namespace Rhi

open Relational Transactional

section Order

/-- The rows count from one, at nondecreasing instants. -/
structure HistoryOrdered (rows : List ConfigBindingRow) : Prop where
  generations : rows.map (·.generation) = List.range' 1 rows.length
  instants : rows.Pairwise fun earlier later => earlier.appliedAt ≤ later.appliedAt

theorem le_foldl_max {values : List Nat} {start value : Nat} (member : value ∈ values) :
    value ≤ values.foldl max start := by
  induction values generalizing start with
  | nil => cases member
  | cons first rest ih =>
      rw [List.foldl_cons]
      rcases List.mem_cons.mp member with rfl | later
      · exact (le_max_right start value).trans (start_le_foldl_max rest _)
      · exact ih later
where
  start_le_foldl_max : ∀ (values : List Nat) (start : Nat), start ≤ values.foldl max start
    | [], _ => le_rfl
    | first :: rest, start =>
        (le_max_left start first).trans (start_le_foldl_max rest (max start first))

theorem foldl_max_range' (count start : Nat) :
    (List.range' (start + 1) count).foldl max start = start + count := by
  induction count generalizing start with
  | zero => rfl
  | succ count ih =>
      rw [List.range'_succ, List.foldl_cons, max_eq_right (Nat.le_succ start), ih]
      omega

/-- The trigger of the table lets only the next row of the history in. -/
theorem HistoryOrdered.insert {table next : Table configBindings} {row : ConfigBindingRow}
    (ordered : HistoryOrdered table.rows) (inserted : table.insert row = some next) :
    HistoryOrdered next.rows ∧ next.rows = table.rows ++ [row] := by
  rcases Table.insert_spec inserted with ⟨rows, -, guarded, -⟩
  simp only [configBindings, Bool.and_eq_true, beq_iff_eq, decide_eq_true_eq] at guarded
  rcases guarded with ⟨⟨isNext, -⟩, latest⟩
  rw [ordered.generations, foldl_max_range'] at isNext
  refine ⟨⟨?_, ?_⟩, rows⟩
  · rw [rows, List.map_append, ordered.generations, List.length_append, List.range'_append_1.symm]
    simp only [isNext, List.map_cons, List.map_nil, List.length_cons, List.length_nil]
    congr 2
    omega
  · rw [rows]
    refine List.pairwise_append.mpr ⟨ordered.instants, List.pairwise_singleton _ _, ?_⟩
    intro earlier earlierMem later laterMem
    rw [List.mem_singleton.mp laterMem]
    exact (le_foldl_max (List.mem_map_of_mem earlierMem)).trans latest

variable {store next : Store}

theorem ordered_insertBinding {generation appliedAt : Nat} {binding : ConfigBinding}
    (ordered : HistoryOrdered store.configBindings.rows)
    (done : insertBinding generation binding appliedAt store = .ok next) :
    HistoryOrdered next.configBindings.rows ∧ next.configBindings.rows =
      store.configBindings.rows ++ [⟨generation, binding, appliedAt⟩] := by
  simp only [insertBinding, bind_eq_ok, require_eq_ok, orError_eq_ok, pure_eq_ok] at done
  rcases done with ⟨-, -, bindings, added, rfl⟩
  exact ordered.insert added

theorem ordered_verifyOrUpgrade {expected : ConfigBinding} {appliedAt : Nat} {done : Unit}
    (ordered : HistoryOrdered store.configBindings.rows)
    (verified : verifyOrUpgrade expected appliedAt store = .ok (done, next)) :
    HistoryOrdered next.configBindings.rows := by
  simp only [verifyOrUpgrade, bind_eq_ok, orError_eq_ok] at verified
  rcases verified with ⟨history, read, actual, last, verified⟩
  split at verified
  · simp only [pure_eq_ok, Prod.mk.injEq, true_and] at verified
    rwa [← verified]
  · simp only [bind_eq_ok, require_eq_ok, pure_eq_ok, Prod.mk.injEq] at verified
    rcases verified with ⟨-, -, -, -, -, -, _, inserted, -, rfl⟩
    exact (ordered_insertBinding ordered inserted).1

theorem ordered_bindOrVerify {expected : ConfigBinding} {appliedAt : Nat} {done : Unit}
    (ordered : HistoryOrdered store.configBindings.rows)
    (bound : bindOrVerify expected appliedAt store = .ok (done, next)) :
    HistoryOrdered next.configBindings.rows := by
  simp only [bindOrVerify, bind_eq_ok] at bound
  rcases bound with ⟨history, read, bound⟩
  split at bound
  · simp only [bind_eq_ok] at bound
    rcases bound with ⟨first, inserted, verified⟩
    exact ordered_verifyOrUpgrade (ordered_insertBinding ordered inserted).1 verified
  · simp only [bind_eq_ok, pure_eq_ok] at bound
    rcases bound with ⟨_, rfl, verified⟩
    exact ordered_verifyOrUpgrade ordered verified

/-- The row a configuration is appended in. -/
theorem ordered_appendConfiguration {current candidate : ConfigBinding} {appliedAt : Nat}
    {outcome : ConfigApplyOutcome} (ordered : HistoryOrdered store.configBindings.rows)
    (done : appendConfiguration current candidate appliedAt store = .ok (outcome, next)) :
    HistoryOrdered next.configBindings.rows ∧ (outcome.changed = true →
      next.configBindings.rows = store.configBindings.rows ++
        [⟨store.configBindings.rows.length + 1, candidate, appliedAt⟩]) := by
  simp only [appendConfiguration, bind_eq_ok, orError_eq_ok, require_eq_ok] at done
  rcases done with ⟨history, read, latest, last, -, -, done⟩
  split at done
  · simp only [pure_eq_ok, Prod.mk.injEq] at done
    rcases done with ⟨rfl, rfl⟩
    exact ⟨ordered, by simp⟩
  · simp only [bind_eq_ok, require_eq_ok] at done
    rcases done with ⟨-, -, -, -, done⟩
    have appended : ∃ middle, middle.configBindings = store.configBindings ∧
        insertBinding (latest.generation + 1) candidate appliedAt middle = .ok next := by
      split at done
      · simp only [bind_eq_ok, require_eq_ok, orError_eq_ok, pure_eq_ok, Prod.mk.injEq] at done
        rcases done with ⟨advanced, advancing, _, inserting, -, -, -, -, -, -, -, rfl⟩
        refine ⟨advanced, ?_, inserting⟩
        have only : advanced = { store with dirty := advanced.dirty } :=
          (advanceDirtyPolicy_spec advancing).1
        rw [only]
      · simp only [bind_eq_ok, require_eq_ok, orError_eq_ok, pure_eq_ok, Prod.mk.injEq] at done
        rcases done with ⟨_, rfl, _, inserting, -, -, -, -, -, -, -, rfl⟩
        exact ⟨store, rfl, inserting⟩
    rcases appended with ⟨middle, same, inserting⟩
    rw [← same] at ordered
    rcases ordered_insertBinding ordered inserting with ⟨stays, rows⟩
    rw [same] at rows ordered
    refine ⟨stays, fun _ => ?_⟩
    rw [rows]
    have counted := stays.generations
    rw [rows, List.map_append, ordered.generations, List.length_append,
      List.range'_append_1.symm] at counted
    have isNext : [latest.generation + 1] = List.range' (1 + store.configBindings.rows.length) 1 :=
      List.append_cancel_left counted
    rw [List.range'_one, List.cons.injEq] at isNext
    rw [isNext.1, Nat.add_comm 1]

theorem latestBinding_of_appendConfiguration {current candidate : ConfigBinding} {appliedAt : Nat}
    {outcome : ConfigApplyOutcome}
    (done : appendConfiguration current candidate appliedAt store = .ok (outcome, next)) :
    latestBinding store = some current := by
  simp only [appendConfiguration, bind_eq_ok, orError_eq_ok, require_eq_ok, beq_iff_eq] at done
  rcases done with ⟨history, read, latest, last, -, same, -⟩
  rw [readHistory_spec read] at last
  simp [latestBinding, last, same]

end Order

section Runs

theorem ordered_transaction {Value : Type} (disposition : Disposition)
    {body : Store → Except ConfigOperationError (Value × Store)} {store : Store}
    (ordered : HistoryOrdered store.configBindings.rows)
    (kept : ∀ value next, body store = .ok (value, next) →
      HistoryOrdered next.configBindings.rows) :
    HistoryOrdered (transaction mapConfigError disposition body store).2.configBindings.rows := by
  rcases transaction_store mapConfigError disposition body store with
    same | ⟨value, next, done, same⟩
  · rwa [same]
  · rw [same]
    exact kept value next done

theorem ordered_openReadWrite (disposition : Disposition) (binding : ConfigBinding)
    (appliedAt : Nat) {store : Store} (ordered : HistoryOrdered store.configBindings.rows) :
    HistoryOrdered (openReadWrite disposition binding appliedAt store).2.configBindings.rows := by
  have bound := ordered_transaction disposition ordered
    fun value next (done : bindOrVerify binding appliedAt store = .ok (value, next)) =>
      ordered_bindOrVerify ordered done
  unfold openReadWrite
  cases result : transaction mapConfigError disposition (bindOrVerify binding appliedAt) store with
  | mk outcome final =>
      rw [result] at bound
      cases outcome with
      | error error => exact bound
      | ok done => exact bound

theorem ordered_applyConfiguration (opening applying : Disposition)
    (current candidate : ConfigBinding) (appliedAt : Nat) {store : Store}
    (ordered : HistoryOrdered store.configBindings.rows) :
    HistoryOrdered (applyConfiguration opening applying current candidate appliedAt
      store).2.configBindings.rows := by
  have opened := ordered_openReadWrite opening current appliedAt ordered
  unfold applyConfiguration
  cases result : openReadWrite opening current appliedAt store with
  | mk host bound =>
      rw [result] at opened
      cases host with
      | none => exact opened
      | some host =>
          exact ordered_transaction applying opened
            fun _ _ done => (ordered_appendConfiguration opened done).1

variable [Sha256] [TradeEvidence]

theorem ordered_apply (call : Call) {service : Service}
    (ordered : HistoryOrdered service.store.configBindings.rows) :
    HistoryOrdered (service.apply call).store.configBindings.rows := by
  rcases service with ⟨store, host⟩
  cases call with
  | openReadWrite disposition binding appliedAt =>
      cases host with
      | some host => exact ordered
      | none => exact ordered_openReadWrite disposition binding appliedAt ordered
  | openInspection binding =>
      cases host with
      | some host => exact ordered
      | none => exact ordered
  | close => exact ordered
  | applyConfiguration opening applying current candidate appliedAt =>
      cases host with
      | some host => exact ordered
      | none =>
          exact ordered_applyConfiguration opening applying current candidate appliedAt ordered
  | operation operation =>
      cases host with
      | none => exact ordered
      | some host =>
          have same := (frame_of_effect (run_effect operation host store)).1
          simp only [Service.apply]
          rwa [same]

/-- The service and its history agree, and go on to. -/
structure ConfigurationCoherent (service : Service) : Prop where
  history : HistoryOrdered service.store.configBindings.rows
  current : ∀ host ∈ service.host, latestBinding service.store = some host.binding
  policies : ∀ row ∈ service.store.dirty.rows,
    currentPolicy service.store = some row.evidencePolicy
  /-- A committed append changes nothing, or adds the next row and moves every dirty generation by
  one exactly if the policy changes. -/
  appends : ∀ (current candidate : ConfigBinding) (appliedAt : Nat) (outcome : ConfigApplyOutcome)
    (next : Store),
    appendConfiguration current candidate appliedAt service.store = .ok (outcome, next) →
    latestBinding service.store = some current ∧
    ((outcome.changed = false ∧ next = service.store) ∨
      (outcome.changed = true ∧
        next = { service.store with
          configBindings := next.configBindings, dirty := next.dirty } ∧
        next.configBindings.rows = service.store.configBindings.rows ++
          [⟨service.store.configBindings.rows.length + 1, candidate, appliedAt⟩] ∧
        ∀ trade, readDirty next trade =
          if current.evidencePolicy = candidate.evidencePolicy then
            readDirty service.store trade
          else
            (readDirty service.store trade).map fun row => { row with
              generation := row.generation + 1
              evidencePolicy := candidate.evidencePolicy
              updatedAt := appliedAt }))
  /-- A failed append whose outcome is known changes nothing. -/
  failedAppend : ∀ (disposition : Disposition) (current candidate : ConfigBinding)
    (appliedAt : Nat) (error : ConfigApplyErrorKind),
    (transaction mapConfigError disposition (appendConfiguration current candidate appliedAt)
      service.store).1 = .error error → error ≠ .commitOutcomeUnknown →
    (transaction mapConfigError disposition (appendConfiguration current candidate appliedAt)
      service.store).2 = service.store
  failedBinding : ∀ (disposition : Disposition) (binding : ConfigBinding) (appliedAt : Nat)
    (error : ConfigApplyErrorKind),
    (transaction mapConfigError disposition (bindOrVerify binding appliedAt)
      service.store).1 = .error error → error ≠ .commitOutcomeUnknown →
    (transaction mapConfigError disposition (bindOrVerify binding appliedAt)
      service.store).2 = service.store

/-- After every run of the service the history of its configurations is coherent. -/
theorem configuration_history_coherent (calls : List Call) :
    ConfigurationCoherent (Service.initial.exec calls) := by
  have ordered : HistoryOrdered (Service.initial.exec calls).store.configBindings.rows :=
    Transition.exec_invariant
      (fun service : Service => HistoryOrdered service.store.configBindings.rows)
      (fun call _ kept => ordered_apply call kept) calls ⟨rfl, .nil⟩
  have bound := bound_exec calls bound_initial
  refine ⟨ordered, bound.host, ?_, ?_, ?_, ?_⟩
  · intro row rowMem
    exact bound.dirty row.tradeId row (readDirty_of_mem rowMem)
  · intro current candidate appliedAt outcome next done
    have latest := latestBinding_of_appendConfiguration done
    have appended := ordered_appendConfiguration ordered done
    refine ⟨latest, ?_⟩
    rcases appendConfiguration_spec done with ⟨unchanged, same, -⟩ | ⟨changed, applied⟩
    · exact .inl ⟨unchanged, same⟩
    · refine .inr ⟨changed, applied.only, appended.2 changed, ?_⟩
      intro trade
      rw [applied.dirty trade]
      split
      · rfl
      · rename_i otherPolicy
        cases read : readDirty (Service.initial.exec calls).store trade with
        | none => rfl
        | some row =>
            have governed := bound.dirty trade row read
            rw [currentPolicy, latest, Option.map_some, Option.some.injEq] at governed
            rw [Option.map_some, Option.map_some, DirtyRow.underPolicy,
              if_neg (governed ▸ otherPolicy)]
  · intro disposition current candidate appliedAt error failed known
    exact transaction_store_of_error failed known
  · intro disposition binding appliedAt error failed known
    exact transaction_store_of_error failed known

end Runs

section Exceptions

namespace Sample.History

/-- The hash function the service is built with. -/
local instance : Sha256 := ⟨Hashing.sha256⟩

/-- The shared library is never asked. -/
local instance : TradeEvidence where
  Mutation := Unit
  mutationId _ := none
  tradeId _ := trade
  acceptsSourceId _ := true
  acceptsSourceResult _ _ _ := true
  manifest _ := none
  decode _ := none
  reduce _ _ _ _ := ⟨none, none, .missing, 0, [], [], [], [], false⟩

/-- A delivered proposal under the first configuration, and the store closed again. -/
def closedAfterProposal : List Call := [
  .openReadWrite .acknowledged configuration.binding 1,
  .operation (.commitSourceResult .acknowledged source trade proposal.observedAt ⟨none, none⟩
    (subscribedResult proposal)),
  .close]

/-- An append whose acknowledgement is lost fails, and has changed the history and the dirty
row. -/
theorem unacknowledged_append_changes :
    (transaction mapConfigError (.unacknowledged true)
      (appendConfiguration configuration.binding (binding 0x9a#256 0x23#256) 1000000)
      (Service.initial.exec closedAfterProposal).store).1 = .error .commitOutcomeUnknown ∧
    (Service.initial.exec closedAfterProposal).store.configBindings.rows =
      [⟨1, configuration.binding, 1⟩] ∧
    (transaction mapConfigError (.unacknowledged true)
      (appendConfiguration configuration.binding (binding 0x9a#256 0x23#256) 1000000)
      (Service.initial.exec closedAfterProposal).store).2.configBindings.rows =
        [⟨1, configuration.binding, 1⟩, ⟨2, binding 0x9a#256 0x23#256, 1000000⟩] ∧
    (Service.initial.exec closedAfterProposal).store.dirty.rows = [⟨trade, 1, policy, 1000000⟩] ∧
    (transaction mapConfigError (.unacknowledged true)
      (appendConfiguration configuration.binding (binding 0x9a#256 0x23#256) 1000000)
      (Service.initial.exec closedAfterProposal).store).2.dirty.rows =
        [⟨trade, 2, 0x23#256, 1000000⟩] := by
  decide +kernel

end Sample.History

end Exceptions

end Rhi
