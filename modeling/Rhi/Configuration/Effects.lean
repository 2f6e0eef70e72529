import Rhi.Configuration
import Rhi.Evidence.Effects

/-!
# Effects of configuration bindings

Opening a store may append the binding it was opened with, never with another evidence policy.
Applying a configuration with another policy moves every dirty generation of the store by one.
-/

namespace Rhi

open Relational Transactional

/-- The binding of the last applied configuration. -/
def latestBinding (store : Store) : Option ConfigBinding :=
  store.configBindings.rows.getLast?.map (·.binding)

/-- The store after a change of the bindings alone. -/
def BindingsOnly (before after : Store) : Prop :=
  after = { before with configBindings := after.configBindings }

section Bindings

theorem readHistory_spec {store : Store} {history : List ConfigBindingRow}
    (read : readHistory store = .ok history) : history = store.configBindings.rows := by
  simp only [readHistory, bind_eq_ok, require_eq_ok, pure_eq_ok] at read
  exact read.choose_spec.2.choose_spec.2.symm

theorem insertBinding_spec {generation appliedAt : Nat} {binding : ConfigBinding}
    {store next : Store} (done : insertBinding generation binding appliedAt store = .ok next) :
    BindingsOnly store next ∧ latestBinding next = some binding := by
  simp only [insertBinding, bind_eq_ok, require_eq_ok, orError_eq_ok, pure_eq_ok] at done
  rcases done with ⟨-, -, bindings, added, rfl⟩
  refine ⟨rfl, ?_⟩
  simp [latestBinding, (Table.insert_spec added).1]

theorem policy_of_sameExceptStateVersion {actual expected : ConfigBinding}
    (same : actual.sameExceptStateVersion expected = true) :
    actual.evidencePolicy = expected.evidencePolicy := by
  simp only [ConfigBinding.sameExceptStateVersion, Bool.and_eq_true, beq_iff_eq] at same
  have fields := same.1
  cases actual
  cases expected
  simp only [ConfigBinding.mk.injEq] at fields
  exact fields.2.1

theorem verifyOrUpgrade_spec {expected : ConfigBinding} {appliedAt : Nat} {store next : Store}
    {done : Unit} (verified : verifyOrUpgrade expected appliedAt store = .ok (done, next)) :
    BindingsOnly store next ∧ latestBinding next = some expected ∧
      ∀ binding ∈ latestBinding store, binding.evidencePolicy = expected.evidencePolicy := by
  simp only [verifyOrUpgrade, bind_eq_ok, orError_eq_ok] at verified
  rcases verified with ⟨history, read, actual, last, verified⟩
  rw [readHistory_spec read] at last
  have latest : latestBinding store = some actual.binding := by
    simp [latestBinding, last]
  split at verified
  · rename_i same
    simp only [pure_eq_ok, Prod.mk.injEq, true_and] at verified
    simp only [beq_iff_eq] at same
    rw [← verified, latest, same]
    refine ⟨rfl, rfl, ?_⟩
    intro binding bindingMem
    cases bindingMem
    rfl
  · simp only [bind_eq_ok, require_eq_ok, pure_eq_ok, Prod.mk.injEq] at verified
    rcases verified with ⟨-, upgraded, -, -, -, -, _, inserted, -, rfl⟩
    rcases insertBinding_spec inserted with ⟨only, now⟩
    refine ⟨only, now, ?_⟩
    intro binding bindingMem
    rw [latest] at bindingMem
    cases bindingMem
    exact policy_of_sameExceptStateVersion upgraded

/-- Effect of `bind_or_verify`. -/
theorem bindOrVerify_spec {expected : ConfigBinding} {appliedAt : Nat} {store next : Store}
    {done : Unit} (bound : bindOrVerify expected appliedAt store = .ok (done, next)) :
    BindingsOnly store next ∧ latestBinding next = some expected ∧
      ∀ binding ∈ latestBinding store, binding.evidencePolicy = expected.evidencePolicy := by
  simp only [bindOrVerify, bind_eq_ok] at bound
  rcases bound with ⟨history, read, bound⟩
  rw [readHistory_spec read] at bound
  split at bound
  · rename_i empty
    simp only [bind_eq_ok] at bound
    rcases bound with ⟨first, inserted, verified⟩
    rcases insertBinding_spec inserted with ⟨insertedOnly, -⟩
    rcases verifyOrUpgrade_spec verified with ⟨only, now, -⟩
    have insertedStore : first = { store with configBindings := first.configBindings } :=
      insertedOnly
    have nextStore : next = { first with configBindings := next.configBindings } := only
    refine ⟨?_, now, ?_⟩
    · unfold BindingsOnly
      rw [nextStore, insertedStore]
    · simp only [List.isEmpty_iff] at empty
      simp [latestBinding, empty]
  · simp only [bind_eq_ok, pure_eq_ok] at bound
    rcases bound with ⟨_, rfl, verified⟩
    exact verifyOrUpgrade_spec verified

end Bindings

section Policy

/-- A dirty row after the policy became `policy` at an instant. -/
def DirtyRow.underPolicy (row : DirtyRow) (policy : EvidencePolicyDigest) (updatedAt : Nat) :
    DirtyRow :=
  if row.evidencePolicy = policy then row
  else { row with generation := row.generation + 1, evidencePolicy := policy, updatedAt }

/-- Effect of `advance_dirty_policy`. -/
theorem advanceDirtyPolicy_spec {policy : EvidencePolicyDigest} {updatedAt : Nat}
    {store next : Store} (done : advanceDirtyPolicy policy updatedAt store = .ok next) :
    DirtyOnly store next ∧
      (∀ trade, readDirty next trade =
        (readDirty store trade).map (·.underPolicy policy updatedAt)) ∧
      ∀ row ∈ store.dirty.rows, row.evidencePolicy ≠ policy → row.updatedAt ≤ updatedAt := by
  simp only [advanceDirtyPolicy, bind_eq_ok, require_eq_ok, orError_eq_ok, pure_eq_ok] at done
  rcases done with ⟨-, -, -, ordered, -, -, ⟨dirty, affected⟩, updated, rfl⟩
  have rows := (Table.update_spec updated).1
  refine ⟨rfl, ?_, ?_⟩
  · intro trade
    unfold readDirty
    simp only [rows]
    rw [Table.find?_map_rewrite _ (by simp [advanceDirtyPolicyStatement])]
    congr 1
    funext row
    by_cases same : row.evidencePolicy = policy
    · simp [Table.rewrite, advanceDirtyPolicyStatement, DirtyRow.underPolicy, same]
    · simp [Table.rewrite, advanceDirtyPolicyStatement, DirtyRow.underPolicy, same]
  · intro row rowMem different
    have kept : row ∈ store.dirty.rows.filter fun row => row.evidencePolicy != policy := by
      simp [List.mem_filter, rowMem, different]
    simpa using List.all_eq_true.mp ordered row kept

/-- What an applied configuration did to the store. -/
structure ConfigurationApplied (current candidate : ConfigBinding) (appliedAt : Nat)
    (before after : Store) : Prop where
  only : after = { before with configBindings := after.configBindings, dirty := after.dirty }
  bound : latestBinding before = some current
  rebound : latestBinding after = some candidate
  dirty : ∀ trade, readDirty after trade =
    if current.evidencePolicy = candidate.evidencePolicy then readDirty before trade
    else (readDirty before trade).map (·.underPolicy candidate.evidencePolicy appliedAt)
  ordered : current.evidencePolicy ≠ candidate.evidencePolicy → ∀ row ∈ before.dirty.rows,
    row.evidencePolicy ≠ candidate.evidencePolicy → row.updatedAt ≤ appliedAt

theorem appendConfiguration_spec {current candidate : ConfigBinding} {appliedAt : Nat}
    {store next : Store} {outcome : ConfigApplyOutcome}
    (done : appendConfiguration current candidate appliedAt store = .ok (outcome, next)) :
    (outcome.changed = false ∧ next = store ∧ current = candidate) ∨
      (outcome.changed = true ∧ ConfigurationApplied current candidate appliedAt store next) := by
  simp only [appendConfiguration, bind_eq_ok, orError_eq_ok, require_eq_ok, beq_iff_eq] at done
  rcases done with ⟨history, read, latest, last, -, same, done⟩
  rw [readHistory_spec read] at last
  have currentLatest : latestBinding store = some current := by
    simp [latestBinding, last, same]
  split at done
  · rename_i unchanged
    simp only [pure_eq_ok, Prod.mk.injEq] at done
    rcases done with ⟨rfl, rfl⟩
    exact .inl ⟨rfl, rfl, same.symm.trans unchanged⟩
  · rename_i changed
    simp only [bind_eq_ok, require_eq_ok] at done
    rcases done with ⟨-, -, -, -, done⟩
    split at done
    · rename_i otherPolicy
      simp only [bind_eq_ok, require_eq_ok, orError_eq_ok, pure_eq_ok, Prod.mk.injEq] at done
      rcases done with ⟨advanced, advancing, inserted, inserting, -, -, -, -, -, -, rfl, rfl⟩
      rcases advanceDirtyPolicy_spec advancing with ⟨dirtyOnly, moved, ordered⟩
      rcases insertBinding_spec inserting with ⟨only, now⟩
      have advancedStore : advanced = { store with dirty := advanced.dirty } := dirtyOnly
      have insertedStore : inserted = { advanced with configBindings := inserted.configBindings } :=
        only
      simp only [same, bne_iff_ne, ne_eq] at otherPolicy
      refine .inr ⟨rfl, ?_, currentLatest, now, ?_, fun _ => ordered⟩
      · rw [insertedStore, advancedStore]
      · intro trade
        rw [if_neg otherPolicy, ← moved trade, insertedStore]
        rfl
    · rename_i samePolicy
      simp only [bind_eq_ok, require_eq_ok, orError_eq_ok, pure_eq_ok, Prod.mk.injEq] at done
      rcases done with ⟨_, rfl, inserted, inserting, -, -, -, -, -, -, rfl, rfl⟩
      rcases insertBinding_spec inserting with ⟨only, now⟩
      have insertedStore : inserted = { store with configBindings := inserted.configBindings } :=
        only
      simp only [same, bne_iff_ne, ne_eq, not_not] at samePolicy
      refine .inr ⟨rfl, ?_, currentLatest, now, ?_, fun different => absurd samePolicy different⟩
      · rw [insertedStore]
      · intro trade
        rw [if_pos samePolicy, insertedStore]
        rfl

end Policy

end Rhi
