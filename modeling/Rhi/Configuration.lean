import Rhi.Evidence

/-!
# Configuration bindings

The admitted configuration as the services read it, the writable host it opens, and the append-only
history of bindings.  Applying a configuration with another evidence policy moves the dirty
generation of every trade.
-/

namespace Rhi

open Relational Transactional

section Documents

/-- One entry of `/evidence/sources`, within the bounds of the configuration schema. -/
structure SourceConfiguration where
  sourceId : SourceId
  required : Bool
  deadline : Nat
  lookbackSeconds : Nat
  overlapSeconds : Nat
  deadline_bounds : 100 ≤ deadline ∧ deadline ≤ 30000
  lookback_bounds : 60 ≤ lookbackSeconds ∧ lookbackSeconds ≤ 2678400
  overlap_bounds : 1 ≤ overlapSeconds ∧ overlapSeconds ≤ 86400
  overlap_le : overlapSeconds ≤ lookbackSeconds
deriving DecidableEq, Repr

/-- `/resource_limits/source_results/events`, which admission fixes. -/
def sourceResultMaxEvents : Nat := 4096

/-- `/resource_limits/source_results/bytes`, which admission fixes. -/
def sourceResultMaxBytes : Nat := 8388608

/-- `RhiConfigDocumentV1`, reduced to what reconciliation reads of it. -/
structure Configuration where
  binding : ConfigBinding
  jobPolicy : JobPolicy
  attemptDeadline : Nat
  sources : List SourceConfiguration
  limits : AdmissionLimits
  attempt_bounds : 100 ≤ attemptDeadline ∧ attemptDeadline ≤ 300000
  sources_count : 1 ≤ sources.length ∧ sources.length ≤ 16
  sources_sorted : sources.Pairwise fun left right => left.sourceId.text < right.sourceId.text
  sources_deadline : ∀ source ∈ sources, source.deadline ≤ attemptDeadline
deriving DecidableEq

/-- The evidence policy digest of a configuration. -/
def Configuration.policy (configuration : Configuration) : EvidencePolicyDigest :=
  configuration.binding.evidencePolicy

/-- `ConfigBinding::is_governed`. -/
def ConfigBinding.isGoverned (binding : ConfigBinding) : Bool :=
  binding.configContractVersion == 1 &&
    decide (1 ≤ binding.stateContractVersion ∧ binding.stateContractVersion ≤ 11) &&
    binding.adminContractVersion == 1 && binding.statusContractVersion == 1 &&
    binding.providerContractVersion == 1

/-- `is_same_identity_and_policy_except_state_version`. -/
def ConfigBinding.sameExceptStateVersion (actual expected : ConfigBinding) : Bool :=
  { actual with stateContractVersion := 0 } == { expected with stateContractVersion := 0 } &&
    decide (actual.stateContractVersion < expected.stateContractVersion)

end Documents

section Bindings

inductive ConfigOperationError where
  | invalidInput
  | binding
  | resourceExhausted
  | storage
deriving DecidableEq, Repr

inductive ConfigApplyErrorKind where
  | invalidInput
  | binding
  | resourceExhausted
  | transaction
  | commitOutcomeUnknown
deriving DecidableEq, Repr

/-- `map_transaction_error` of the configuration history. -/
def mapConfigError : Failure ConfigOperationError → ConfigApplyErrorKind
  | .outcomeUnknown => .commitOutcomeUnknown
  | .operation .invalidInput => .invalidInput
  | .operation .binding => .binding
  | .operation .resourceExhausted => .resourceExhausted
  | .operation .storage | .aborted => .transaction

/-- `RhiConfigApplyOutcome`. -/
structure ConfigApplyOutcome where
  generation : Nat
  changed : Bool
deriving DecidableEq, Repr

/-- `validate_history`, from the generation and the instant of the entry before. -/
def validHistory : List ConfigBindingRow → Nat → Nat → Bool
  | [], _, _ => true
  | entry :: rest, previous, previousTime =>
      entry.generation == previous + 1 && decide (previousTime ≤ entry.appliedAt) &&
        entry.binding.isGoverned && validHistory rest (previous + 1) entry.appliedAt

/-- `read_history` and `validate_history`; rows are stored in generation order. -/
def readHistory (store : Store) : Except ConfigOperationError (List ConfigBindingRow) := do
  require (decide (store.configBindings.rows.length ≤ configBindingMaxGenerations))
    .resourceExhausted
  require (validHistory store.configBindings.rows 0 0) .binding
  pure store.configBindings.rows

/-- `insert_binding`. -/
def insertBinding (generation : Nat) (binding : ConfigBinding) (appliedAt : Nat) (store : Store) :
    Except ConfigOperationError Store := do
  require (decide (appliedAt ≤ maxInteger)) .invalidInput
  let configBindings ←
    orError (store.configBindings.insert ⟨generation, binding, appliedAt⟩) .storage
  pure { store with configBindings }

/-- The second part of `bind_or_verify`, once a history exists. -/
def verifyOrUpgrade (expected : ConfigBinding) (appliedAt : Nat) (store : Store) :
    Except ConfigOperationError (Unit × Store) := do
  let history ← readHistory store
  let actual ← orError history.getLast? .binding
  if actual.binding == expected then
    pure ((), store)
  else do
    require (actual.binding.sameExceptStateVersion expected) .binding
    require (decide (actual.generation < configBindingMaxGenerations)) .resourceExhausted
    require (decide (actual.appliedAt ≤ appliedAt)) .invalidInput
    let store ← insertBinding (actual.generation + 1) expected appliedAt store
    pure ((), store)

/-- `bind_or_verify`. -/
def bindOrVerify (expected : ConfigBinding) (appliedAt : Nat) (store : Store) :
    Except ConfigOperationError (Unit × Store) := do
  let history ← readHistory store
  let store ← if history.isEmpty then insertBinding 1 expected appliedAt store else pure store
  verifyOrUpgrade expected appliedAt store

/-- `verify_binding`. -/
def verifyBinding (expected : ConfigBinding) (store : Store) :
    Except ConfigOperationError Unit := do
  let history ← readHistory store
  let actual ← orError history.getLast? .binding
  require (actual.binding == expected) .binding

/-- `ADVANCE_DIRTY_POLICY_SQL`. -/
def advanceDirtyPolicyStatement (policy : EvidencePolicyDigest) (updatedAt : Nat) :
    Change DirtyRow where
  selects row := row.evidencePolicy != policy
  write row := { row with
    generation := row.generation + 1, evidencePolicy := policy, updatedAt := updatedAt }

/-- `advance_dirty_policy`. -/
def advanceDirtyPolicy (policy : EvidencePolicyDigest) (updatedAt : Nat) (store : Store) :
    Except ConfigOperationError Store := do
  let outdated := store.dirty.rows.filter fun row => row.evidencePolicy != policy
  require (outdated.all fun row => decide (row.generation < maxInteger)) .resourceExhausted
  require (outdated.all fun row => decide (row.updatedAt ≤ updatedAt)) .invalidInput
  require (decide (updatedAt ≤ maxInteger)) .invalidInput
  let (dirty, _) ←
    orError (store.dirty.update (advanceDirtyPolicyStatement policy updatedAt)) .storage
  pure { store with dirty }

/-- `append_configuration`. -/
def appendConfiguration (current candidate : ConfigBinding) (appliedAt : Nat) (store : Store) :
    Except ConfigOperationError (ConfigApplyOutcome × Store) := do
  let history ← readHistory store
  let latest ← orError history.getLast? .binding
  require (latest.binding == current) .binding
  if latest.binding == candidate then
    pure (⟨latest.generation, false⟩, store)
  else do
    require (decide (latest.generation < configBindingMaxGenerations)) .resourceExhausted
    require (decide (latest.appliedAt ≤ appliedAt)) .invalidInput
    let store ←
      if latest.binding.evidencePolicy != candidate.evidencePolicy then
        advanceDirtyPolicy candidate.evidencePolicy appliedAt store
      else
        pure store
    let store ← insertBinding (latest.generation + 1) candidate appliedAt store
    let updated ← readHistory store
    let actual ← orError updated.getLast? .binding
    require (actual.generation == latest.generation + 1 && actual.binding == candidate) .binding
    pure (⟨latest.generation + 1, true⟩, store)

end Bindings

/-- `RhiStateHost`: the open store as its metadata describes it. -/
structure Host where
  mode : HostMode
  binding : ConfigBinding
deriving DecidableEq, Repr

end Rhi
