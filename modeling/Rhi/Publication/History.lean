import Rhi.Publication.Publishers

/-!
# Outboxes under changed configurations

An outbox keeps the authority it was committed under.  A worker of another authority stops at the
oldest due outbox that is not its own, and changes nothing.
-/

namespace Rhi

open Relational Transactional

namespace Publication

section Origins

theorem bound_of_identity {binding : AuthorityBinding} {old new : OutboxRow}
    (same : old.SameIdentity new) (bound : Bound binding old) : Bound binding new := by
  rcases same with ⟨-, -, -, authority, targetSet, count, required, attempts, initial, maximum,
    deadline, -⟩
  simp only [Bound, OutboxRecord.boundTo, OutboxRow.record] at bound ⊢
  rw [authority, targetSet, count, required, attempts, initial, maximum, deadline]
  exact bound

variable [Sha256]

/-- The outbox is bound to an admitted authority. -/
def Originated (current : Snapshot) : Prop :=
  ∃ (authorized : Authorized) (binding : AuthorityBinding),
    AuthorityBinding.fromAuthority authorized.authority = some binding ∧ Bound binding current.row

theorem Opens.originated {required : RequiredPublication} (opens : Opens required)
    (attestation : Attestation) (now : Nat) :
    Originated (.opened required attestation now) := by
  rcases opens.made with ⟨event, authorized, made⟩
  unfold requiredPublication at made
  split at made
  · simp only [Option.bind_eq_bind, Option.bind_eq_some_iff, Option.pure_def, Option.some.injEq,
      reduceCtorEq, and_false, exists_false] at made
  · rename_i isRequired
    simp only [Option.bind_eq_bind, Option.bind_eq_some_iff, Option.guard_eq_some', Option.pure_def,
      Option.some.injEq] at made
    rcases made with ⟨retry, isRetry, -, ⟨-, bounded, -⟩, rfl⟩
    have few : authorized.authority.targets.length ≤ 255 := by
      unfold publicationMaxTargets at bounded
      omega
    refine ⟨authorized, ⟨authorized.authority.authority, authorized.authority.targetSet,
      authorized.authority.targets.length, authorized.authority.targets.countP (·.required), retry⟩,
      ?_, ?_⟩
    · simp [AuthorityBinding.fromAuthority, isRequired, isRetry, few, guard]
    · simp [Bound, OutboxRecord.boundTo, OutboxRow.record, Snapshot.opened,
        RequiredPublication.outboxRow]

variable [TradeEvidence]

theorem originated_exec (moves : List PublishersMove) :
    Every Originated (Publishers.exec moves .initial).service.store := by
  have kept := Transition.exec_invariant
    (fun state : Publishers => Disciplined state ∧ Every Originated state.service.store)
    (fun move state kept => ⟨disciplined_apply move state kept.1, ?_⟩) moves
    ⟨disciplined_exec [], fun _ _ read => by cases read⟩
  · exact kept.2
  · rw [service_apply]
    cases isCall : move.call state with
    | none => exact kept.2
    | some call =>
        refine kept.2.advance (advance_of_apply call kept.1.orderly.referenced kept.1.orderly.sound)
          (fun _ attestation now opens => opens.originated attestation now) ?_
        rintro action current next - - ⟨authorized, binding, isBinding, bound⟩ step
        exact ⟨authorized, binding, isBinding, bound_of_identity step.identity bound⟩

end Origins

section Histories

variable [Sha256] [TradeEvidence]

omit [Sha256] [TradeEvidence] in
theorem transaction_invariant {Value : Type} {disposition : Disposition}
    {body : Store → Except PublicationOperationError (Value × Store)} {store : Store} :
    (transaction mapPublicationError disposition body store).1 = .error .invariant ↔
      disposition ≠ .aborted ∧ body store = .error .invariant := by
  have distinct := mapPublicationError_distinct .invariant (by decide)
  exact transaction_operation_iff distinct

/-- In every history of configurations, finalizations and attempts a claim breaks an invariant
exactly when the oldest due outbox is not bound to the authority of the worker, and the search for
an expired lease exactly when the oldest expired one is not; neither changes anything.  Every outbox
is bound to the authority it was committed under, and a recovery that was begun breaks an invariant
only when two attempts have one identity. -/
theorem invariants_break_on_foreign_outboxes (moves : List PublishersMove) :
    (∀ disposition owner (now : UnixMilliseconds) authority,
      ((claimNextPublication .readWriteExisting disposition owner now authority
          (Publishers.exec moves .initial).service.store).1 = .error .invariant ↔
        disposition ≠ .aborted ∧ ∃ binding ∈ AuthorityBinding.fromAuthority authority, ∃ row,
          readClaimableOutbox now.get
            (Publishers.exec moves .initial).service.store.outbox.rows = some row ∧
          ¬Bound binding row) ∧
      ((claimNextPublication .readWriteExisting disposition owner now authority
          (Publishers.exec moves .initial).service.store).1 = .error .invariant →
        (claimNextPublication .readWriteExisting disposition owner now authority
          (Publishers.exec moves .initial).service.store).2 =
            (Publishers.exec moves .initial).service.store)) ∧
    (∀ disposition (now : UnixMilliseconds) authority,
      readExpiredPublication .readWriteExisting disposition now authority
          (Publishers.exec moves .initial).service.store = .error .invariant ↔
        disposition ≠ .aborted ∧ ∃ binding ∈ AuthorityBinding.fromAuthority authority, ∃ row,
          readExpiredOutbox now.get
            (Publishers.exec moves .initial).service.store.outbox.rows = some row ∧
          ¬Bound binding row) ∧
    (∀ id row, outboxRow id (Publishers.exec moves .initial).service.store = some row →
      ∃ (authorized : Authorized) (binding : AuthorityBinding),
        AuthorityBinding.fromAuthority authorized.authority = some binding ∧ Bound binding row) ∧
    (∀ disposition candidate now delay,
      (recoverExpiredPublication disposition candidate now delay
        (Publishers.exec moves .initial).service.store).1 = .error .invariant →
      Collides candidate.outbox.id (Publishers.exec moves .initial).service.store) := by
  have disciplined := disciplined_exec moves
  have originated := originated_exec moves
  generalize (Publishers.exec moves .initial) = state at disciplined originated
  refine ⟨?_, ?_, ?_, ?_⟩
  · intro disposition owner now authority
    simp only [claimNextPublication, ne_eq, not_true_eq_false, if_false]
    cases isBinding : AuthorityBinding.fromAuthority authority with
    | none => simp
    | some binding =>
        simp only [transaction_invariant, claimNext_invariant disciplined.orderly,
          Option.mem_some_iff, exists_eq_left', ne_eq, true_and]
        intro broken
        have failed := transaction_invariant.mpr ⟨broken.1,
          (@claimNext_invariant _ owner now binding _ disciplined.orderly).mpr broken.2⟩
        exact transaction_store_of_error failed (by decide)
  · intro disposition now authority
    simp only [readExpiredPublication, ne_eq, not_true_eq_false, if_false]
    cases isBinding : AuthorityBinding.fromAuthority authority with
    | none => simp
    | some binding =>
        simp only [transaction_invariant, bind_eq_error, pure_ne_error, and_false, exists_false,
          or_false, readExpiredCandidate_invariant disciplined.coherent, Option.mem_some_iff,
          exists_eq_left', ne_eq]
  · intro id row stored
    exact originated id ⟨row, _, _⟩ (snapshot_eq_some.mpr ⟨stored, rfl, rfl⟩)
  · intro disposition candidate now delay broken
    by_contra apart
    have failed := (transaction_invariant.mp broken).2
    exact (recoverExpired_error disciplined.orderly disciplined.coherent apart failed).1 rfl

end Histories

section Exceptions

namespace Sample

open Rhi.Sample

local instance : Sha256 := ⟨Hashing.sha256⟩

local instance : TradeEvidence where
  Mutation := Unit
  mutationId _ := none
  tradeId _ := trade
  acceptsSourceId _ := true
  acceptsSourceResult _ _ _ := true
  manifest _ := none
  decode _ := none
  reduce _ _ _ _ := ⟨none, none, .missing, 0, [], [], [], [], false⟩

/-- A later configuration, with two attempts instead of one. -/
def laterDocument : PublicationDocument := { document with
  configuration := 0x9a#256
  publication := .required [source, backup] ⟨2, 1000, 10000, 5000⟩ }

def changed : Authorized :=
  ⟨laterDocument, (deriveAuthority laterDocument).get (by decide +kernel),
    (Option.some_get _).symm⟩

/-- The service is stopped, the later configuration is applied, and it is started again. -/
def reconfigured (moves : List PublishersMove) : List PublishersMove := moves ++ [
  .other (.service .close rfl) rfl,
  .other (.service (.applyConfiguration .acknowledged .acknowledged configuration.binding
    (binding 0x9a#256 policy) 2) rfl) rfl,
  .other (.service (.openReadWrite .acknowledged (binding 0x9a#256 policy) 2) rfl) rfl]

def opened : List PublishersMove :=
  finalized.pmap PublishersMove.other (by simp [finalized, calls, Move.isExternal])

/-- The executor crashes with its lease. -/
def abandoned : List PublishersMove := opened ++ [
  .executor 0 (.begin .acknowledged publishedAt authorized),
  .executor 0 (.claim .acknowledged owner),
  .crash 0]

/-- After the later configuration is applied, an outbox of the earlier one stops the claim, and a
lease of the earlier one stops the recovery. -/
theorem earlier_outbox_stops_worker :
    (Publishers.exec (reconfigured opened) .initial).service.host =
      some ⟨.readWriteExisting, binding 0x9a#256 policy⟩ ∧
    (claimNextPublication .readWriteExisting .acknowledged owner publishedAt changed.authority
      (Publishers.exec (reconfigured opened) .initial).service.store).1 = .error .invariant ∧
    (Publishers.exec (reconfigured abandoned) .initial).service.host =
      some ⟨.readWriteExisting, binding 0x9a#256 policy⟩ ∧
    readExpiredPublication .readWriteExisting .acknowledged ⟨1000103000, by decide⟩
      changed.authority (Publishers.exec (reconfigured abandoned) .initial).service.store =
        .error .invariant := by
  decide +kernel

end Sample

end Exceptions

end Publication

end Rhi
