import Rhi.Finalization
import Rhi.Lib.Transition

/-!
# The state service

The store with the host that has it open.  One host holds the authority to write; the calls below
are everything that can change the durable tables.  Clocks, leases and the way each commit ends are
arguments of a call, so that a run ranges over all of them.
-/

namespace Rhi

open Relational Transactional

/-- A call of a repository of an open host.  The initial state of `commitSourceResult` was read
earlier; progress of a publication is any update the triggers of its tables let through. -/
inductive Operation where
  | scheduleTrade (disposition : Disposition) (trade : TradeId) (policy : JobPolicy)
      (now : UnixMilliseconds)
  | claimNext (disposition : Disposition) (owner : LeaseOwner) (now : UnixMilliseconds)
  | renew (disposition : Disposition) (lease : Lease) (now : UnixMilliseconds)
  | recordFailure (disposition : Disposition) (lease : Lease) (now : UnixMilliseconds)
      (delay : RetryDelay)
  | commitSourceResult (disposition : Disposition) (source : SourceId) (trade : TradeId)
      (observedAt : ObservedAt) (initial : InitialState) (fetched : FetchedSource trade)
  | commitSourceReplays (disposition : Disposition) (lease : Lease) (plan : AttemptPlan)
      (replays : List SealedReplay)
  | commitFinalization (disposition : Disposition) (attestation : Attestation)
      (publication : PublicationAuthority) (now : UnixMilliseconds)
  | progressOutbox (change : Change OutboxRow)
  | progressTargets (change : Change TargetRow)

/-- A call of the service. -/
inductive Call where
  | openReadWrite (disposition : Disposition) (binding : ConfigBinding) (appliedAt : Nat)
  | openInspection (binding : ConfigBinding)
  | close
  | applyConfiguration (opening applying : Disposition) (current candidate : ConfigBinding)
      (appliedAt : Nat)
  | operation (operation : Operation)

/-- The durable store and the host that has it open. -/
structure Service where
  store : Store
  host : Option Host

/-- A freshly migrated store that nobody has open. -/
def Service.initial : Service := ⟨.initial, none⟩

section Opening

/-- `open_rhi_state_read_write`. -/
def openReadWrite (disposition : Disposition) (binding : ConfigBinding) (appliedAt : Nat)
    (store : Store) : Option Host × Store :=
  match transaction mapConfigError disposition (bindOrVerify binding appliedAt) store with
  | (.ok _, store) => (some ⟨.readWriteExisting, binding⟩, store)
  | (.error _, store) => (none, store)

/-- `open_rhi_state_inspection`. -/
def openInspection (binding : ConfigBinding) (store : Store) : Option Host :=
  match verifyBinding binding store with
  | .ok _ => some ⟨.readOnlyInspection, binding⟩
  | .error _ => none

/-- `apply_rhi_configuration`: it opens the store with the current configuration, appends the
candidate and closes again. -/
def applyConfiguration (opening applying : Disposition) (current candidate : ConfigBinding)
    (appliedAt : Nat) (store : Store) : Except ConfigApplyErrorKind ConfigApplyOutcome × Store :=
  match openReadWrite opening current appliedAt store with
  | (none, store) => (.error .binding, store)
  | (some _, store) =>
      transaction mapConfigError applying (appendConfiguration current candidate appliedAt) store

end Opening

variable [Sha256] [TradeEvidence]

/-- The store after an operation of an open host.  A source is configured under the policy of the
host, or its ingest is refused. -/
def Operation.run (operation : Operation) (host : Host) (store : Store) : Store :=
  match operation with
  | .scheduleTrade disposition trade policy now =>
      (Rhi.scheduleTrade host.mode disposition trade policy now store).2
  | .claimNext disposition owner now => (claimNextJob host.mode disposition owner now store).2
  | .renew disposition lease now => (Rhi.renew host.mode disposition lease now store).2
  | .recordFailure disposition lease now delay =>
      (Rhi.recordFailure host.mode disposition lease now delay store).2
  | .commitSourceResult disposition source _ observedAt initial fetched =>
      if host.mode = .readWriteExisting then
        (Rhi.commitSourceResult disposition source host.binding.evidencePolicy observedAt initial
          fetched store).2
      else
        store
  | .commitSourceReplays disposition lease plan replays =>
      (Rhi.commitSourceReplays host.mode disposition lease plan replays store).2
  | .commitFinalization disposition attestation publication now =>
      (Rhi.commitFinalization host disposition attestation publication now store).2
  | .progressOutbox change =>
      match host.mode, store.outbox.update change with
      | .readWriteExisting, some (outbox, _) => { store with outbox }
      | _, _ => store
  | .progressTargets change =>
      match host.mode, store.targets.update change with
      | .readWriteExisting, some (targets, _) => { store with targets }
      | _, _ => store

/-- The service after a call.  A store that is open is not opened again. -/
def Service.apply (call : Call) (service : Service) : Service :=
  match call, service.host with
  | .openReadWrite disposition binding appliedAt, none =>
      let (host, store) := openReadWrite disposition binding appliedAt service.store
      ⟨store, host⟩
  | .openInspection binding, none => ⟨service.store, openInspection binding service.store⟩
  | .close, _ => ⟨service.store, none⟩
  | .applyConfiguration opening applying current candidate appliedAt, none =>
      ⟨(applyConfiguration opening applying current candidate appliedAt service.store).2, none⟩
  | .operation operation, some host => ⟨operation.run host service.store, some host⟩
  | _, _ => service

/-- The service after a run. -/
def Service.exec (calls : List Call) (service : Service) : Service :=
  Transition.exec Service.apply calls service

end Rhi
