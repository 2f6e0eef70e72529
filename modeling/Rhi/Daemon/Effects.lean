import Rhi.Daemon
import Rhi.Service.Dirty

/-!
# Moves of the daemon as calls of the service

Every move writes the store through at most one call of the state service, so that what holds over
every run of the service holds over every run of the daemon.
-/

namespace Rhi

open Relational Transactional

variable [Sha256] [TradeEvidence]

section Calls

/-- The operation a move of the worker performs. -/
def Worker.operation (setting : Setting) (move : WorkerMove) (worker : Worker) :
    Option Operation :=
  match move, worker with
  | .claim disposition now, .idle => some (.claimNext disposition setting.owner now)
  | .commitReplays disposition, .fetching lease plan [] replays =>
      some (.commitSourceReplays disposition lease plan replays)
  | .finalize disposition, .attested _ _ attestation now =>
      some (.commitFinalization disposition attestation setting.publication now)
  | .recordFailure disposition now draws, .failing lease =>
      (lease.sampleDelay draws).map fun delay => .recordFailure disposition lease now delay
  | _, _ => none

/-- The operation a move of the subscription performs. -/
def Subscription.operation (setting : Setting) (move : SubscriptionMove)
    (subscription : Subscription) : Option Operation :=
  match move, subscription with
  | .ingest disposition, .ingesting source admitted initial =>
      some (.commitSourceResult disposition source admitted.event.tradeId admitted.observedAt
        initial (subscribedResult admitted))
  | .schedule disposition, .scheduling trade observedAt =>
      (unixMilliseconds (observedAt.get * 1000)).map fun now =>
        .scheduleTrade disposition trade setting.configuration.jobPolicy now
  | _, _ => none

/-- The call of the service a move makes. -/
def Move.call (move : Move) (daemon : Daemon) : Option Call :=
  match move, daemon.running with
  | .start disposition setting appliedAt, none =>
      some (.openReadWrite disposition setting.configuration.binding appliedAt)
  | .stop, some _ => some .close
  | .applyConfiguration opening applying current candidate appliedAt, none =>
      some (.applyConfiguration opening applying current candidate appliedAt)
  | .worker move, some running =>
      (running.worker.operation running.setting move).map .operation
  | .subscription move, some running =>
      (running.subscription.operation running.setting move).map .operation
  | .progressOutbox change, some _ => some (.operation (.progressOutbox change))
  | .progressTargets change, some _ => some (.operation (.progressTargets change))
  | _, _ => none

theorem Worker.step_store (setting : Setting) (move : WorkerMove) (worker : Worker)
    (store : Store) : (worker.step setting move store).2 =
      (worker.operation setting move).elim store fun operation =>
        operation.run setting.host store := by
  unfold Worker.step Worker.operation
  split
  · rfl
  · dsimp only
    split <;> rfl
  · simp only [Option.elim_some, Operation.run]
    split <;> simp_all
  · dsimp only
    split
    · rfl
    · split <;> rfl
  · dsimp only
    split <;> rfl
  · simp only [Option.elim_some, Operation.run]
    split <;> simp_all
  · split
    · simp_all
    · simp only [*, Option.map_some, Option.elim_some, Operation.run]
      split <;> simp_all
  · simp_all

theorem Subscription.step_store (setting : Setting) (move : SubscriptionMove)
    (subscription : Subscription) (store : Store) :
    (subscription.step setting move store).2 =
      (subscription.operation setting move).elim store fun operation =>
        operation.run setting.host store := by
  unfold Subscription.step Subscription.operation
  split
  · split
    · split <;> rfl
    · rfl
  · simp only [Option.elim_some, Operation.run, Setting.host, if_true]
    split
    · simp_all [Configuration.policy]
    · split <;> simp_all [Configuration.policy]
  · split
    · simp_all
    · simp only [*, Option.map_some, Option.elim_some, Operation.run]
      split <;> simp_all
  · simp_all

/-- A move changes the service as its call does, if it makes one. -/
theorem service_apply (move : Move) (daemon : Daemon) :
    (daemon.apply move).service =
      (move.call daemon).elim daemon.service fun call => daemon.service.apply call := by
  rcases daemon with ⟨store, _ | running⟩
  · cases move with
    | start disposition setting appliedAt =>
        simp only [Daemon.apply, Move.call, Daemon.service, Option.map_none, Option.elim_some,
          Service.apply, Option.map_map]
        cases opened : openReadWrite disposition setting.configuration.binding appliedAt store with
        | mk host next =>
            cases host with
            | none => rfl
            | some host =>
                rw [((openReadWrite_spec opened).2 host rfl).1]
                rfl
    | applyConfiguration => rfl
    | _ => rfl
  · cases move with
    | worker move =>
        simp only [Daemon.apply, Move.call, Daemon.service, Option.map_some,
          Worker.step_store]
        cases running.worker.operation running.setting move <;> rfl
    | subscription move =>
        simp only [Daemon.apply, Move.call, Daemon.service, Option.map_some,
          Subscription.step_store]
        cases running.subscription.operation running.setting move <;> rfl
    | _ => rfl

/-- An invariant of the service holds over every run of the daemon. -/
theorem service_invariant (invariant : Service → Prop)
    (kept : ∀ call service, invariant service → invariant (service.apply call))
    (moves : List Move) {daemon : Daemon} (initially : invariant daemon.service) :
    invariant (Daemon.exec moves daemon).service := by
  refine Transition.exec_invariant (fun daemon : Daemon => invariant daemon.service) ?_ moves
    initially
  intro move daemon holds
  rw [service_apply]
  cases move.call daemon with
  | none => exact holds
  | some call => exact kept call _ holds

end Calls

end Rhi
