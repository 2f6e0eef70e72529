import Rhi.Runtime
import Rhi.Service.Board

/-!
# What the tasks do to each other

Seen through the tables a task works on, a move of another task is a call of the service, progress
of publications alone, or nothing.  So each task keeps what its own runs keep.
-/

namespace Rhi

open Relational Transactional

section Publications

variable [Sha256] [TradeEvidence]

omit [Sha256] [TradeEvidence] in
theorem PublicationOnly.refl (store : Store) : PublicationOnly store store := rfl

omit [TradeEvidence] in
/-- Executors finalize nothing. -/
theorem Publication.finalizes_of_internal {call : Publication.Move}
    (internal : call.isExternal = false) : call.finalizes = false := by
  cases call with
  | service | finalize | retry => cases internal
  | claim | prepare | record | recover => rfl

omit [TradeEvidence] in
theorem publicationOnly_run (move : Publication.Move) (other : move.finalizes = false) {host : Host}
    {service : Service} (orderly : Publication.Orderly service.store) :
    PublicationOnly service.store (move.run host service.store) := by
  rcases @Publication.step_of_run _ move other host service orderly.referenced orderly.sound with
    same | ⟨action, id, current, next, stepped, -⟩
  · rw [same]
    exact .refl _
  · exact stepped.touched.only

/-- A call of the publication repository is a call of the service, or progress of publications. -/
theorem Publication.apply_cases (move : Publication.Move) {service : Service}
    (orderly : Publication.Orderly service.store) :
    (∃ call : Call, move.apply service = service.apply call ∧
        (move.finalizes = false → call.finalizes = false)) ∨
      ((move.apply service).host = service.host ∧
        PublicationOnly service.store (move.apply service).store) := by
  cases move with
  | service call other =>
      refine .inl ⟨call, rfl, fun _ => ?_⟩
      cases call with
      | operation operation =>
          cases operation with
          | commitFinalization => cases other
          | _ => rfl
      | _ => rfl
  | finalize disposition signed authorized now =>
      cases opened : service.host with
      | none =>
          refine .inr ⟨?_, ?_⟩
          · simp only [Publication.Move.apply, opened]
          · simp only [Publication.Move.apply, opened]
            exact .refl _
      | some host =>
          refine .inl ⟨.operation (.commitFinalization disposition signed.attestation
            authorized.authority now), ?_, fun impossible => by cases impossible⟩
          simp only [Publication.Move.apply, Service.apply, opened]
          rfl
  | claim | prepare | record | recover | retry =>
      right
      cases opened : service.host with
      | none =>
          simp only [Publication.Move.apply, opened]
          exact ⟨trivial, .refl _⟩
      | some host =>
          simp only [Publication.Move.apply, opened]
          exact ⟨trivial, publicationOnly_run _ (by rfl) orderly⟩

variable {before after : Store}

omit [TradeEvidence] in
theorem PublicationOnly.boarded (only : PublicationOnly before after)
    {host : Option Host} (boarded : (Service.mk before host).Boarded) :
    (Service.mk after host).Boarded where
  bound := bound_of_same boarded.bound (by rw [only]) (by rw [only])
  wellFormed row rowMem := by
    rw [only] at rowMem
    exact boarded.wellFormed row rowMem
  behind := by
    rw [only]
    exact boarded.behind
  documented := boarded.documented.of_same (by rw [only]) (by rw [only])

omit [Sha256] [TradeEvidence] in
theorem PublicationOnly.board (only : PublicationOnly before after) :
    after.board = before.board :=
  board_of_same (by rw [only]) (by rw [only]) (by rw [only])

omit [TradeEvidence] in
theorem PublicationOnly.informed (only : PublicationOnly before after) {worker : Worker}
    (informed : worker.Informed before) : worker.Informed after := by
  rw [only]
  exact ⟨informed.seen, informed.attested⟩

/-- Every signed event is the event of a report. -/
def EventsReported (store : Store) : Prop :=
  ∀ event ∈ store.signedEvents.rows, ∃ report ∈ store.reports.rows,
    report.statementDigest = event.statementDigest

omit [TradeEvidence] in
theorem EventsReported.of_effect {host : Host} {operation : Operation}
    (reported : EventsReported before) (effect : Effect host before operation after) :
    EventsReported after := by
  rcases reports_of_effect effect with
    ⟨sameReports, sameEvents⟩ | ⟨_, _, _, _, record, -, -, created⟩
  · intro event eventMem
    rw [sameEvents] at eventMem
    rw [sameReports]
    exact reported event eventMem
  · have reports : after.reports.rows = before.reports.rows ++ [record.attestation.reportRow] :=
      created.inserted.reports
    have events : after.signedEvents.rows =
        before.signedEvents.rows ++ [record.attestation.signedEventRow] :=
      created.inserted.signedEvents
    intro event eventMem
    rw [events, List.mem_append, List.mem_singleton] at eventMem
    rw [reports]
    rcases eventMem with old | rfl
    · rcases reported event old with ⟨report, reportMem, same⟩
      exact ⟨report, List.mem_append_left _ reportMem, same⟩
    · exact ⟨_, List.mem_append_right _ (List.mem_singleton_self _), rfl⟩

theorem eventsReported_apply (call : Call) (service : Service)
    (reported : EventsReported service.store) : EventsReported (service.apply call).store := by
  rcases apply_cases call service with ⟨operation, host, rfl, -, applied⟩ | only
  · rw [applied]
    exact reported.of_effect (run_effect operation host service.store)
  · rw [only]
    exact reported

end Publications

section Moves

variable [Sha256] [TradeEvidence]

/-- What every task relies on in the tables of the service. -/
structure Service.Shared (service : Service) : Prop where
  boarded : service.Boarded
  orderly : Publication.Orderly service.store
  reported : EventsReported service.store

theorem shared_initial : Service.initial.Shared where
  boarded := boarded_initial
  orderly := Publication.orderly_initial
  reported event eventMem := by cases eventMem

/-- The service, moved by publications as well, simulates the board of its store. -/
theorem publications_simulate_board : Simulation.Simulates Publication.Move.apply Service.Shared
    Board.Step fun service => service.store.board where
  kept move service shared := by
    have orderly := Publication.orderly_apply move service shared.orderly
    rcases Publication.apply_cases move shared.orderly with ⟨call, same, -⟩ | ⟨host, only⟩
    · rw [same] at orderly ⊢
      exact ⟨boarded_apply call service shared.boarded, orderly,
        eventsReported_apply call service shared.reported⟩
    · refine ⟨?_, orderly, ?_⟩
      · have boarded : (Service.mk service.store (move.apply service).host).Boarded := by
          rw [host]
          exact shared.boarded
        exact only.boarded boarded
      · rw [only]
        exact shared.reported
  simulated move service shared := by
    rcases Publication.apply_cases move shared.orderly with ⟨call, same, -⟩ | ⟨-, only⟩
    · rw [same]
      exact simulates_board.simulated call service shared.boarded
    · simp only [only.board]
      exact .refl

/-- A worker that does not move stays informed. -/
theorem informed_move (move : Publication.Move) {service : Service}
    (orderly : Publication.Orderly service.store) {worker : Worker}
    (informed : worker.Informed service.store) :
    worker.Informed (move.apply service).store := by
  rcases Publication.apply_cases move orderly with ⟨call, same, -⟩ | ⟨-, only⟩
  · rw [same]
    exact informed_apply call informed
  · exact only.informed informed

/-- Only a finalization appends a report. -/
theorem reports_of_move (move : Publication.Move) (other : move.finalizes = false)
    {service : Service} (orderly : Publication.Orderly service.store) :
    (move.apply service).store.reports = service.store.reports ∧
      (move.apply service).store.signedEvents = service.store.signedEvents := by
  rcases Publication.apply_cases move orderly with ⟨call, same, silent⟩ | ⟨-, only⟩
  · rw [same]
    rcases apply_cases call service with ⟨operation, host, rfl, -, applied⟩ | same
    · rw [applied]
      rcases reports_of_effect (run_effect operation host service.store) with
        same | ⟨_, _, _, _, record, rfl, -⟩
      · exact same
      · cases silent other
    · rw [same]
      exact ⟨rfl, rfl⟩
  · rw [only]
    exact ⟨rfl, rfl⟩

end Moves

section Presence

theorem Presence.transaction_bindings {Error Value Report : Type} {report : Failure Error → Report}
    {disposition : Disposition} {body : PresenceStore → Except Error (Value × PresenceStore)}
    {store : PresenceStore}
    (done : ∀ value next, body store = .ok (value, next) →
      next.configBindings = store.configBindings) :
    (transaction report disposition body store).2.configBindings = store.configBindings :=
  @transaction_kept _ _ _ _ _ _ (fun next => next.configBindings = store.configBindings) store rfl
    done

variable [Sha256] [PresenceEvents]

/-- Presence writes no binding. -/
theorem Presence.bindings_apply (move : Presence.Move) {system : Presence.System}
    (other : ∀ bindings, move ≠ .configure bindings) (lawful : Presence.Lawful system) :
    (system.apply move).store.configBindings = system.store.configBindings := by
  have sound := lawful.sound
  cases move with
  | configure bindings => exact absurd rfl (other bindings)
  | desire disposition authority =>
      simp only [System.apply, commitDesiredPresence, ne_eq, not_true_eq_false, if_false]
      refine transaction_bindings ?_
      intro outcome next done
      rw [(commitDesired_spec done).1]
  | commit disposition documents committedAt =>
      simp only [System.apply, commitSignedPresence, ne_eq, not_true_eq_false, if_false]
      refine transaction_bindings ?_
      intro outcome next done
      rcases commitSigned_spec lawful.historic.referenced done with
        ⟨desired, -, -, -, ⟨-, rfl, -⟩ | opened⟩
      · rfl
      · rcases opened.superseded with ⟨outbox, affected, -, inserted⟩
        exact inserted.bindings
  | claim disposition owner now =>
      simp only [System.apply, claimNextPresence, ne_eq, not_true_eq_false, if_false]
      refine transaction_bindings ?_
      intro outcome next done
      cases outcome with
      | none => rw [claimNext_none done]
      | some lease =>
          rcases claimNext_spec sound done with ⟨record, -, -, stepped⟩
          exact stepped.kept.bindings
  | prepare disposition lease startedAt =>
      simp only [System.apply]
      split
      · rename_i leaseMem
        simp only [prepareNextPresenceTarget, ne_eq, not_true_eq_false, if_false]
        refine transaction_bindings ?_
        intro prepared next done
        rcases prepareNext_spec sound (lawful.quiet lease leaseMem) done with
          ⟨old, -, -, -, -, -, -, -, stepped⟩
        exact stepped.kept.bindings
      · rfl
  | record disposition prepared finishedAt outcome delay =>
      simp only [System.apply]
      split
      · simp only [recordPresenceOutcome, ne_eq, not_true_eq_false, if_false]
        split
        · rfl
        · refine transaction_bindings ?_
          intro committed next done
          rcases recordOutcome_spec sound done with rfl | ⟨record, released, stepped, -⟩
          · rfl
          · exact stepped.kept.bindings
      · rfl
  | recover disposition candidate now delay =>
      refine transaction_bindings ?_
      intro done next recovered
      rcases recoverExpired_spec lawful.coherent recovered with
        ⟨settled, state, schedule, stepped, -, -⟩
      exact stepped.kept.bindings
  | refresh disposition expected now =>
      refine transaction_bindings ?_
      intro done next refreshed
      exact (refresh_spec refreshed).1.bindings

omit [Sha256] [PresenceEvents] in
theorem presence_withPresence {database : Database} {presence : PresenceStore}
    (same : presence.configBindings = database.presence.configBindings) :
    (database.withPresence presence).presence = presence := by
  rcases presence with ⟨bindings, desired, outbox, targets, attempts⟩
  simp only at same
  rw [same]
  rfl

end Presence

section Handling

theorem presence_of_publicationOnly {database : Database} {store : Store}
    (only : PublicationOnly database.store store) :
    ({ database with store } : Database).presence = database.presence := by
  simp only [Database.presence]
  rw [only]

theorem presence_of_jobsOnly {database : Database} {store : Store}
    (only : JobsOnly database.store store) :
    ({ database with store } : Database).presence = database.presence := by
  simp only [Database.presence]
  rw [only]

variable [Sha256] [ResponseModels] [AdminJson] [PresenceEvents]

/-- The calls of presence that an admin request makes. -/
def Presence.Move.Requested : Presence.Move → Prop
  | .desire .. | .commit .. | .refresh .. => True
  | _ => False

/-- What the handling of a request does to the database, besides the journal and the backups. -/
inductive Handled (leases : List PresenceLease) (attempts : List PreparedPresence)
    (before after : Database) : Prop where
  | kept (store : after.store = before.store) (presence : after.presence = before.presence)
  | scheduled (disposition : Disposition) (trade : TradeId) (policy : JobPolicy)
      (now : UnixMilliseconds)
      (store : after.store =
        (scheduleTrade .readWriteExisting disposition trade policy now before.store).2)
      (presence : after.presence = before.presence)
  | retried (outbox : Digest) (expected targetCount : Nat) (now : UnixMilliseconds)
      (store : after.store = (Publication.publicationRetry .acknowledged outbox expected targetCount
        now before.store).2)
      (presence : after.presence = before.presence)
  | presented (moves : List Presence.Move) (requested : ∀ move ∈ moves, move.Requested)
      (store : after.store = before.store)
      (presence : (⟨after.presence, leases, attempts⟩ : Presence.System) =
        Presence.System.exec moves ⟨before.presence, leases, attempts⟩)

variable {handler : AdminHandler} {answers : Answers} {request : RequestDocument}
  {leases : List PresenceLease} {attempts : List PreparedPresence} {before : Database}

/-- A prepared mutation does what its effect does. -/
theorem handled_mutate {effect : UnixMilliseconds → Database → EffectResult request}
    {state : Journaled Database} (idle : Handled leases attempts before state.domain)
    (each : ∀ now, Handled leases attempts before (effect now state.domain).2) :
    Handled leases attempts before (mutate handler answers request effect state).2.domain := by
  rcases @mutate_completed _ _ _ handler answers request effect state with
    ⟨domain, -⟩ | ⟨now, domain, -⟩
  · rw [domain]
    exact idle
  · rw [domain]
    exact each now

omit [AdminJson] in
/-- A mutation of the database alone does what its operation does. -/
theorem handled_mutateDatabase
    {operation : UnixMilliseconds → Database → Except JournalError (ResponseDocument × Database)}
    {state : Journaled Database}
    (each : ∀ now response database, operation now state.domain = .ok (response, database) →
      Handled leases attempts state.domain database) :
    Handled leases attempts state.domain
      (mutateDatabase handler answers request operation state).2.domain := by
  rcases (@mutateDatabase_completed _ _ handler answers request operation state).1 with
    domain | ⟨now, response, operated⟩
  · rw [domain]
    exact .kept rfl rfl
  · exact each now response _ operated

theorem handled_backup (state : Journaled Database) :
    Handled leases attempts state.domain (backup handler answers request state).2.domain := by
  unfold backup
  split
  · exact .kept rfl rfl
  · split
    · exact .kept rfl rfl
    · split
      · exact .kept rfl rfl
      · split
        · exact .kept rfl rfl
        · refine handled_mutate (.kept rfl rfl) fun now => ?_
          split <;> exact .kept rfl rfl

/-- The refresh schedules its trade. -/
theorem handled_reconciliationRefresh (mode : handler.mode = .readWriteExisting)
    (state : Journaled Database) :
    Handled leases attempts state.domain
      (reconciliationRefresh handler answers request state).2.domain := by
  unfold reconciliationRefresh
  split
  · exact .kept rfl rfl
  · rename_i trade expected _
    split
    · exact .kept rfl rfl
    · split
      · exact .kept rfl rfl
      · split
        · exact .kept rfl rfl
        · refine handled_mutate (.kept rfl rfl) fun now => ?_
          have only := scheduleTrade_only handler.mode answers.effect trade handler.jobPolicy now
            state.domain.store
          rcases scheduled : scheduleTrade handler.mode answers.effect trade handler.jobPolicy now
            state.domain.store with ⟨result, store⟩
          rw [scheduled] at only
          have after : Handled leases attempts state.domain { state.domain with store } :=
            .scheduled answers.effect trade handler.jobPolicy now (by rw [← mode, scheduled])
              (presence_of_jobsOnly only)
          split
          all_goals
            rename_i returned
            cases returned
            exact after

theorem handled_publicationRetry (state : Journaled Database) :
    Handled leases attempts state.domain
      (publicationRetry handler answers request state).2.domain := by
  unfold publicationRetry
  split
  · exact .kept rfl rfl
  · rename_i workflow expected _
    refine handled_mutateDatabase fun now response database operated => ?_
    unfold retryOperation at operated
    split at operated
    · cases operated
    · cases operated
    · cases operated
    · rename_i done store row retried found
      split at operated
      · cases operated
      · cases operated
        rcases Publication.retry_spec retried with ⟨current, stepped⟩
        refine .retried workflow expected handler.publicationTargets now ?_
          (presence_of_publicationOnly stepped.touched.only)
        simp only [Publication.publicationRetry, transaction, retried]

/-- The refresh of presence is one call of presence. -/
theorem handled_presenceRefresh {state : Journaled Database}
    (lawful : Presence.Lawful ⟨state.domain.presence, leases, attempts⟩) :
    Handled leases attempts state.domain
      (presenceRefresh handler answers request state).2.domain := by
  unfold presenceRefresh
  split
  · exact .kept rfl rfl
  · rename_i expected _
    refine handled_mutateDatabase fun now response database operated => ?_
    unfold refreshOperation at operated
    split at operated
    · cases operated
    · cases operated
    · cases operated
    · cases operated
    · rename_i done presence desired rest refreshed listed
      dsimp only at operated
      split at operated
      · cases operated
      · cases operated
        have bindings := Presence.bindings_apply (.refresh .acknowledged expected now) (by simp)
          lawful
        have stored : (Presence.presenceRefresh .acknowledged expected now
            state.domain.presence).2 = presence := by
          simp only [Presence.presenceRefresh, transaction, refreshed]
        simp only [Presence.System.apply, stored] at bindings
        refine .presented [.refresh .acknowledged expected now] (by simp [Presence.Move.Requested])
          rfl ?_
        rw [presence_withPresence bindings]
        simp [Presence.System.exec, Presence.System.apply, stored]

/-- The rendering of presence commits the desired state, and the documents unless it is refused. -/
theorem handled_presenceRender (mode : handler.mode = .readWriteExisting)
    {state : Journaled Database}
    (lawful : Presence.Lawful ⟨state.domain.presence, leases, attempts⟩) :
    Handled leases attempts state.domain
      (presenceRender handler answers request state).2.domain := by
  unfold presenceRender
  split
  · exact .kept rfl rfl
  · have bindings := Presence.bindings_apply (.desire answers.check handler.presence) (by simp)
      lawful
    have next := Presence.lawful_apply (.desire answers.check handler.presence) _ lawful
    simp only [Presence.System.apply, mode] at bindings next ⊢
    rcases desired : Presence.commitDesiredPresence .readWriteExisting answers.check
      handler.presence state.domain.presence with ⟨result, presence⟩
    rw [desired] at bindings next
    simp only at bindings next
    have idle : Handled leases attempts state.domain (state.domain.withPresence presence) := by
      refine .presented [.desire answers.check handler.presence]
        (by simp [Presence.Move.Requested]) rfl ?_
      rw [presence_withPresence bindings]
      simp [Presence.System.exec, Presence.System.apply, desired]
    cases result with
    | error error => exact idle
    | ok outcome =>
        dsimp only
        split
        · exact idle
        · refine handled_mutate idle fun now => ?_
          unfold renderEffect
          split
          · exact idle
          · split
            · exact idle
            · rename_i documents _
              have later := Presence.bindings_apply (.commit answers.effect documents now) (by simp)
                next
              simp only [Presence.System.apply] at later
              rw [presence_withPresence bindings, mode]
              rcases committed : Presence.commitSignedPresence .readWriteExisting answers.effect
                documents now presence with ⟨result, rendered⟩
              rw [committed] at later
              have renders : Handled leases attempts state.domain
                  ((state.domain.withPresence presence).withPresence rendered) := by
                refine .presented [.desire answers.check handler.presence,
                  .commit answers.effect documents now] (by simp [Presence.Move.Requested]) rfl ?_
                rw [presence_withPresence (by rw [presence_withPresence bindings]; exact later)]
                simp [Presence.System.exec, Presence.System.apply, desired, committed]
              cases result with
              | error error => exact renders
              | ok commit => exact renders

theorem handleMutation_handled (mode : handler.mode = .readWriteExisting)
    {state : Journaled Database}
    (lawful : Presence.Lawful ⟨state.domain.presence, leases, attempts⟩) :
    Handled leases attempts state.domain
      (handleMutation handler answers request state).2.domain := by
  unfold handleMutation
  split
  · split
    · exact handled_backup state
    · exact handled_reconciliationRefresh mode state
    · exact handled_publicationRetry state
    · exact handled_presenceRender mode lawful
    · exact handled_presenceRefresh lawful
    · exact .kept rfl rfl
  · exact .kept rfl rfl

end Handling

section Views

variable [Sha256] [TradeEvidence]

/-- The attestation of a worker is signed over its own bytes. -/
def Worker.Sealed (worker : Worker) : Prop :=
  ∀ fence replays attestation now, worker = .attested fence replays attestation now →
    Sha256.digest attestation.signedEvent = attestation.signedEventDigest

/-- Attesting with a sealed report makes a sealed attestation. -/
theorem Worker.sealed_step {setting : Setting} {move : WorkerMove} {worker : Worker} {store : Store}
    (isSealed : move.Sealed) (before : worker.Sealed) :
    (worker.step setting move store).1.Sealed := by
  intro fence replays attestation now attested
  rcases Worker.attested_step attested with same | ⟨disposition, signed, rfl, event, digest, -⟩
  · exact before fence replays attestation now same
  · rw [event, digest]
    exact isSealed

/-- What a worker does to the store is a call of the publication repository or of the service. -/
theorem Worker.step_call {process : Process} {index : Nat} {move : WorkerMove} {worker : Worker}
    {service : Service} (isSealed : worker.Sealed) (opened : service.host = some process.host) :
    (worker.step (process.setting index) move service.store).2 = service.store ∨
      ∃ call : Publication.Move, call.isExternal = true ∧
        call.apply service = ⟨(worker.step (process.setting index) move service.store).2,
          service.host⟩ := by
  rw [Worker.step_store]
  cases performed : worker.operation (process.setting index) move with
  | none => exact .inl rfl
  | some operation =>
      right
      have called : ∀ (other : (Call.operation operation).publishes = false),
          (Publication.Move.service (.operation operation) other).apply service =
            ⟨operation.run (process.setting index).host service.store, service.host⟩ := by
        intro other
        simp only [Publication.Move.apply, Service.apply, opened]
        rfl
      unfold Worker.operation at performed
      split at performed
      · cases performed
        exact ⟨.service (.operation _) rfl, rfl, called rfl⟩
      · cases performed
        exact ⟨.service (.operation _) rfl, rfl, called rfl⟩
      · rename_i disposition fence replays attestation now
        cases performed
        refine ⟨.finalize disposition ⟨attestation, isSealed _ _ _ _ rfl⟩ process.publication now,
          rfl, ?_⟩
        simp only [Publication.Move.apply, opened]
        rfl
      · rcases Option.map_eq_some_iff.mp performed with ⟨delay, -, rfl⟩
        exact ⟨.service (.operation _) rfl, rfl, called rfl⟩
      · cases performed

/-- What a subscription does to the store is a call of the service. -/
theorem Subscription.step_call {process : Process} {index : Nat} {move : SubscriptionMove}
    {subscription : Subscription} {service : Service} (opened : service.host = some process.host) :
    (subscription.step (process.setting index) move service.store).2 = service.store ∨
      ∃ call : Call, call.publishes = false ∧ service.apply call =
        ⟨(subscription.step (process.setting index) move service.store).2, service.host⟩ := by
  rw [Subscription.step_store]
  cases performed : subscription.operation (process.setting index) move with
  | none => exact .inl rfl
  | some operation =>
      refine .inr ⟨.operation operation, ?_, ?_⟩
      · unfold Subscription.operation at performed
        split at performed
        · cases performed
          rfl
        · rcases Option.map_eq_some_iff.mp performed with ⟨now, -, rfl⟩
          rfl
        · cases performed
      · simp only [Service.apply, opened]
        rfl

/-- The moves of publishers that may append a report. -/
def Publication.PublishersMove.finalizes : Publication.PublishersMove → Bool
  | .other move _ => move.finalizes
  | _ => false

variable [ResponseModels] [AdminJson] [PresenceEvents]

namespace Runtime

omit [ResponseModels] [AdminJson] in
/-- What the handling of a request does to the service. -/
theorem handled_service {runtime : Runtime} {process : Process} {database : Journaled Database}
    (opened : runtime.process = some process)
    (handled : Handled runtime.leases runtime.attempts runtime.database.domain database.domain) :
    ({ runtime with database } : Runtime).service = runtime.service ∨
      ∃ call : Publication.Move, call.isExternal = true ∧ call.finalizes = false ∧
        ({ runtime with database } : Runtime).service = call.apply runtime.service := by
  cases handled with
  | kept store presence | presented moves requested store presence =>
      left
      simp only [service, Runtime.store, store]
  | scheduled disposition trade policy now store presence =>
      refine .inr ⟨.service (.operation (.scheduleTrade disposition trade policy now)) rfl, rfl,
        rfl, ?_⟩
      simp only [service, Runtime.store, store, Publication.Move.apply, Service.apply, opened,
        Option.map_some, Operation.run]
      rfl
  | retried outbox expected targetCount now store presence =>
      refine .inr ⟨.retry .acknowledged outbox expected targetCount now, rfl, rfl, ?_⟩
      simp only [service, Runtime.store, store, Publication.Move.apply, Publication.Move.run,
        opened, Option.map_some, Process.host, if_true]

/-- What a move does to publications. -/
theorem publishers_apply (move : RuntimeMove) {runtime : Runtime}
    (attested : ∀ index, (runtime.workers index).Sealed)
    (lawful : Presence.Lawful runtime.presence) (stays : move ≠ .stop) :
    (runtime.apply move).publishers = runtime.publishers ∨
      ∃ call : Publication.PublishersMove,
        (runtime.apply move).publishers = runtime.publishers.apply call ∧
          ((∀ index work isSealed, move ≠ .work index work isSealed) → call.finalizes = false) := by
  cases opened : runtime.process with
  | none =>
      cases move with
      | start disposition process appliedAt =>
          refine .inr ⟨.other (.service (.openReadWrite disposition process.configuration.binding
            appliedAt) rfl) rfl, ?_, fun _ => rfl⟩
          simp only [apply, opened, publishers, service, Publication.Publishers.apply,
            Publication.Move.apply, Service.apply, Option.map_none, Option.map_map]
          rcases started : openReadWrite disposition process.configuration.binding appliedAt
            runtime.store with ⟨host, store⟩
          cases host with
          | none => rfl
          | some host =>
              rw [((openReadWrite_spec started).2 host rfl).1]
              rfl
      | stop => exact absurd rfl stays
      | applyConfiguration opening applying current candidate appliedAt =>
          refine .inr ⟨.other (.service (.applyConfiguration opening applying current candidate
            appliedAt) rfl) rfl, ?_, fun _ => rfl⟩
          simp only [apply, opened, publishers, service, Publication.Publishers.apply,
            Publication.Move.apply, Service.apply, Option.map_none]
          simp only [withStore, opened]
          rfl
      | work | subscribe | publish | present | handle =>
          left
          simp only [apply, opened]
  | some process =>
      have host : runtime.service.host = some process.host := by
        simp only [service, opened, Option.map_some]
      cases move with
      | stop => exact absurd rfl stays
      | start | applyConfiguration =>
          left
          simp only [apply, opened]
      | present move isInternal =>
          left
          simp only [apply, opened, publishers, service, Option.map_some]
          rfl
      | work index move isSealed =>
          have stored : (runtime.apply (.work index move isSealed)).publishers =
              ⟨⟨((runtime.workers index).step (process.setting index) move runtime.store).2,
                runtime.service.host⟩, runtime.executors⟩ := by
            simp only [apply, opened]
            rfl
          rw [stored]
          rcases @Worker.step_call _ _ process index move _ _ (attested index) host with
            same | ⟨call, isExternal, same⟩
          · left
            simp only [publishers]
            rw [show runtime.store = runtime.service.store from rfl, same]
          · refine .inr ⟨.other call isExternal, ?_, fun other => absurd rfl (other _ _ _)⟩
            simp only [Publication.Publishers.apply, publishers, same]
            rfl
      | subscribe index move =>
          have stored : (runtime.apply (.subscribe index move)).publishers =
              ⟨⟨((runtime.subscriptions index).step (process.setting index) move runtime.store).2,
                runtime.service.host⟩, runtime.executors⟩ := by
            simp only [apply, opened]
            rfl
          rw [stored]
          rcases @Subscription.step_call _ _ process index move (runtime.subscriptions index) _
            host with same | ⟨call, other, same⟩
          · left
            simp only [publishers]
            rw [show runtime.store = runtime.service.store from rfl, same]
          · refine .inr ⟨.other (.service call other) rfl, ?_, fun _ => rfl⟩
            simp only [Publication.Publishers.apply, publishers, Publication.Move.apply, same]
            rfl
      | publish index move =>
          refine .inr ⟨.executor index (move.under process.publication), ?_, fun _ => rfl⟩
          simp only [apply, opened, publishers, Publication.Publishers.apply, service, withStore,
            Option.map_some, Process.host]
          rfl
      | handle acceptingMutations answers request =>
          have handled := @handleMutation_handled _ _ _ _ (process.handler acceptingMutations)
            answers request runtime.leases runtime.attempts rfl runtime.database lawful
          have applied : runtime.apply (.handle acceptingMutations answers request) =
              { runtime with database := (handleMutation (process.handler acceptingMutations)
                answers request runtime.database).2 } := by
            simp only [apply, opened]
          rw [applied]
          rcases handled_service opened handled with same | ⟨call, isExternal, silent, same⟩
          · left
            simp only [publishers, same]
          · refine .inr ⟨.other call isExternal, ?_, fun _ => silent⟩
            simp only [publishers, same]
            rfl

/-- The move of a worker is the one its own run has. -/
theorem reconcilers_work {runtime : Runtime} {process : Process}
    (opened : runtime.process = some process) (index : Nat) (move : WorkerMove)
    (isSealed : move.Sealed) :
    (runtime.apply (.work index move isSealed)).reconcilers =
      runtime.reconcilers.apply (.worker index (process.setting index) move) := by
  have host : runtime.reconcilers.service.host = some (process.setting index).host := by
    simp only [reconcilers, service, opened, Option.map_some]
    rfl
  simp only [Reconcilers.apply, host, if_true]
  simp only [apply, opened, reconcilers, service, withStore, Option.map_some]
  rfl

/-- The other moves leave the workers alone. -/
theorem workers_apply {move : RuntimeMove} (runtime : Runtime) (stays : move ≠ .stop)
    (other : ∀ index work isSealed, move ≠ .work index work isSealed) :
    (runtime.apply move).workers = runtime.workers := by
  cases opened : runtime.process with
  | none =>
      cases move with
      | stop => exact absurd rfl stays
      | work => exact absurd rfl (other _ _ _)
      | start | applyConfiguration =>
          simp only [apply, opened]
          rfl
      | subscribe | publish | present | handle => simp only [apply, opened]
  | some process =>
      cases move with
      | stop => exact absurd rfl stays
      | work => exact absurd rfl (other _ _ _)
      | start | applyConfiguration => simp only [apply, opened]
      | subscribe | publish =>
          simp only [apply, opened]
          rfl
      | present | handle => simp only [apply, opened]

omit [TradeEvidence] [ResponseModels] [AdminJson] in
theorem presence_withStore (runtime : Runtime) (store : Store) :
    (runtime.withStore store).presence =
      runtime.presence.apply (.configure store.configBindings) := rfl

/-- What a move does to presence. -/
theorem presence_apply (move : RuntimeMove) {runtime : Runtime}
    (lawful : Presence.Lawful runtime.presence) (stays : move ≠ .stop) :
    ∃ moves, (runtime.apply move).presence = Presence.System.exec moves runtime.presence := by
  have unmoved : ∃ moves, runtime.presence = Presence.System.exec moves runtime.presence :=
    ⟨[], rfl⟩
  have stored : ∀ store, ∃ moves, (runtime.withStore store).presence =
      Presence.System.exec moves runtime.presence :=
    fun store => ⟨[.configure store.configBindings], presence_withStore runtime store⟩
  cases opened : runtime.process with
  | none =>
      cases move with
      | stop => exact absurd rfl stays
      | start | applyConfiguration =>
          simp only [apply, opened]
          exact stored _
      | work | subscribe | publish | present | handle =>
          simp only [apply, opened]
          exact unmoved
  | some process =>
      cases move with
      | stop => exact absurd rfl stays
      | start | applyConfiguration =>
          simp only [apply, opened]
          exact unmoved
      | work | subscribe | publish =>
          simp only [apply, opened]
          exact stored _
      | present move isInternal =>
          refine ⟨[move], ?_⟩
          have bindings := Presence.bindings_apply move (by rintro bindings rfl; cases isInternal)
            lawful
          simp only [apply, opened, Presence.System.exec, Transition.exec_cons,
            Transition.exec_nil]
          simp only [presence] at bindings ⊢
          rw [presence_withPresence bindings]
      | handle acceptingMutations answers request =>
          have handled := @handleMutation_handled _ _ _ _ (process.handler acceptingMutations)
            answers request runtime.leases runtime.attempts rfl runtime.database lawful
          simp only [apply, opened, presence]
          cases handled with
          | kept store same | scheduled _ _ _ _ store same | retried _ _ _ _ store same =>
              rw [same]
              exact unmoved
          | presented moves requested store same => exact ⟨moves, same⟩

end Runtime

end Views

end Rhi
