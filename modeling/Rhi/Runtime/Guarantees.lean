import Rhi.Completion
import Rhi.Runtime.Effects

/-!
# Guarantees of the whole process

Between any two moves of a process, over any number of restarts, the tables keep what each task
relies on and every task stands where its own runs may leave it.  What the process hands to a relay
is then a report that its database accounts for.
-/

namespace Rhi

open Relational Transactional Succession

section Views

variable [Sha256] [TradeEvidence]

/-- The publication executors simulate the board of their store. -/
theorem publishers_simulate_board : Simulation.Simulates Publication.Publishers.apply
    (fun state => state.service.Shared) Board.Step fun state => state.service.store.board :=
  publications_simulate_board.comap Publication.service_apply

omit [TradeEvidence] in
/-- The call of a move finalizes nothing where the move does not. -/
theorem Publication.PublishersMove.call_silent {move : Publication.PublishersMove}
    (silent : move.finalizes = false) {state : Publication.Publishers} {call : Publication.Move}
    (isCall : move.call state = some call) : call.finalizes = false := by
  cases move with
  | crash index => cases isCall
  | other move external =>
      cases isCall
      exact silent
  | executor index move =>
      simp only [Publication.PublishersMove.call] at isCall
      split at isCall
      · exact Publication.finalizes_of_internal (Publication.Executor.call_spec isCall)
      · cases isCall

/-- A worker that does not move stays informed, and the reports stay linked, where nothing is
finalized. -/
theorem Reconcilers.Sound.publishers {state : Publication.Publishers}
    {workers : Nat → Worker} (sound : Reconcilers.Sound ⟨state.service, workers⟩)
    (orderly : Publication.Orderly state.service.store) {move : Publication.PublishersMove}
    (silent : move.finalizes = false) :
    Reconcilers.Sound ⟨(state.apply move).service, workers⟩ := by
  rw [Publication.service_apply]
  cases isCall : move.call state with
  | none => exact sound
  | some call =>
      have kept := reports_of_move call (move.call_silent silent isCall) orderly
      exact ⟨sound.reports.of_same kept.1 kept.2,
        fun index => informed_move call orderly (sound.informed index)⟩

end Views

section Invariant

variable [Sha256] [TradeEvidence] [PresenceEvents]

/-- What holds of the process between any two moves. -/
structure Runtime.Sound (runtime : Runtime) : Prop where
  shared : runtime.service.Shared
  publishing : Publication.Disciplined runtime.publishers
  exposed : Publication.Exposed runtime.publishers
  reconciling : runtime.reconcilers.Sound
  attested : ∀ index, (runtime.workers index).Sealed
  presenting : Presence.Lawful runtime.presence

namespace Runtime

omit [TradeEvidence] [PresenceEvents] in
theorem sealed_idle : Worker.Sealed .idle := by
  intro fence replays attestation now impossible
  cases impossible

theorem sound_initial : Runtime.initial.Sound where
  shared := shared_initial
  publishing := Publication.disciplined_exec []
  exposed := Publication.exposed_exec []
  reconciling := Rhi.sound_exec []
  attested _ := sealed_idle
  presenting := Presence.lawful_initial

variable [ResponseModels] [AdminJson]

/-- A stopped process has forgotten where its tasks stood, and its tables are as they were. -/
theorem sound_stop {runtime : Runtime} (sound : runtime.Sound) : (runtime.apply .stop).Sound := by
  cases opened : runtime.process with
  | none =>
      simp only [apply, opened]
      exact sound
  | some process =>
      simp only [apply, opened]
      exact {
        shared := publications_simulate_board.kept (.service .close rfl) _ sound.shared
        publishing :=
          Publication.disciplined_idle sound.publishing.orderly sound.publishing.exact_
        exposed := by
          intro index prepared impossible
          cases impossible
        reconciling := ⟨sound.reconciling.reports.of_same rfl rfl, fun index => informed_idle _⟩
        attested := fun index => sealed_idle
        presenting := {
          coherent := sound.presenting.coherent
          historic := sound.presenting.historic
          logged := sound.presenting.logged
          quiet := by
            intro lease impossible
            cases impossible } }

/-- Every worker keeps a sealed attestation. -/
theorem attested_apply (move : RuntimeMove) {runtime : Runtime}
    (attested : ∀ index, (runtime.workers index).Sealed) (index : Nat) :
    ((runtime.apply move).workers index).Sealed := by
  by_cases stays : move = .stop
  · subst stays
    cases opened : runtime.process with
    | none =>
        simp only [apply, opened]
        exact attested index
    | some process =>
        simp only [apply, opened]
        exact sealed_idle
  by_cases works : ∃ index work isSealed, move = .work index work isSealed
  · rcases works with ⟨worker, work, isSealed, rfl⟩
    cases opened : runtime.process with
    | none =>
        simp only [apply, opened]
        exact attested index
    | some process =>
        simp only [apply, opened]
        by_cases same : index = worker
        · subst same
          rw [Function.update_self]
          exact Worker.sealed_step isSealed (attested index)
        · rw [Function.update_of_ne same]
          exact attested index
  · rw [workers_apply runtime stays fun worker work isSealed same =>
      works ⟨worker, work, isSealed, same⟩]
    exact attested index

/-- A move of a worker is one of its own run, and the others finalize nothing. -/
theorem reconciling_apply (move : RuntimeMove) {runtime : Runtime} (sound : runtime.Sound)
    (stays : move ≠ .stop) : (runtime.apply move).reconcilers.Sound := by
  by_cases works : ∃ index work isSealed, move = .work index work isSealed
  · rcases works with ⟨index, work, isSealed, rfl⟩
    cases opened : runtime.process with
    | none =>
        simp only [apply, opened]
        exact sound.reconciling
    | some process =>
        rw [reconcilers_work opened]
        exact Rhi.sound_apply _ _ sound.reconciling
  · have idle : ∀ index work isSealed, move ≠ .work index work isSealed :=
      fun index work isSealed same => works ⟨index, work, isSealed, same⟩
    have workers := workers_apply runtime stays idle
    rcases publishers_apply move sound.attested sound.presenting stays with
      same | ⟨call, same, silent⟩
    · have service : (runtime.apply move).service = runtime.service :=
        congrArg Publication.Publishers.service same
      rw [reconcilers, workers, service]
      exact sound.reconciling
    · have service : (runtime.apply move).service = (runtime.publishers.apply call).service :=
        congrArg Publication.Publishers.service same
      rw [reconcilers, workers, service]
      exact sound.reconciling.publishers sound.shared.orderly (silent idle)

/-- The step lemma of the process. -/
theorem sound_apply (move : RuntimeMove) (runtime : Runtime) (sound : runtime.Sound) :
    (runtime.apply move).Sound := by
  by_cases stays : move = .stop
  · subst stays
    exact sound_stop sound
  have tables : (runtime.apply move).service.Shared ∧
      Publication.Disciplined (runtime.apply move).publishers ∧
      Publication.Exposed (runtime.apply move).publishers := by
    rcases publishers_apply move sound.attested sound.presenting stays with same | ⟨call, same, -⟩
    · have service : (runtime.apply move).service = runtime.service :=
        congrArg Publication.Publishers.service same
      rw [same, service]
      exact ⟨sound.shared, sound.publishing, sound.exposed⟩
    · have service : (runtime.apply move).service = (runtime.publishers.apply call).service :=
        congrArg Publication.Publishers.service same
      rw [same, service]
      exact ⟨publishers_simulate_board.kept call _ sound.shared,
        Publication.disciplined_apply call _ sound.publishing,
        Publication.exposed_apply call _ sound.publishing sound.exposed⟩
  refine ⟨tables.1, tables.2.1, tables.2.2, reconciling_apply move sound stays,
    attested_apply move sound.attested, ?_⟩
  rcases presence_apply move sound.presenting stays with ⟨moves, same⟩
  rw [same]
  exact Transition.exec_invariant Presence.Lawful Presence.lawful_apply moves sound.presenting

theorem sound_exec (moves : List RuntimeMove) : (Runtime.exec moves .initial).Sound :=
  Transition.exec_invariant Runtime.Sound sound_apply moves sound_initial

/-- The process simulates the board of its store. -/
theorem simulates_board : Simulation.Simulates Runtime.apply Runtime.Sound Board.Step
    fun runtime => runtime.store.board where
  kept := sound_apply
  simulated move runtime sound := by
    by_cases stays : move = .stop
    · subst stays
      cases opened : runtime.process with
      | none =>
          simp only [apply, opened]
          exact .refl
      | some process =>
          simp only [apply, opened]
          exact .refl
    · rcases publishers_apply move sound.attested sound.presenting stays with
        same | ⟨call, same, -⟩
      · have store : (runtime.apply move).store = runtime.store :=
          congrArg (·.service.store) same
        simp only [store]
        exact .refl
      · have store : (runtime.apply move).store = (runtime.publishers.apply call).service.store :=
          congrArg (·.service.store) same
        simp only [store]
        exact publishers_simulate_board.simulated call runtime.publishers sound.shared

end Runtime

end Invariant

section Accounts

/-- A signed event that the database accounts for: it states a report, and the job of the generation
this report has is complete. -/
structure AccountedFor (event : SignedEventRow) (store : Store) : Prop where
  stored : event ∈ store.signedEvents.rows
  reported : ∃ report generation, report.statementDigest = event.statementDigest ∧
    (generation, report) ∈ reportedBy report.tradeId store ∧
    ∃ job ∈ store.jobs.rows, job.tradeId = report.tradeId ∧ job.inputGeneration = generation ∧
      job.state = .completed

/-- A reported event is accounted for where reports follow the jobs. -/
theorem AccountedFor.of_follows {store : Store} (follows : ∀ trade, ReportsFollow trade store)
    (reported : EventsReported store) {event : SignedEventRow}
    (eventMem : event ∈ store.signedEvents.rows) : AccountedFor event store := by
  rcases reported event eventMem with ⟨report, reportMem, same⟩
  have listed : report ∈ (reportedBy report.tradeId store).map (·.2) := by
    rw [(follows report.tradeId).every]
    exact mem_reportsOf.mpr ⟨reportMem, rfl⟩
  rcases List.mem_map.mp listed with ⟨⟨generation, _⟩, entryMem, rfl⟩
  rcases ((follows _).completed generation).mp (List.mem_map_of_mem entryMem) with
    ⟨job, jobMem, sameTrade, sameGeneration, completed⟩
  exact ⟨eventMem, _, generation, same, entryMem, job, jobMem, sameTrade, sameGeneration, completed⟩

variable [Sha256] [TradeEvidence] [ResponseModels] [AdminJson] [PresenceEvents]

theorem Runtime.reportsFollow_exec (moves : List RuntimeMove) (trade : TradeId) :
    ReportsFollow trade (Runtime.exec moves .initial).store :=
  .of_sound (Runtime.sound_exec moves).shared.boarded
    (sound_of_run (Runtime.simulates_board.exec moves Runtime.sound_initial)) trade

/-- After every run of the process, over all its tasks, operators and restarts, the reports of every
trade follow its jobs and form one chain, in which each report supersedes the one before it, and
later moves only add reports. -/
theorem runtime_reports_follow_jobs (moves : List RuntimeMove) (trade : TradeId) :
    ReportsFollow trade (Runtime.exec moves .initial).store ∧
    Linked ReportRow.statementDigest ReportRow.superseded
      (reportsOf trade (Runtime.exec moves .initial).store) ∧
    ∀ later, reportedBy trade (Runtime.exec moves .initial).store <+:
      reportedBy trade (Runtime.exec later (Runtime.exec moves .initial)).store := by
  have sound := Runtime.sound_exec moves
  refine ⟨Runtime.reportsFollow_exec moves trade, sound.reconciling.reports.linked trade, ?_⟩
  intro later
  exact reportedBy_grows (Runtime.simulates_board.exec later sound) trade

/-- After every run of the process, an outbox publishes an event that the database accounts for, an
attempt that an executor submits carries the bytes of such an event, and a complete outbox, of a
report or of presence, was accepted by every required target. -/
theorem runtime_publishes_reports (moves : List RuntimeMove) :
    (∀ id row, Publication.outboxRow id (Runtime.exec moves .initial).store = some row →
      ∃ event, event.eventId = row.eventId ∧
        AccountedFor event (Runtime.exec moves .initial).store) ∧
    (∀ index prepared, (Runtime.exec moves .initial).executors index = .submitting prepared →
      ∃ event, event.canonicalEventJson = prepared.publication.signedEvent ∧
        AccountedFor event (Runtime.exec moves .initial).store) ∧
    (∀ id current, Publication.snapshot id (Runtime.exec moves .initial).store = some current →
      current.row.state = .complete → Completion.AcceptedByRequired current.targets) ∧
    (∀ id record, Presence.stored id (Runtime.exec moves .initial).presence.store = some record →
      record.row.state = .complete → Completion.AcceptedByRequired record.targets) := by
  have sound := Runtime.sound_exec moves
  have accounted : ∀ event ∈ (Runtime.exec moves .initial).store.signedEvents.rows,
      AccountedFor event (Runtime.exec moves .initial).store := fun event eventMem =>
    .of_follows (Runtime.reportsFollow_exec moves) sound.shared.reported eventMem
  refine ⟨?_, ?_, ?_, ?_⟩
  · intro id row stored
    rcases sound.publishing.orderly.committed id row stored with ⟨event, eventMem, isEvent⟩
    exact ⟨event, isEvent.identity, accounted event eventMem⟩
  · intro index prepared submitting
    rcases Publication.committedBytes_eq_some.mp (sound.exposed index prepared submitting) with
      ⟨row, event, -, eventMem, -, bytes⟩
    exact ⟨event, bytes, accounted event eventMem⟩
  · intro id current read complete
    have coherent := sound.publishing.coherent id current read
    exact Completion.acceptedByRequired_of_accepted (coherent.decided.complete complete)
  · intro id record found complete
    have coherent := sound.presenting.coherent id record found
    exact Completion.acceptedByRequired_of_accepted (coherent.attended.complete complete)

end Accounts

end Rhi
