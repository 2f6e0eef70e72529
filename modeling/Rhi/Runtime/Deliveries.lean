import Rhi.Evidence.Genuine
import Rhi.Job.Totality
import Rhi.Runtime.Attempts

/-!
# Deliveries to a running process

Verification never accepts two events that contradict each other, and whatever a process stores was
accepted.  So a further event is refused for nothing that is stored: an idle subscription takes in
a delivery unless a counter or a queue is exhausted or the clock runs back.
-/

namespace Rhi

open Relational Transactional

section Records

variable [Sha256]

/-- The records an operation may store. -/
def Operation.records : Operation → List PersistenceRecord
  | .commitSourceResult _ _ _ _ _ fetched => fetched.admitted.map (·.event.record)
  | .commitSourceReplays _ _ _ replays =>
      replays.flatMap fun entry => entry.replay.facts.map (·.record)
  | _ => []

/-- An operation stores nothing but its own records. -/
theorem evidence_of_effect {host : Host} {before after : Store} {operation : Operation}
    (effect : Effect host before operation after) :
    EvidenceFrom operation.records before after := by
  rcases frame_of_effect effect with ⟨-, ⟨mutations, events, -⟩ |
    ⟨_, _, _, _, _, _, rfl⟩ | ⟨_, _, _, _, rfl⟩⟩
  · exact .of_same _ mutations events
  · cases effect with
    | unchanged => exact .of_same _ rfl rfl
    | ingested parts =>
        have advanced : DirtyOnly _ _ := parts.marked_spec.1
        have moved := parts.checkpointsOnly
        refine parts.origin.congr rfl rfl ?_ ?_
        · rw [moved, advanced]
        · rw [moved, advanced]
  · cases effect with
    | unchanged => exact .of_same _ rfl rfl
    | committed created =>
        simpa only [Operation.records, List.flatMap_map] using created.origin

end Records

section Genuine

variable [Sha256] [TradeEvidence] {verification : Verification}

/-- What a relay delivers is accepted by verification, if anything is verified in it. -/
def WireEvent.Verified (verification : Verification) (wire : WireEvent) : Prop :=
  ∀ event ∈ wire.verified, verification.accepts event

def Visit.Verified (verification : Verification) (visit : Visit) : Prop :=
  ∀ page, .page page ∈ visit.answers → ∀ event ∈ page.events, event.wire.Verified verification

/-- The events a move delivers are verified. -/
def RuntimeMove.Verified (verification : Verification) : RuntimeMove → Prop
  | .work _ (.fetch _ visit) _ => visit.Verified verification
  | .subscribe _ (.receive _ _ wire _) => wire.Verified verification
  | _ => True

/-- What a worker fetched was accepted. -/
def Worker.Genuine (verification : Verification) (worker : Worker) : Prop :=
  ∀ lease plan remaining replays, worker = .fetching lease plan remaining replays →
    ∀ entry ∈ replays, ∀ fact ∈ entry.replay.facts, verification.Genuine fact.record

/-- What a subscription is about to store was accepted. -/
def Subscription.Genuine (verification : Verification) (subscription : Subscription) : Prop :=
  ∀ source admitted initial, subscription = .ingesting source admitted initial →
    verification.accepts admitted.event

omit [TradeEvidence] in
theorem genuine_of_fetched {configuration : Configuration} {plan : AttemptPlan}
    {request : SourceRequest} {prior : Option SourceCursor} {visit : Visit} {entry : SealedReplay}
    (verified : visit.Verified verification)
    (fetched : fetchSealed configuration plan request prior visit = some entry) :
    ∀ fact ∈ entry.replay.facts, verification.Genuine fact.record := by
  intro fact factMem
  rcases fetchSealed_spec fetched with ⟨replayPlan, -, visited⟩
  rcases finish_of_fetched visited with ⟨outcome, finishedAt, events, finished, -, delivered⟩
  rcases (finish_spec finished).facts fact factMem with ⟨admitted, admittedMem, rfl⟩
  rcases delivered admitted admittedMem with ⟨event, reads, isVerified⟩
  rcases Visit.Reads.delivered reads with ⟨page, pageMem, eventMem⟩
  exact ⟨admitted.event, verified page pageMem event eventMem _ isVerified, rfl⟩

theorem Worker.genuine_step {setting : Setting} {move : WorkerMove} {worker : Worker}
    {store : Store}
    (verified : ∀ disposition visit, move = .fetch disposition visit → visit.Verified verification)
    (genuine : worker.Genuine verification) :
    (worker.step setting move store).1.Genuine verification := by
  intro lease plan remaining replays fetching
  rcases Worker.fetching_step fetching with ⟨-, -, rfl⟩ |
    ⟨disposition, visit, request, earlier, prior, entry, fetches, rfl, -, visited, rfl⟩ | rfl
  · intro entry entryMem
    cases entryMem
  · intro other otherMem
    rcases List.mem_append.mp otherMem with old | new
    · exact genuine _ _ _ _ rfl other old
    · rw [List.mem_singleton.mp new]
      exact genuine_of_fetched (verified disposition visit fetches) visited
  · exact genuine lease plan remaining replays rfl

omit [Sha256] [TradeEvidence] in
theorem verified_of_received {configuration : Configuration} {wire : WireEvent} {now : Nat}
    {admitted : AdmittedEvent}
    (received : receiveEvent configuration wire now = some (some admitted)) :
    wire.verified = some admitted.event := by
  simp only [receiveEvent, Option.map_eq_some_iff] at received
  rcases received with ⟨observedAt, -, admittedBy⟩
  exact (admitTradeMutationEvent_spec admittedBy).1

omit [TradeEvidence] in
/-- How a subscription comes to ingest: it received an event, or has not moved. -/
theorem Subscription.ingesting_step {setting : Setting} {move : SubscriptionMove}
    {subscription : Subscription} {store : Store} {source : SourceId} {admitted : AdmittedEvent}
    {initial : InitialState}
    (ingesting : (subscription.step setting move store).1 = .ingesting source admitted initial) :
    (∃ disposition wire now, move = .receive disposition source wire now ∧
      receiveEvent setting.configuration wire now = some (some admitted)) ∨
    subscription = .ingesting source admitted initial := by
  unfold Subscription.step at ingesting
  split at ingesting
  · split at ingesting
    · split at ingesting
      · cases ingesting
      · cases ingesting
      · rename_i event received
        dsimp only [beginIngest] at ingesting
        split at ingesting
        · cases ingesting
        · split at ingesting
          · cases ingesting
          · rcases Subscription.ingesting.inj ingesting with ⟨rfl, rfl, -⟩
            exact .inl ⟨_, _, _, rfl, received⟩
    · cases ingesting
  · split at ingesting
    · cases ingesting
    · split at ingesting
      · cases ingesting
      · cases ingesting
  · split at ingesting
    · cases ingesting
    · split at ingesting
      · cases ingesting
      · cases ingesting
  · exact .inr ingesting

omit [TradeEvidence] in
theorem Subscription.genuine_step {setting : Setting} {move : SubscriptionMove}
    {subscription : Subscription} {store : Store}
    (verified : ∀ disposition source wire now, move = .receive disposition source wire now →
      wire.Verified verification)
    (genuine : subscription.Genuine verification) :
    (subscription.step setting move store).1.Genuine verification := by
  intro source admitted initial ingesting
  rcases Subscription.ingesting_step ingesting with ⟨disposition, wire, now, receives, received⟩ |
    rfl
  · exact verified disposition source wire now receives _ (verified_of_received received)
  · exact genuine source admitted initial rfl

/-- A worker stores what it fetched. -/
theorem Worker.genuine_store {setting : Setting} {worker : Worker} {store : Store}
    (move : WorkerMove) (genuine : worker.Genuine verification)
    (stored : EvidenceGenuine verification store) :
    EvidenceGenuine verification (worker.step setting move store).2 := by
  rw [Worker.step_store]
  cases performed : worker.operation setting move with
  | none => exact stored
  | some operation =>
      refine stored.of_from (evidence_of_effect (run_effect operation setting.host store)) ?_
      unfold Worker.operation at performed
      split at performed
      · cases performed
        simp [Operation.records]
      · rename_i lease plan replays
        cases performed
        intro record recordMem
        simp only [Operation.records, List.mem_flatMap, List.mem_map] at recordMem
        rcases recordMem with ⟨entry, entryMem, fact, factMem, rfl⟩
        exact genuine lease plan [] replays rfl entry entryMem fact factMem
      · cases performed
        simp [Operation.records]
      · rcases Option.map_eq_some_iff.mp performed with ⟨delay, -, rfl⟩
        simp [Operation.records]
      · cases performed

/-- A subscription stores what it received. -/
theorem Subscription.genuine_store {setting : Setting} {subscription : Subscription}
    {store : Store} (move : SubscriptionMove) (genuine : subscription.Genuine verification)
    (stored : EvidenceGenuine verification store) :
    EvidenceGenuine verification (subscription.step setting move store).2 := by
  rw [Subscription.step_store]
  cases performed : subscription.operation setting move with
  | none => exact stored
  | some operation =>
      refine stored.of_from (evidence_of_effect (run_effect operation setting.host store)) ?_
      unfold Subscription.operation at performed
      split at performed
      · rename_i source admitted initial
        cases performed
        simp only [Operation.records, subscribedResult, List.map_cons, List.map_nil,
          List.mem_singleton, forall_eq]
        exact ⟨admitted.event, genuine source admitted initial rfl, rfl⟩
      · rcases Option.map_eq_some_iff.mp performed with ⟨now, -, rfl⟩
        simp [Operation.records]
      · cases performed

end Genuine

section Invariant

variable [Sha256] [TradeEvidence] [ResponseModels] [AdminJson] [PresenceEvents]
  {verification : Verification}

namespace Runtime

/-- Whatever is stored or about to be was accepted. -/
structure Genuine (verification : Verification) (runtime : Runtime) : Prop where
  evidence : EvidenceGenuine verification runtime.store
  workers : ∀ index, (runtime.workers index).Genuine verification
  subscriptions : ∀ index, (runtime.subscriptions index).Genuine verification

omit [TradeEvidence] [ResponseModels] [AdminJson] [PresenceEvents] in
theorem genuine_initial : Runtime.initial.Genuine verification where
  evidence := {
    mutations := by
      intro row rowMem
      cases rowMem
    events := by
      intro row rowMem
      cases rowMem }
  workers index lease plan remaining replays impossible := by cases impossible
  subscriptions index source admitted initial impossible := by cases impossible

/-- No move stores what was not accepted. -/
theorem evidence_apply (move : RuntimeMove) {runtime : Runtime} (sound : runtime.Sound)
    (genuine : runtime.Genuine verification) :
    EvidenceGenuine verification (runtime.apply move).store := by
  have evidence := genuine.evidence
  have orderly : Publication.Orderly runtime.service.store := sound.shared.orderly
  cases opened : runtime.process with
  | none =>
      cases move with
      | start disposition process appliedAt =>
          simp only [apply, opened]
          rcases started : openReadWrite disposition process.configuration.binding appliedAt
            runtime.store with ⟨host, next⟩
          rcases (openReadWrite_spec started).1 with same | ⟨only, -⟩
          · rw [same]
            exact evidence
          · have after : EvidenceGenuine verification next :=
              evidence.of_same (by rw [only]) (by rw [only])
            exact after
      | applyConfiguration opening applying current candidate appliedAt =>
          simp only [apply, opened]
          rcases apply_cases (.applyConfiguration opening applying current candidate appliedAt)
            ⟨runtime.store, none⟩ with ⟨operation, host, impossible, -⟩ | only
          · cases impossible
          · have after : EvidenceGenuine verification (Service.apply (.applyConfiguration opening
                applying current candidate appliedAt) ⟨runtime.store, none⟩).store :=
              evidence.of_same (by rw [only]) (by rw [only])
            exact after
      | stop | work | subscribe | publish | present | handle =>
          simp only [apply, opened]
          exact evidence
  | some process =>
      cases move with
      | start | applyConfiguration =>
          simp only [apply, opened]
          exact evidence
      | stop =>
          simp only [apply, opened]
          exact evidence
      | present move isInternal =>
          simp only [apply, opened]
          exact evidence
      | work index move isSealed =>
          simp only [apply, opened]
          exact Worker.genuine_store move (genuine.workers index) evidence
      | subscribe index move =>
          simp only [apply, opened]
          exact Subscription.genuine_store move (genuine.subscriptions index) evidence
      | publish index move =>
          simp only [apply, opened]
          have stored := Publication.step_store (move.under process.publication)
            (runtime.executors index) process.configuration.binding runtime.store
          cases called : (runtime.executors index).call (move.under process.publication) with
          | none =>
              rw [called, Option.elim_none] at stored
              exact stored.symm ▸ evidence
          | some call =>
              rw [called, Option.elim_some] at stored
              have silent :=
                Publication.finalizes_of_internal (Publication.Executor.call_spec called)
              have only : PublicationOnly runtime.store (call.run
                  ⟨.readWriteExisting, process.configuration.binding⟩ runtime.store) :=
                publicationOnly_run call silent orderly
              have after : EvidenceGenuine verification (call.run
                  ⟨.readWriteExisting, process.configuration.binding⟩ runtime.store) :=
                evidence.of_same (by rw [only]) (by rw [only])
              exact stored.symm ▸ after
      | handle acceptingMutations answers request =>
          simp only [apply, opened]
          have handled := @handleMutation_handled _ _ _ _ (process.handler acceptingMutations)
            answers request runtime.leases runtime.attempts rfl runtime.database sound.presenting
          cases handled with
          | kept store | presented _ _ store =>
              rw [Runtime.store, store]
              exact evidence
          | scheduled disposition trade policy now store =>
              have only := scheduleTrade_only .readWriteExisting disposition trade policy now
                runtime.store
              have after : EvidenceGenuine verification (scheduleTrade .readWriteExisting
                  disposition trade policy now runtime.store).2 :=
                evidence.of_same (by rw [only]) (by rw [only])
              rw [Runtime.store, store]
              exact after
          | retried outbox expected targetCount now store =>
              have only : PublicationOnly runtime.store (Publication.publicationRetry .acknowledged
                  outbox expected targetCount now runtime.store).2 :=
                @publicationOnly_run _ (.retry .acknowledged outbox expected targetCount now) rfl
                  process.host runtime.service orderly
              have after : EvidenceGenuine verification (Publication.publicationRetry .acknowledged
                  outbox expected targetCount now runtime.store).2 :=
                evidence.of_same (by rw [only]) (by rw [only])
              rw [Runtime.store, store]
              exact after

theorem genuine_workers {move : RuntimeMove} {runtime : Runtime}
    (verified : move.Verified verification)
    (genuine : ∀ index, (runtime.workers index).Genuine verification) (index : Nat) :
    ((runtime.apply move).workers index).Genuine verification := by
  by_cases stays : move = .stop
  · subst stays
    cases opened : runtime.process with
    | none =>
        simp only [apply, opened]
        exact genuine index
    | some process =>
        simp only [apply, opened]
        intro lease plan remaining replays impossible
        cases impossible
  · by_cases works : ∃ worker work isSealed, move = .work worker work isSealed
    · rcases works with ⟨worker, work, isSealed, rfl⟩
      cases opened : runtime.process with
      | none =>
          simp only [apply, opened]
          exact genuine index
      | some process =>
          simp only [apply, opened, withStore]
          by_cases same : index = worker
          · subst same
            rw [Function.update_self]
            refine Worker.genuine_step ?_ (genuine index)
            rintro disposition visit rfl
            exact verified
          · rw [Function.update_of_ne same]
            exact genuine index
    · rw [workers_apply runtime stays fun worker work isSealed is =>
        works ⟨worker, work, isSealed, is⟩]
      exact genuine index

theorem genuine_subscriptions {move : RuntimeMove} {runtime : Runtime}
    (verified : move.Verified verification)
    (genuine : ∀ index, (runtime.subscriptions index).Genuine verification) (index : Nat) :
    ((runtime.apply move).subscriptions index).Genuine verification := by
  cases opened : runtime.process with
  | none =>
      cases move with
      | start | applyConfiguration =>
          simp only [apply, opened, withStore]
          exact genuine index
      | stop | work | subscribe | publish | present | handle =>
          simp only [apply, opened]
          exact genuine index
  | some process =>
      cases move with
      | stop =>
          simp only [apply, opened]
          intro source admitted initial impossible
          cases impossible
      | subscribe subscription move =>
          simp only [apply, opened, withStore]
          by_cases same : index = subscription
          · subst same
            rw [Function.update_self]
            refine Subscription.genuine_step ?_ (genuine index)
            rintro disposition source wire now rfl
            exact verified
          · rw [Function.update_of_ne same]
            exact genuine index
      | start | applyConfiguration | work | publish | present | handle =>
          simp only [apply, opened, withStore]
          exact genuine index

/-- Over every run whose deliveries are verified, only accepted events are stored. -/
theorem genuine_exec {moves : List RuntimeMove}
    (verified : ∀ move ∈ moves, move.Verified verification) :
    (Runtime.exec moves .initial).Genuine verification := by
  have met : Transition.Along Runtime.apply (fun _ move => move.Verified verification) moves
      .initial := .of_forall_mem verified
  have kept : ∀ move (runtime : Runtime), move.Verified verification →
      runtime.Sound ∧ runtime.Genuine verification →
        (runtime.apply move).Sound ∧ (runtime.apply move).Genuine verification := by
    rintro move runtime delivered ⟨sound, genuine⟩
    exact ⟨sound_apply move runtime sound, {
      evidence := evidence_apply move sound genuine
      workers := genuine_workers delivered genuine.workers
      subscriptions := genuine_subscriptions delivered genuine.subscriptions }⟩
  exact (Transition.Along.invariant kept met ⟨sound_initial, genuine_initial⟩).2

end Runtime

end Invariant

section Taking

variable [Sha256]

/-- What is left for a process to take in a delivery: counters and queue have room, and the clock
has not run back behind the trade. -/
structure Receptive (process : Process) (source : SourceId) (admitted : AdmittedEvent)
    (store : Store) : Prop where
  small : admitted.rawLength ≤ sourceResultMaxBytes
  instant : admitted.observedAt.get * 1000 ≤ maxInteger
  ingestible : Ingestible source process.configuration.policy admitted store
  revisions : ∀ row ∈ store.jobs.rows, row.revision + 2 ≤ maxInteger
  ordered : ∀ row ∈ store.jobs.rows, row.tradeId = admitted.event.tradeId →
    row.state.active = true → row.updatedAt ≤ admitted.observedAt.get * 1000
  room : activeCount store.jobs.rows < process.configuration.jobPolicy.queueCapacity
  /-- No other job has the identity that the next job of the trade will get. -/
  free : ∀ row ∈ store.jobs.rows,
    row.jobId = jobId admitted.event.tradeId
        (dirtyGeneration store admitted.event.tradeId + 1) process.configuration.policy →
      row.tradeId = admitted.event.tradeId ∧
        row.inputGeneration = dirtyGeneration store admitted.event.tradeId + 1

/-- What became of a delivery: it is durable, and if it was not before, its trade has a job of the
next generation. -/
structure TakenIn (admitted : AdmittedEvent) (before after : Store) : Prop where
  stored : admitted.event.record.Stored after
  scheduled : ¬admitted.event.record.Stored before → ∃ dirty,
    readDirty after admitted.event.tradeId = some dirty ∧
      dirty.generation = dirtyGeneration before admitted.event.tradeId + 1 ∧
      ∃ job ∈ after.jobs.rows, job.tradeId = admitted.event.tradeId ∧
        job.inputGeneration = dirty.generation ∧ job.evidencePolicy = dirty.evidencePolicy ∧
        job.state = .ready

variable {source : SourceId} {policy : EvidencePolicyDigest} {admitted : AdmittedEvent}
  {store next : Store}

omit [Sha256] in
/-- A commit that advances nothing found its event in the store. -/
theorem stored_of_still {outcome : IngestOutcome} {persisted advanced : Store}
    {mutations events : Nat}
    (parts : SourceCommitted source policy admitted.observedAt
      (readInitialState source policy admitted.event.tradeId store) (subscribedResult admitted)
      store next outcome persisted advanced mutations events)
    (still : outcome.dirtyGenerationAdvanced = false) : admitted.event.record.Stored store := by
  have none : mutations = 0 ∧ events = 0 := by
    have relevant := parts.relevant
    rw [still] at relevant
    simpa using relevant.symm
  rcases none with ⟨rfl, rfl⟩
  have stored := parts.stored admitted (by simp [subscribedResult])
  rcases parts.appended.mutationRows with ⟨addedMutations, mutationRows, noMutations, -⟩
  rcases parts.appended.eventRows with ⟨addedEvents, eventRows, noEvents, -⟩
  rw [List.length_eq_zero_iff] at noMutations noEvents
  rw [noMutations, List.append_nil] at mutationRows
  rw [noEvents, List.append_nil] at eventRows
  unfold PersistenceRecord.Stored at stored ⊢
  rwa [mutationRows, eventRows] at stored

omit [Sha256] in
/-- What is stored before the last steps of a commit is stored after them. -/
theorem stored_of_committed {outcome : IngestOutcome} {persisted advanced : Store}
    {mutations events : Nat}
    (parts : SourceCommitted source policy admitted.observedAt
      (readInitialState source policy admitted.event.tradeId store) (subscribedResult admitted)
      store next outcome persisted advanced mutations events) :
    admitted.event.record.Stored next := by
  have stored := parts.stored admitted (by simp [subscribedResult])
  have advanced : DirtyOnly _ _ := parts.marked_spec.1
  have moved := parts.checkpointsOnly
  unfold PersistenceRecord.Stored at stored ⊢
  rw [moved, advanced]
  exact stored

omit [Sha256] in
/-- A commit that advances its trade leaves the next generation. -/
theorem readDirty_of_advanced {outcome : IngestOutcome} {persisted advanced : Store}
    {mutations events : Nat}
    (parts : SourceCommitted source policy admitted.observedAt
      (readInitialState source policy admitted.event.tradeId store) (subscribedResult admitted)
      store next outcome persisted advanced mutations events)
    (advances : outcome.dirtyGenerationAdvanced = true) :
    readDirty next admitted.event.tradeId = some ⟨admitted.event.tradeId,
      dirtyGeneration store admitted.event.tradeId + 1, policy, admitted.observedAt.get⟩ := by
  have moved := parts.checkpointsOnly
  have generation := (parts.marked_spec.2.1 advances).generation
  rw [parts.readDirty_persisted] at generation
  rw [moved]
  exact generation

/-- A trade whose generation has just moved gets the job of the new one. -/
theorem scheduleTrade_next {trade : TradeId} {jobPolicy : JobPolicy} {now : UnixMilliseconds}
    {dirty : DirtyRow} (ready : JobsReady store) (read : readDirty store trade = some dirty)
    (free : ∀ row ∈ store.jobs.rows,
      row.jobId ≠ jobId trade dirty.generation dirty.evidencePolicy)
    (behind : ∀ row ∈ store.jobs.rows, row.tradeId = trade →
      row.inputGeneration < dirty.generation)
    (ordered : ∀ row ∈ store.jobs.rows, row.tradeId = trade → row.state.active = true →
      row.updatedAt ≤ now.get)
    (room : activeCount store.jobs.rows < jobPolicy.queueCapacity) :
    ∃ outcome next, scheduleTrade .readWriteExisting .acknowledged trade jobPolicy now store =
        (.ok outcome, next) ∧ JobsOnly store next ∧
      readyRow trade dirty jobPolicy now.get ∈ next.jobs.rows := by
  rcases schedule_total ready read (fun row rowMem same => absurd same (free row rowMem))
    (fun row rowMem sameTrade => ⟨(behind row rowMem sameTrade).le, fun same =>
      absurd same (behind row rowMem sameTrade).ne⟩) ordered room with ⟨outcome, next, done⟩
  have returned : scheduleTrade .readWriteExisting .acknowledged trade jobPolicy now store =
      (.ok outcome, next) := by
    simp only [scheduleTrade, ne_eq, not_true_eq_false, if_false, transaction, done]
  refine ⟨outcome, next, returned, ?_⟩
  rcases schedule_spec done with ⟨row, rowRead, found | ⟨-, scheduled⟩⟩
  · rcases found with ⟨-, -, job, jobMem, sameTrade, current, -⟩
    rw [read] at rowRead
    cases rowRead
    exact absurd current (behind job jobMem sameTrade).ne
  · rw [read] at rowRead
    cases rowRead
    rcases scheduled.inserted with ⟨middle, -, -, rows, -⟩
    refine ⟨scheduled.only, ?_⟩
    rw [rows]
    exact List.mem_append_right _ (List.mem_singleton_self _)

end Taking

section Deliveries

variable [Sha256] [TradeEvidence] [ResponseModels] [AdminJson] [PresenceEvents]
  {verification : Verification}

/-- One delivery to a subscription, with all of its transactions acknowledged. -/
def deliver (index : Nat) (source : SourceId) (wire : WireEvent) (now : Nat) :
    List RuntimeMove := [
  .subscribe index (.receive .acknowledged source wire now),
  .subscribe index (.ingest .acknowledged),
  .subscribe index (.schedule .acknowledged)]

namespace Runtime

theorem subscribe_apply {runtime : Runtime} {process : Process} {index : Nat}
    {move : SubscriptionMove} {subscription moved : Subscription} {store next : Store}
    (opened : runtime.process = some process) (held : runtime.subscriptions index = subscription)
    (stored : runtime.store = store)
    (stepped : subscription.step (process.setting index) move store = (moved, next)) :
    (runtime.apply (.subscribe index move)).process = some process ∧
      (runtime.apply (.subscribe index move)).subscriptions index = moved ∧
      (runtime.apply (.subscribe index move)).store = next := by
  subst held stored
  simp only [Runtime.store] at stepped
  simp only [apply, opened, withStore, Runtime.store, Function.update_self, stepped, and_self]

variable {process : Process} {index : Nat} {source : SourceId} {wire : WireEvent} {now : Nat}
  {admitted : AdmittedEvent} {store : Store}

omit [TradeEvidence] [ResponseModels] [AdminJson] [PresenceEvents] in
/-- An idle subscription begins to ingest an admitted event of a configured source. -/
theorem receive_step
    (configured : ∃ entry ∈ process.configuration.sources, entry.sourceId = source)
    (received : receiveEvent process.configuration wire now = some (some admitted))
    (small : admitted.rawLength ≤ sourceResultMaxBytes) :
    Subscription.step (process.setting index) (.receive .acknowledged source wire now) .idle
        store =
      (.ingesting source admitted (readInitialState source process.configuration.policy
        admitted.event.tradeId store), store) := by
  have named : (process.configuration.sources.any fun entry => entry.sourceId == source) =
      true := by
    rcases configured with ⟨entry, entryMem, same⟩
    exact List.any_eq_true.mpr ⟨entry, entryMem, by simp [same]⟩
  simp only [Subscription.step, Process.setting, named, if_true, received, beginIngest,
    if_neg (not_lt.mpr small), transaction]

omit [TradeEvidence] [ResponseModels] [AdminJson] [PresenceEvents] in
/-- The ingestion of an accepted event commits. -/
theorem ingest_step (genuine : EvidenceGenuine verification store)
    (governed : ∀ row ∈ readDirty store admitted.event.tradeId,
      row.evidencePolicy = process.configuration.policy)
    (accepted : verification.accepts admitted.event)
    (ingestible : Ingestible source process.configuration.policy admitted store) :
    ∃ outcome next persisted advanced mutations events,
      SourceCommitted source process.configuration.policy admitted.observedAt
        (readInitialState source process.configuration.policy admitted.event.tradeId store)
        (subscribedResult admitted) store next outcome persisted advanced mutations events ∧
      Subscription.step (process.setting index) (.ingest .acknowledged)
          (.ingesting source admitted (readInitialState source process.configuration.policy
            admitted.event.tradeId store)) store =
        (if outcome.dirtyGenerationAdvanced then
          .scheduling admitted.event.tradeId admitted.observedAt else .idle, next) := by
  rcases commitSource_total genuine accepted governed ingestible with ⟨outcome, next, done⟩
  rcases commitSource_parts done with ⟨persisted, advanced, mutations, events, parts⟩
  refine ⟨outcome, next, persisted, advanced, mutations, events, parts, ?_⟩
  simp only [Subscription.step, Process.setting, commitSourceResult, transaction, done]
  cases outcome.dirtyGenerationAdvanced <;> rfl

omit [Sha256] [TradeEvidence] [ResponseModels] [AdminJson] [PresenceEvents] in
/-- No job of a trade is ahead of its generation. -/
theorem behind_next {store : Store} (behind : JobsBehind store) {row : JobRow}
    (rowMem : row ∈ store.jobs.rows) :
    row.inputGeneration < dirtyGeneration store row.tradeId + 1 := by
  rcases behind row rowMem with ⟨dirty, read, ordered⟩
  rw [Option.mem_def] at read
  have notAhead := ordered.generation
  simp only [dirtyGeneration, read, Option.map_some, Option.getD_some]
  omega

end Runtime

omit [TradeEvidence] [ResponseModels] [AdminJson] [PresenceEvents] in
/-- The trade of a new event is scheduled. -/
theorem schedule_step {process : Process} {index : Nat} {source : SourceId}
    {admitted : AdmittedEvent} {store next : Store} {outcome : IngestOutcome}
    {persisted advanced : Store} {mutations events : Nat}
    (wellFormed : ∀ row ∈ store.jobs.rows, row.WellFormed) (behind : JobsBehind store)
    (receptive : Receptive process source admitted store)
    (parts : SourceCommitted source process.configuration.policy admitted.observedAt
      (readInitialState source process.configuration.policy admitted.event.tradeId store)
      (subscribedResult admitted) store next outcome persisted advanced mutations events)
    (advances : outcome.dirtyGenerationAdvanced = true) :
    ∃ last, Subscription.step (process.setting index) (.schedule .acknowledged)
        (.scheduling admitted.event.tradeId admitted.observedAt) next = (.idle, last) ∧
      TakenIn admitted store last := by
  have dirty := readDirty_of_advanced parts advances
  have sameJobs : next.jobs = store.jobs := by
    rw [parts.evidenceOnly]
  have later : ∀ row ∈ next.jobs.rows, row.tradeId = admitted.event.tradeId →
      row.inputGeneration < dirtyGeneration store admitted.event.tradeId + 1 := by
    intro row rowMem sameTrade
    rw [sameJobs] at rowMem
    rw [← sameTrade]
    exact Runtime.behind_next behind rowMem
  have free : ∀ row ∈ next.jobs.rows, row.jobId ≠ jobId admitted.event.tradeId
      (dirtyGeneration store admitted.event.tradeId + 1) process.configuration.policy := by
    intro row rowMem same
    have rowKnown := rowMem
    rw [sameJobs] at rowKnown
    rcases receptive.free row rowKnown same with ⟨sameTrade, current⟩
    exact absurd current (later row rowMem sameTrade).ne
  have ready : JobsReady next := by
    refine ⟨?_, ?_⟩
    · rw [sameJobs]
      exact wellFormed
    · rw [sameJobs]
      exact receptive.revisions
  have instant : unixMilliseconds (admitted.observedAt.get * 1000) =
      some ⟨admitted.observedAt.get * 1000, receptive.instant⟩ := by
    simp only [unixMilliseconds, receptive.instant, dite_true]
  rcases @scheduleTrade_next _ _ _ process.configuration.jobPolicy
    ⟨admitted.observedAt.get * 1000, receptive.instant⟩ _ ready dirty free later
    (by rw [sameJobs]; exact receptive.ordered) (by rw [sameJobs]; exact receptive.room) with
    ⟨scheduled, last, returned, only, jobMem⟩
  have sameDirty : readDirty last admitted.event.tradeId =
      readDirty next admitted.event.tradeId := by
    rw [only]
    rfl
  refine ⟨last, ?_, ?_, fun _ =>
    ⟨_, sameDirty.trans dirty, rfl, _, jobMem, rfl, rfl, rfl, rfl⟩⟩
  · simp only [Subscription.step, instant, Process.setting, Setting.host, returned]
  · have stored := stored_of_committed parts
    unfold PersistenceRecord.Stored at stored ⊢
    rw [only]
    exact stored

/-- A process that stores only what verification accepts takes in a delivery that it is receptive
to, whatever ran before. -/
theorem delivery_taken_in {moves : List RuntimeMove} {process : Process} {index : Nat}
    {source : SourceId} {wire : WireEvent} {now : Nat} {admitted : AdmittedEvent}
    (verified : ∀ move ∈ moves, move.Verified verification)
    (running : (Runtime.exec moves .initial).process = some process)
    (idle : (Runtime.exec moves .initial).subscriptions index = .idle)
    (configured : ∃ entry ∈ process.configuration.sources, entry.sourceId = source)
    (received : receiveEvent process.configuration wire now = some (some admitted))
    (accepted : wire.Verified verification)
    (receptive : Receptive process source admitted (Runtime.exec moves .initial).store) :
    TakenIn admitted (Runtime.exec moves .initial).store
        (Runtime.exec (moves ++ deliver index source wire now) .initial).store ∧
      (Runtime.exec (moves ++ deliver index source wire now) .initial).subscriptions index =
        .idle := by
  have sound : (Runtime.exec moves .initial).Sound := Runtime.sound_exec moves
  have genuine : (Runtime.exec moves .initial).Genuine verification := Runtime.genuine_exec verified
  have delivered : Runtime.exec (moves ++ deliver index source wire now) .initial =
      Runtime.exec (deliver index source wire now) (Runtime.exec moves .initial) := by
    simp only [Runtime.exec, Transition.exec_append]
  rw [delivered]
  generalize Runtime.exec moves .initial = runtime at *
  have boarded := sound.shared.boarded
  have governed : ∀ row ∈ readDirty runtime.store admitted.event.tradeId,
      row.evidencePolicy = process.configuration.policy := by
    intro row rowMem
    have current := boarded.bound.dirty admitted.event.tradeId row rowMem
    have latest := boarded.bound.host process.host (by simp [Runtime.service, running])
    simp only [currentPolicy, latest, Option.map_some, Option.some.injEq] at current
    exact current.symm
  have receives := @Runtime.receive_step _ process index source wire now admitted runtime.store
    configured received receptive.small
  rcases @Runtime.ingest_step _ verification process index source admitted runtime.store
    genuine.evidence governed (accepted _ (verified_of_received received)) receptive.ingestible with
    ⟨outcome, next, persisted, advanced, mutations, events, parts, ingests⟩
  rcases Runtime.subscribe_apply running idle rfl receives with ⟨opened, ingesting, sameStore⟩
  rcases Runtime.subscribe_apply opened ingesting sameStore ingests with
    ⟨stillOpen, ingested, nextStore⟩
  simp only [deliver, Runtime.exec, Transition.exec_cons, Transition.exec_nil]
  cases advances : outcome.dirtyGenerationAdvanced with
  | false =>
      rw [advances, if_neg Bool.false_ne_true] at ingested
      have rests : Subscription.step (process.setting index) (.schedule .acknowledged) .idle next =
          (.idle, next) := rfl
      rcases Runtime.subscribe_apply stillOpen ingested nextStore rests with ⟨-, rests, lastStore⟩
      have known := stored_of_still parts advances
      rw [lastStore]
      exact ⟨⟨stored_of_committed parts, fun fresh => absurd known fresh⟩, rests⟩
  | true =>
      rw [advances, if_pos rfl] at ingested
      rcases @schedule_step _ process index source admitted runtime.store next outcome persisted
        advanced mutations events boarded.wellFormed boarded.behind receptive parts advances with
        ⟨last, schedules, taken⟩
      rcases Runtime.subscribe_apply stillOpen ingested nextStore schedules with
        ⟨-, rests, lastStore⟩
      rw [lastStore]
      exact ⟨taken, rests⟩

end Deliveries

section Samples

namespace Sample.Delivering

local instance : Sha256 := ⟨Hashing.sha256⟩

local instance : TradeEvidence := evidence

local instance : ResponseModels := ⟨fun _ _ => false⟩

local instance : AdminJson where
  stateBackup _ := none
  reconciliationRefresh _ := none
  publicationRetry _ := none
  presenceRender _ := none
  presenceRefresh _ := none
  response _ := []

local instance : PresenceEvents where
  validPublicKey _ := true
  plan _ _ _ := none
  sign _ _ _ := none
  verify _ := none

theorem agrees {left right : VerifiedEvent}
    (leftAccepted : left = proposal.event ∨ left = decision.event)
    (rightAccepted : right = proposal.event ∨ right = decision.event) :
    left.record.Agrees right.record := by
  rcases leftAccepted with rfl | rfl <;> rcases rightAccepted with rfl | rfl
  · exact ⟨fun _ _ => rfl, fun _ => rfl⟩
  · exact ⟨fun same => absurd same (by decide), fun same => absurd same (by decide)⟩
  · exact ⟨fun same => absurd same (by decide), fun same => absurd same (by decide)⟩
  · exact ⟨fun _ _ => rfl, fun _ => rfl⟩

/-- The proposal and the decision on it are verified events. -/
def accepting : Verification where
  accepts event := event = proposal.event ∨ event = decision.event
  agrees _ _ := agrees

/-- A proposal is delivered, and a worker holds the job of its trade. -/
def leased : List RuntimeMove := [
  .start .acknowledged Running.process 1,
  .subscribe 0 (.receive .acknowledged source (wire proposal Reported.proposal_fits) 1000000),
  .subscribe 0 (.ingest .acknowledged),
  .subscribe 0 (.schedule .acknowledged),
  .work 0 (.claim .acknowledged claimedAt) trivial]

theorem leased_receptive :
    Receptive Running.process source decision (Runtime.exec leased .initial).store where
  small := by decide
  instant := by decide
  ingestible := {
    dirty := by
      intro _
      decide +kernel
    checkpoint := by decide +kernel }
  revisions := by decide +kernel
  ordered := by decide +kernel
  room := by decide +kernel
  free := by decide +kernel

/-- The decision is delivered while the first attempt runs, whose job is superseded. -/
theorem decision_taken_in :
    TakenIn decision (Runtime.exec leased .initial).store (Runtime.exec (leased ++
        deliver 0 source (wire decision decision_fits) 1000001) .initial).store ∧
      (Runtime.exec (leased ++ deliver 0 source (wire decision decision_fits) 1000001)
        .initial).subscriptions 0 = .idle ∧
      ¬decision.event.record.Stored (Runtime.exec leased .initial).store ∧
      (Runtime.exec (leased ++ deliver 0 source (wire decision decision_fits) 1000001)
        .initial).store.jobs.rows.map (fun row => (row.inputGeneration, row.state)) =
          [(1, .superseded), (2, .ready)] := by
  have verified : ∀ move ∈ leased, move.Verified accepting := by
    simp [leased, RuntimeMove.Verified, WireEvent.Verified, wire, accepting]
  have running : (Runtime.exec leased .initial).process = some Running.process := by
    rw [leased, Runtime.exec, Transition.exec_cons]
    exact Runtime.process_exec Running.process_started (by simp)
  have evaluated : (Runtime.exec leased .initial).subscriptions 0 = .idle ∧
      receiveEvent Running.process.configuration (wire decision decision_fits) 1000001 =
        some (some decision) ∧
      decision.event.record.mutationRow ∉ (Runtime.exec leased .initial).store.mutations.rows ∧
      (Runtime.exec (leased ++ deliver 0 source (wire decision decision_fits) 1000001)
        .initial).store.jobs.rows.map (fun row => (row.inputGeneration, row.state)) =
          [(1, .superseded), (2, .ready)] := by
    decide +kernel
  have configured : ∃ entry ∈ Running.process.configuration.sources, entry.sourceId = source :=
    ⟨_, List.mem_cons_self, rfl⟩
  have accepted : (wire decision decision_fits).Verified accepting := by
    rintro event ⟨⟩
    exact .inr rfl
  have taken := delivery_taken_in verified running evaluated.1 configured evaluated.2.1 accepted
    leased_receptive
  exact ⟨taken.1, taken.2, fun stored => evaluated.2.2.1 stored.1, evaluated.2.2.2⟩

end Sample.Delivering

end Samples

end Rhi
