import Rhi.Service.Effects

/-!
# Dirty generations over whole runs

The generation of a trade counts: one for every committed transaction that inserted evidence of the
trade, and one for every applied configuration that changed the evidence policy while the trade had
a row.  The induction carries that the open host and every dirty row agree with the last applied
configuration, since a bulk policy change skips rows that already have the new policy.
-/

namespace Rhi

open Relational Transactional

section Counting

/-- The evidence policy of the last applied configuration. -/
def currentPolicy (store : Store) : Option EvidencePolicyDigest :=
  (latestBinding store).map (·.evidencePolicy)

/-- What one call adds to the generation of a trade. -/
def dirtyIncrement (trade : TradeId) (call : Call) (before after : Store) : Nat :=
  match call with
  | .operation (.commitSourceResult ..) | .operation (.commitSourceReplays ..) =>
      (insertedEvidence trade before after).toNat
  | .applyConfiguration .. =>
      (currentPolicy before != currentPolicy after && (readDirty before trade).isSome).toNat
  | _ => 0

/-- What a run adds to the generation of a trade. -/
def dirtySteps [Sha256] [TradeEvidence] (trade : TradeId) : List Call → Service → Nat
  | [], _ => 0
  | call :: calls, service =>
      dirtyIncrement trade call service.store (service.apply call).store +
        dirtySteps trade calls (service.apply call)

/-- The generation of a trade, zero while it has no row. -/
def dirtyGeneration (store : Store) (trade : TradeId) : Nat :=
  ((readDirty store trade).map (·.generation)).getD 0

/-- The open host and the dirty rows agree with the last applied configuration. -/
structure Service.Bound (service : Service) : Prop where
  host : ∀ host ∈ service.host, latestBinding service.store = some host.binding
  dirty : ∀ trade, ∀ row ∈ readDirty service.store trade,
    currentPolicy service.store = some row.evidencePolicy

/-- What a step does to the row of one trade, given what it adds to the generation. -/
structure DirtyStep (trade : TradeId) (increment : Nat) (before after : Store) : Prop where
  generation : dirtyGeneration after trade = dirtyGeneration before trade + increment
  unchanged : increment = 0 → readDirty after trade = readDirty before trade
  updatedAt : ∀ row ∈ readDirty before trade, ∃ next ∈ readDirty after trade,
    row.updatedAt ≤ next.updatedAt

theorem DirtyStep.of_same {trade : TradeId} {before after : Store}
    (same : readDirty after trade = readDirty before trade) : DirtyStep trade 0 before after where
  generation := by simp [dirtyGeneration, same]
  unchanged _ := same
  updatedAt row rowMem := ⟨row, by rw [same]; exact rowMem, le_rfl⟩

theorem insertedEvidence_of_same {before after : Store} (trade : TradeId)
    (sameMutations : after.mutations = before.mutations)
    (sameEvents : after.events = before.events) :
    insertedEvidence trade before after = false := by
  unfold insertedEvidence
  rw [sameMutations, sameEvents]
  simp

theorem EvidenceCounted.of_same {policy : EvidencePolicyDigest} {before after : Store}
    (sameMutations : after.mutations = before.mutations) (sameEvents : after.events = before.events)
    (sameDirty : after.dirty = before.dirty) : EvidenceCounted policy before after := by
  intro trade
  rw [insertedEvidence_of_same trade sameMutations sameEvents]
  refine ⟨fun _ => ?_, by simp⟩
  unfold readDirty
  rw [sameDirty]

theorem EvidenceCounted.dirtyStep {policy : EvidencePolicyDigest} {before after : Store}
    (counted : EvidenceCounted policy before after) (trade : TradeId) :
    DirtyStep trade (insertedEvidence trade before after).toNat before after := by
  rcases counted trade with ⟨keeps, advances⟩
  cases inserted : insertedEvidence trade before after with
  | false => exact .of_same (keeps inserted)
  | true =>
      rcases advances inserted with ⟨row, read, generation, -, ordered⟩
      refine ⟨?_, by simp, ?_⟩
      · simp [dirtyGeneration, read, generation]
      · intro current currentMem
        exact ⟨row, by rw [read]; rfl, (ordered current currentMem).2⟩

end Counting

section Operations

variable [Sha256]

/-- An operation other than a commit of evidence leaves evidence and dirty rows alone. -/
theorem frame_of_effect {host : Host} {before after : Store} {operation : Operation}
    (effect : Effect host before operation after) :
    after.configBindings = before.configBindings ∧
      ((after.mutations = before.mutations ∧ after.events = before.events ∧
          after.dirty = before.dirty) ∨
        (∃ disposition source trade observedAt initial fetched,
          operation = .commitSourceResult disposition source trade observedAt initial fetched) ∨
        ∃ disposition lease plan replays,
          operation = .commitSourceReplays disposition lease plan replays) := by
  cases effect with
  | unchanged => exact ⟨rfl, .inl ⟨rfl, rfl, rfl⟩⟩
  | scheduled read scheduled =>
      rw [scheduled.only]
      exact ⟨rfl, .inl ⟨rfl, rfl, rfl⟩⟩
  | claimed only rewritten =>
      rw [only]
      exact ⟨rfl, .inl ⟨rfl, rfl, rfl⟩⟩
  | renewed only rewritten =>
      rw [only]
      exact ⟨rfl, .inl ⟨rfl, rfl, rfl⟩⟩
  | failed only rewritten =>
      rw [only]
      exact ⟨rfl, .inl ⟨rfl, rfl, rfl⟩⟩
  | ingested parts =>
      rw [parts.evidenceOnly]
      exact ⟨rfl, .inr (.inl ⟨_, _, _, _, _, _, rfl⟩)⟩
  | committed created =>
      rw [created.only]
      exact ⟨rfl, .inr (.inr ⟨_, _, _, _, rfl⟩)⟩
  | finalized made absent created =>
      have only := created.inserted.only
      have bindings := congrArg Store.configBindings only
      have mutations := congrArg Store.mutations only
      have events := congrArg Store.events only
      have dirty := congrArg Store.dirty only
      exact ⟨bindings, .inl ⟨mutations, events, dirty⟩⟩
  | outboxProgressed updated => exact ⟨rfl, .inl ⟨rfl, rfl, rfl⟩⟩
  | targetsProgressed updated => exact ⟨rfl, .inl ⟨rfl, rfl, rfl⟩⟩

/-- Every operation counts its evidence under the policy of the host. -/
theorem evidenceCounted_of_effect {host : Host} {before after : Store} {operation : Operation}
    (effect : Effect host before operation after)
    (governed : ∀ trade, ∀ row ∈ readDirty before trade,
      row.evidencePolicy = host.binding.evidencePolicy) :
    EvidenceCounted host.binding.evidencePolicy before after := by
  rcases (frame_of_effect effect).2 with ⟨mutations, events, dirty⟩ | ingest | commit
  · exact .of_same mutations events dirty
  · rcases ingest with ⟨disposition, source, trade, observedAt, initial, fetched, rfl⟩
    cases effect with
    | unchanged => exact .of_same rfl rfl rfl
    | ingested parts => exact parts.evidenceCounted
  · rcases commit with ⟨disposition, lease, plan, replays, rfl⟩
    cases effect with
    | unchanged => exact .of_same rfl rfl rfl
    | committed created =>
        rcases created.dirty with ⟨row, read, -, samePolicy⟩
        have governing := governed lease.job.tradeId row (by rw [read]; rfl)
        have counted := created.counted
        rw [← samePolicy, governing] at counted
        exact counted

theorem dirtyStep_operation {host : Host} {before after : Store} {operation : Operation}
    (effect : Effect host before operation after)
    (governed : ∀ trade, ∀ row ∈ readDirty before trade,
      row.evidencePolicy = host.binding.evidencePolicy) (trade : TradeId) :
    DirtyStep trade (dirtyIncrement trade (.operation operation) before after) before after := by
  have step := (evidenceCounted_of_effect effect governed).dirtyStep trade
  rcases (frame_of_effect effect).2 with ⟨mutations, events, dirty⟩ | ingest | commit
  · have none := insertedEvidence_of_same trade mutations events
    have increment : dirtyIncrement trade (.operation operation) before after = 0 := by
      unfold dirtyIncrement
      split
      · simp [none]
      · simp [none]
      · rename_i impossible
        cases impossible
      · rfl
    rw [none] at step
    rw [increment]
    exact step
  · rcases ingest with ⟨disposition, source, other, observedAt, initial, fetched, rfl⟩
    exact step
  · rcases commit with ⟨disposition, lease, plan, replays, rfl⟩
    exact step

omit [Sha256] in
theorem currentPolicy_of_bindings {before after : Store}
    (same : after.configBindings = before.configBindings) :
    currentPolicy after = currentPolicy before := by
  unfold currentPolicy latestBinding
  rw [same]

theorem bound_operation {host : Host} {before after : Store} {operation : Operation}
    (effect : Effect host before operation after) (bound : Service.Bound ⟨before, some host⟩) :
    Service.Bound ⟨after, some host⟩ := by
  have opened : latestBinding before = some host.binding := bound.host host rfl
  have policy : currentPolicy before = some host.binding.evidencePolicy := by
    simp [currentPolicy, opened]
  have sameBindings := (frame_of_effect effect).1
  have governed : ∀ trade, ∀ row ∈ readDirty before trade,
      row.evidencePolicy = host.binding.evidencePolicy := by
    intro trade row rowMem
    have agrees := bound.dirty trade row rowMem
    rw [policy, Option.some.injEq] at agrees
    exact agrees.symm
  refine ⟨?_, ?_⟩
  · intro other otherMem
    cases otherMem
    unfold latestBinding at opened ⊢
    rw [sameBindings]
    exact opened
  · intro trade row rowMem
    rw [currentPolicy_of_bindings sameBindings, policy]
    rcases evidenceCounted_of_effect effect governed trade with ⟨keeps, advances⟩
    cases inserted : insertedEvidence trade before after with
    | false =>
        rw [keeps inserted] at rowMem
        rw [governed trade row rowMem]
    | true =>
        rcases advances inserted with ⟨written, read, -, samePolicy, -⟩
        rw [read] at rowMem
        cases rowMem
        rw [samePolicy]

end Operations

section Configurations

theorem readDirty_of_dirty {before after : Store} (same : after.dirty = before.dirty)
    (trade : TradeId) : readDirty after trade = readDirty before trade := by
  unfold readDirty
  rw [same]

/-- A store that was only bound again agrees with its new binding. -/
theorem bound_opened {before after : Store} {binding : ConfigBinding}
    (bound : ∀ trade, ∀ row ∈ readDirty before trade,
      currentPolicy before = some row.evidencePolicy)
    (opened : after = before ∨ (BindingsOnly before after ∧ latestBinding after = some binding ∧
      ∀ latest ∈ latestBinding before, latest.evidencePolicy = binding.evidencePolicy)) :
    after.dirty = before.dirty ∧ ∀ trade, ∀ row ∈ readDirty after trade,
      currentPolicy after = some row.evidencePolicy := by
  rcases opened with same | ⟨only, rebound, samePolicy⟩
  · rw [same]
    exact ⟨rfl, bound⟩
  · have stored : after = { before with configBindings := after.configBindings } := only
    have sameDirty : after.dirty = before.dirty := by rw [stored]
    refine ⟨sameDirty, ?_⟩
    intro trade row rowMem
    rw [readDirty_of_dirty sameDirty] at rowMem
    have agrees := bound trade row rowMem
    cases latest : latestBinding before with
    | none => simp [currentPolicy, latest] at agrees
    | some old =>
        simp only [currentPolicy, latest, Option.map_some, Option.some.injEq] at agrees
        simp only [currentPolicy, rebound, Option.map_some, Option.some.injEq]
        rw [← samePolicy old (by rw [latest]; rfl)]
        exact agrees

/-- An applied configuration moves every row when it changes the policy, and none otherwise. -/
theorem dirtyStep_applied {current candidate : ConfigBinding} {appliedAt : Nat}
    {before bound after : Store} {trade : TradeId}
    (governed : ∀ row ∈ readDirty before trade, currentPolicy before = some row.evidencePolicy)
    (sameDirty : bound.dirty = before.dirty)
    (governedBound : ∀ row ∈ readDirty bound trade,
      currentPolicy bound = some row.evidencePolicy)
    (applied : ConfigurationApplied current candidate appliedAt bound after) :
    DirtyStep trade (currentPolicy before != currentPolicy after &&
      (readDirty before trade).isSome).toNat before after := by
  have sameRead := readDirty_of_dirty sameDirty trade
  have boundPolicy : currentPolicy bound = some current.evidencePolicy := by
    simp [currentPolicy, applied.bound]
  have afterPolicy : currentPolicy after = some candidate.evidencePolicy := by
    simp [currentPolicy, applied.rebound]
  have moved := applied.dirty trade
  rw [sameRead] at moved governedBound
  cases read : readDirty before trade with
  | none =>
      have still : readDirty after trade = readDirty before trade := by
        rw [moved, read]
        simp
      have increment : (currentPolicy before != currentPolicy after &&
          (none : Option DirtyRow).isSome).toNat = 0 := by simp
      rw [increment]
      exact .of_same still
  | some row =>
      have rowMem : row ∈ readDirty before trade := by rw [read]; rfl
      have beforePolicy := governed row rowMem
      have rowPolicy := governedBound row rowMem
      rw [boundPolicy, Option.some.injEq] at rowPolicy
      rw [rowPolicy] at moved
      by_cases samePolicy : row.evidencePolicy = candidate.evidencePolicy
      · have increment : (currentPolicy before != currentPolicy after &&
            (some row).isSome).toNat = 0 := by
          simp [beforePolicy, afterPolicy, samePolicy]
        rw [increment]
        rw [if_pos samePolicy] at moved
        exact .of_same moved
      · have increment : (currentPolicy before != currentPolicy after &&
            (some row).isSome).toNat = 1 := by
          simp [beforePolicy, afterPolicy, samePolicy]
        rw [if_neg samePolicy, read] at moved
        have advanced : readDirty after trade = some { row with
            generation := row.generation + 1, evidencePolicy := candidate.evidencePolicy
            updatedAt := appliedAt } := by
          rw [moved]
          simp [DirtyRow.underPolicy, samePolicy]
        rw [increment]
        refine ⟨?_, by simp, ?_⟩
        · simp [dirtyGeneration, read, advanced]
        · intro other otherMem
          rw [read] at otherMem
          cases otherMem
          refine ⟨_, by rw [advanced]; rfl, ?_⟩
          have stored : row ∈ bound.dirty.rows := by
            rw [sameDirty]
            exact (readDirty_spec read).1
          exact applied.ordered (by rw [rowPolicy]; exact samePolicy) row stored samePolicy

theorem bound_applied {current candidate : ConfigBinding} {appliedAt : Nat} {bound after : Store}
    (governed : ∀ trade, ∀ row ∈ readDirty bound trade,
      currentPolicy bound = some row.evidencePolicy)
    (applied : ConfigurationApplied current candidate appliedAt bound after) :
    ∀ trade, ∀ row ∈ readDirty after trade, currentPolicy after = some row.evidencePolicy := by
  intro trade row rowMem
  have boundPolicy : currentPolicy bound = some current.evidencePolicy := by
    simp [currentPolicy, applied.bound]
  have afterPolicy : currentPolicy after = some candidate.evidencePolicy := by
    simp [currentPolicy, applied.rebound]
  rw [afterPolicy, Option.some.injEq]
  rw [applied.dirty trade] at rowMem
  split at rowMem
  · rename_i samePolicy
    have agrees := governed trade row rowMem
    rw [boundPolicy, Option.some.injEq] at agrees
    exact samePolicy.symm.trans agrees
  · rcases Option.mem_map.mp rowMem with ⟨old, oldMem, rfl⟩
    unfold DirtyRow.underPolicy
    split
    · rename_i samePolicy
      exact samePolicy.symm
    · rfl

end Configurations

section Runs

variable [Sha256] [TradeEvidence]

/-- The step lemma: what a call adds to the generations is what its increment says. -/
theorem dirty_apply (call : Call) {service : Service} (bound : service.Bound) :
    (service.apply call).Bound ∧ ∀ trade, DirtyStep trade
      (dirtyIncrement trade call service.store (service.apply call).store) service.store
      (service.apply call).store := by
  have idle : service.Bound ∧ ∀ trade, DirtyStep trade 0 service.store service.store :=
    ⟨bound, fun _ => .of_same rfl⟩
  rcases service with ⟨store, host⟩
  cases call with
  | openReadWrite disposition binding appliedAt =>
      cases host with
      | some host => exact idle
      | none =>
          simp only [Service.apply, dirtyIncrement]
          cases opened : openReadWrite disposition binding appliedAt store with
          | mk host next =>
              rcases openReadWrite_spec opened with ⟨effect, opens⟩
              rcases bound_opened bound.dirty effect with ⟨sameDirty, governed⟩
              refine ⟨⟨?_, governed⟩, fun trade => .of_same (readDirty_of_dirty sameDirty trade)⟩
              intro other otherMem
              rcases opens other otherMem with ⟨rfl, latest⟩
              exact latest
  | openInspection binding =>
      cases host with
      | some host => exact idle
      | none =>
          simp only [Service.apply, dirtyIncrement]
          refine ⟨⟨?_, bound.dirty⟩, fun trade => .of_same rfl⟩
          intro other otherMem
          rcases openInspection_spec otherMem with ⟨rfl, latest⟩
          exact latest
  | close =>
      simp only [Service.apply, dirtyIncrement]
      exact ⟨⟨by simp, bound.dirty⟩, fun trade => .of_same rfl⟩
  | applyConfiguration opening applying current candidate appliedAt =>
      cases host with
      | some host =>
          refine ⟨bound, fun trade => ?_⟩
          have increment : dirtyIncrement trade
              (.applyConfiguration opening applying current candidate appliedAt) store store =
                0 := by
            simp [dirtyIncrement]
          simp only [Service.apply]
          rw [increment]
          exact .of_same rfl
      | none =>
          simp only [Service.apply, dirtyIncrement]
          rcases applyConfiguration_spec opening applying current candidate appliedAt store with
            ⟨middle, opened, applied⟩
          rcases bound_opened bound.dirty opened with ⟨sameDirty, governed⟩
          rcases applied with same | applied
          · rw [same]
            refine ⟨⟨by simp, governed⟩, fun trade => ?_⟩
            have increment : (currentPolicy store != currentPolicy middle &&
                (readDirty store trade).isSome).toNat = 0 := by
              cases read : readDirty store trade with
              | none => simp
              | some row =>
                  have before := bound.dirty trade row (by rw [read]; rfl)
                  have after := governed trade row
                    (by rw [readDirty_of_dirty sameDirty, read]; rfl)
                  simp only at before
                  simp [before, after]
            rw [increment]
            exact .of_same (readDirty_of_dirty sameDirty trade)
          · refine ⟨⟨by simp, bound_applied governed applied⟩, fun trade => ?_⟩
            exact dirtyStep_applied (bound.dirty trade) sameDirty (governed trade) applied
  | operation operation =>
      cases host with
      | none =>
          refine ⟨bound, fun trade => ?_⟩
          have increment : dirtyIncrement trade (.operation operation) store store = 0 := by
            cases operation <;> simp [dirtyIncrement, insertedEvidence_of_same trade rfl rfl]
          simp only [Service.apply]
          rw [increment]
          exact .of_same rfl
      | some host =>
          have effect := run_effect operation host store
          have opened : latestBinding store = some host.binding := bound.host host rfl
          refine ⟨bound_operation effect bound, dirtyStep_operation effect ?_⟩
          intro trade row rowMem
          have agrees := bound.dirty trade row rowMem
          simp only [currentPolicy, opened, Option.map_some, Option.some.injEq] at agrees
          exact agrees.symm

omit [Sha256] [TradeEvidence] in
theorem bound_initial : Service.initial.Bound where
  host := by simp [Service.initial]
  dirty := by simp [Service.initial, Store.initial, readDirty]

theorem bound_exec (calls : List Call) {service : Service} (bound : service.Bound) :
    (service.exec calls).Bound :=
  Transition.exec_invariant Service.Bound (fun call _ kept => (dirty_apply call kept).1) calls bound

theorem dirtyGeneration_exec (calls : List Call) {service : Service} (bound : service.Bound)
    (trade : TradeId) : dirtyGeneration (service.exec calls).store trade =
      dirtyGeneration service.store trade + dirtySteps trade calls service := by
  induction calls generalizing service with
  | nil => rfl
  | cons call calls ih =>
      rcases dirty_apply call bound with ⟨kept, step⟩
      have rest := ih kept
      have first := (step trade).generation
      unfold dirtySteps
      change dirtyGeneration ((service.apply call).exec calls).store trade = _
      omega

theorem updatedAt_exec (calls : List Call) {service : Service} (bound : service.Bound)
    {trade : TradeId} {row : DirtyRow} (read : readDirty service.store trade = some row) :
    ∃ next, readDirty (service.exec calls).store trade = some next ∧
      row.updatedAt ≤ next.updatedAt := by
  induction calls generalizing service row with
  | nil => exact ⟨row, read, le_rfl⟩
  | cons call calls ih =>
      rcases dirty_apply call bound with ⟨kept, step⟩
      rcases (step trade).updatedAt row (by rw [read]; rfl) with ⟨middle, middleRead, first⟩
      rcases ih kept middleRead with ⟨next, nextRead, rest⟩
      exact ⟨next, nextRead, first.trans rest⟩

end Runs

section Idle

variable [Sha256] [TradeEvidence]

/-- A call that re-observes only known events, retries a durable attempt exactly, or fails without
leaving its outcome open. -/
inductive Idle (service : Service) : Call → Prop where
  | knownEvents {disposition : Disposition} {source : SourceId} {trade : TradeId}
      {observedAt : ObservedAt} {initial : InitialState} {fetched : FetchedSource trade}
      (known : ∀ event ∈ fetched.admitted, event.event.record.Stored service.store) :
      Idle service
        (.operation (.commitSourceResult disposition source trade observedAt initial fetched))
  | knownFacts {disposition : Disposition} {lease : Lease} {plan : AttemptPlan}
      {replays : List SealedReplay}
      (known : ∀ entry ∈ replays, ∀ fact ∈ entry.replay.facts, fact.record.Stored service.store) :
      Idle service (.operation (.commitSourceReplays disposition lease plan replays))
  | retry {disposition : Disposition} {lease : Lease} {plan : AttemptPlan}
      {replays : List SealedReplay} {row : AttemptRow}
      (rowMem : row ∈ service.store.attempts.rows) (same : row.attemptId = plan.id) :
      Idle service (.operation (.commitSourceReplays disposition lease plan replays))
  | failedResult {disposition : Disposition} {source : SourceId} {trade : TradeId}
      {observedAt : ObservedAt} {initial : InitialState} {fetched : FetchedSource trade}
      {host : Host} {error : IngestErrorKind} (opened : service.host = some host)
      (returned : (commitSourceResult disposition source host.binding.evidencePolicy observedAt
        initial fetched service.store).1 = .error error)
      (settled : error ≠ .commitOutcomeUnknown) :
      Idle service
        (.operation (.commitSourceResult disposition source trade observedAt initial fetched))
  | failedReplays {disposition : Disposition} {lease : Lease} {plan : AttemptPlan}
      {replays : List SealedReplay} {host : Host} {error : CommitErrorKind}
      (opened : service.host = some host)
      (returned : (commitSourceReplays host.mode disposition lease plan replays
        service.store).1 = .error error)
      (settled : error ≠ .commitOutcomeUnknown) :
      Idle service (.operation (.commitSourceReplays disposition lease plan replays))
  | failedApply {opening applying : Disposition} {current candidate : ConfigBinding}
      {appliedAt : Nat} {error : ConfigApplyErrorKind}
      (returned : (applyConfiguration opening applying current candidate appliedAt
        service.store).1 = .error error)
      (settled : error ≠ .commitOutcomeUnknown) :
      Idle service (.applyConfiguration opening applying current candidate appliedAt)

theorem commitSourceReplays_of_error {mode : HostMode} {disposition : Disposition} {lease : Lease}
    {plan : AttemptPlan} {replays : List SealedReplay} {store : Store} {error : CommitErrorKind}
    (returned : (commitSourceReplays mode disposition lease plan replays store).1 = .error error)
    (settled : error ≠ .commitOutcomeUnknown) :
    (commitSourceReplays mode disposition lease plan replays store).2 = store := by
  unfold commitSourceReplays at returned ⊢
  simp only at returned ⊢
  split at returned
  · rename_i readOnly
    simp [readOnly]
  · rename_i writable
    split at returned
    · rename_i admitted
      split at returned
      · rename_i unmade
        simp [writable, admitted]
      · rename_i material made
        simp only [writable, admitted, if_false, if_true]
        cases result : (transaction mapCommitError disposition
            (commitAttempt lease plan (replays.map (·.replay))) store).1 with
        | ok raw => simp [result, Except.map] at returned
        | error failure =>
            simp only [result, Except.map, Except.error.injEq] at returned
            subst returned
            exact transaction_store_of_error result settled
    · rename_i refused
      simp [writable, refused]

omit [TradeEvidence] in
theorem nothing_of_knownEvents {host : Host} {before after : Store} {disposition : Disposition}
    {source : SourceId} {trade : TradeId} {observedAt : ObservedAt} {initial : InitialState}
    {fetched : FetchedSource trade}
    (effect : Effect host before
      (.commitSourceResult disposition source trade observedAt initial fetched) after)
    (known : ∀ event ∈ fetched.admitted, event.event.record.Stored before) (other : TradeId) :
    insertedEvidence other before after = false := by
  cases effect with
  | unchanged => exact insertedEvidence_of_same other rfl rfl
  | ingested parts => exact parts.nothing_inserted known other

omit [TradeEvidence] in
theorem nothing_of_replays {host : Host} {before after : Store} {disposition : Disposition}
    {lease : Lease} {plan : AttemptPlan} {replays : List SealedReplay}
    (effect : Effect host before (.commitSourceReplays disposition lease plan replays) after)
    (idle : (∀ entry ∈ replays, ∀ fact ∈ entry.replay.facts, fact.record.Stored before) ∨
      ∃ row ∈ before.attempts.rows, row.attemptId = plan.id) (other : TradeId) :
    insertedEvidence other before after = false := by
  cases effect with
  | unchanged => exact insertedEvidence_of_same other rfl rfl
  | committed created =>
      rcases idle with known | ⟨row, rowMem, same⟩
      · apply created.known
        intro replay replayMem
        rcases List.mem_map.mp replayMem with ⟨entry, entryMem, rfl⟩
        exact known entry entryMem
      · exact absurd same (created.fresh row rowMem)

/-- An idle call leaves every dirty row alone. -/
theorem readDirty_of_idle {call : Call} {service : Service} (bound : service.Bound)
    (idle : Idle service call) (trade : TradeId) :
    readDirty (service.apply call).store trade = readDirty service.store trade := by
  have step := (dirty_apply call bound).2 trade
  rcases service with ⟨store, host⟩
  cases host with
  | none =>
      cases idle with
      | knownEvents | knownFacts | retry | failedResult | failedReplays => rfl
      | failedApply returned settled =>
          rename_i opening applying current candidate appliedAt error
          simp only [Service.apply]
          unfold applyConfiguration at returned ⊢
          cases opened : openReadWrite opening current appliedAt store with
          | mk host bound' =>
              have sameDirty := (bound_opened bound.dirty (openReadWrite_spec opened).1).1
              simp only [opened] at returned
              cases host with
              | none => exact readDirty_of_dirty sameDirty trade
              | some host =>
                  simp only at returned ⊢
                  rw [transaction_store_of_error returned settled]
                  exact readDirty_of_dirty sameDirty trade
  | some host =>
      cases idle with
      | knownEvents known =>
          apply step.unchanged
          simp only [Service.apply, dirtyIncrement]
          rw [nothing_of_knownEvents (run_effect _ host store) known trade]
          rfl
      | knownFacts known =>
          apply step.unchanged
          simp only [Service.apply, dirtyIncrement]
          rw [nothing_of_replays (run_effect _ host store) (.inl known) trade]
          rfl
      | retry rowMem same =>
          apply step.unchanged
          simp only [Service.apply, dirtyIncrement]
          rw [nothing_of_replays (run_effect _ host store) (.inr ⟨_, rowMem, same⟩) trade]
          rfl
      | failedResult opened returned settled =>
          cases opened
          simp only [Service.apply, Operation.run]
          split
          · unfold commitSourceResult at returned ⊢
            rw [transaction_store_of_error returned settled]
          · rfl
      | failedReplays opened returned settled =>
          cases opened
          simp only [Service.apply, Operation.run]
          rw [commitSourceReplays_of_error returned settled]
      | failedApply returned settled => rfl

end Idle

section Exactness

variable [Sha256] [TradeEvidence]

/-- Dirty-generation exactness over every run: the generation of a trade is the number of committed
evidence transactions and policy changes that concern it, idle calls leave it alone, and its instant
never decreases. -/
theorem dirty_generations_exact (calls : List Call) (trade : TradeId) :
    (∀ row, readDirty (Service.exec calls .initial).store trade = some row →
      row.generation = dirtySteps trade calls .initial) ∧
    (∀ call, Idle (.exec calls .initial) call →
      readDirty (Service.exec (calls ++ [call]) .initial).store trade =
        readDirty (Service.exec calls .initial).store trade) ∧
    (∀ later row, readDirty (Service.exec calls .initial).store trade = some row →
      ∃ next, readDirty (Service.exec (calls ++ later) .initial).store trade = some next ∧
        row.updatedAt ≤ next.updatedAt) := by
  have bound := bound_exec calls bound_initial
  refine ⟨?_, ?_, ?_⟩
  · intro row read
    have counted := dirtyGeneration_exec calls bound_initial trade
    have start : dirtyGeneration Service.initial.store trade = 0 := by
      simp [dirtyGeneration, Service.initial, Store.initial, readDirty]
    have current : dirtyGeneration (Service.exec calls .initial).store trade = row.generation := by
      simp [dirtyGeneration, read]
    omega
  · intro call idle
    have same := readDirty_of_idle bound idle trade
    simpa [Service.exec] using same
  · intro later row read
    have ordered := updatedAt_exec later bound read
    simpa [Service.exec] using ordered

end Exactness

end Rhi
