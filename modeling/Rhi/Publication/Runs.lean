import Rhi.Publication.Coherence
import Rhi.Service.Finalizations

/-!
# Runs of the publication repository

Finalizations open outboxes; the calls of the repository, made by anybody with any arguments, carry
them on.  Every call leaves the outboxes alone, opens one, or makes one step of one.
-/

namespace Rhi

open Relational Transactional

/-- The calls for which the moves below have their own arguments. -/
def Call.publishes : Call → Bool
  | .operation (.commitFinalization ..) | .operation (.progressOutbox ..)
  | .operation (.progressTargets ..) => true
  | _ => false

namespace Publication

section Moves

variable [Sha256] [TradeEvidence]

omit [TradeEvidence] in
/-- `RhiSignedEvidenceAttestation`, whose digest is the one of its signed bytes. -/
structure SignedAttestation where
  attestation : Attestation
  isSealed : Sha256.digest attestation.signedEvent = attestation.signedEventDigest

omit [TradeEvidence] in
/-- The authority of an admitted configuration. -/
structure Authorized where
  document : PublicationDocument
  authority : PublicationAuthority
  derived : deriveAuthority document = some authority

/-- A call of the repository or of the operator, or a call of the rest of the service. -/
inductive Move where
  | service (call : Call) (other : call.publishes = false)
  | finalize (disposition : Disposition) (signed : SignedAttestation) (authorized : Authorized)
      (now : UnixMilliseconds)
  | claim (disposition : Disposition) (owner : LeaseOwner) (now : UnixMilliseconds)
      (authorized : Authorized)
  | prepare (disposition : Disposition) (lease : PublicationLease) (startedAt : UnixMilliseconds)
  | record (disposition : Disposition) (prepared : PreparedAttempt) (finishedAt : UnixMilliseconds)
      (outcome : AttemptOutcome) (delay : Nat)
  | recover (disposition : Disposition) (candidate : RecoveryCandidate) (now : UnixMilliseconds)
      (delay : Nat)
  | retry (disposition : Disposition) (outbox : Digest) (expected targetCount : Nat)
      (now : UnixMilliseconds)

/-- The store after a move of an open host. -/
def Move.run (move : Move) (host : Host) (store : Store) : Store :=
  match move with
  | .service _ _ => store
  | .finalize disposition signed authorized now =>
      (commitFinalization host disposition signed.attestation authorized.authority now store).2
  | .claim disposition owner now authorized =>
      (claimNextPublication host.mode disposition owner now authorized.authority store).2
  | .prepare disposition lease startedAt =>
      (prepareNextPublicationTarget host.mode disposition lease startedAt store).2
  | .record disposition prepared finishedAt outcome delay =>
      (recordPublicationOutcome host.mode disposition prepared finishedAt outcome delay store).2
  | .recover disposition candidate now delay =>
      if host.mode = .readWriteExisting then
        (recoverExpiredPublication disposition candidate now delay store).2
      else
        store
  | .retry disposition outbox expected targetCount now =>
      if host.mode = .readWriteExisting then
        (publicationRetry disposition outbox expected targetCount now store).2
      else
        store

/-- The service after a move. -/
def Move.apply (move : Move) (service : Service) : Service :=
  match move, service.host with
  | .service call _, _ => service.apply call
  | _, none => service
  | move, some host => ⟨move.run host service.store, some host⟩

/-- The service after a run. -/
def exec (moves : List Move) (service : Service) : Service :=
  Transition.exec Move.apply moves service

/-- The move prepares no outbox that has an attempt under way. -/
def Move.Once (service : Service) (move : Move) : Prop :=
  match move with
  | .prepare _ lease _ => ∀ row, outboxRow lease.outbox.id service.store = some row →
      Held lease row → Quiet (targetsOf lease.outbox.id service.store)
  | _ => True

/-- The move retries no outbox one of whose required targets has used its attempts. -/
def Move.Reopens (service : Service) (move : Move) : Prop :=
  match move with
  | .retry _ outbox _ _ _ => ∀ row, outboxRow outbox service.store = some row →
      ∀ target ∈ targetsOf outbox service.store, target.required = true →
        target.state ≠ .accepted → target.attemptCount < row.maxAttempts
  | _ => True

end Moves

section Opening

variable [Sha256]

omit [Sha256] in
theorem deriveTargets_nodup {relays : List Relay} {ids : List SourceId}
    {listed targets : List PublicationTarget}
    (derived : deriveTargets relays ids listed = some targets)
    (distinct : (listed.map (·.relayId)).Nodup) : (targets.map (·.relayId)).Nodup := by
  induction ids generalizing listed with
  | nil =>
      cases derived
      exact distinct
  | cons id rest ih =>
      simp only [deriveTargets, Option.bind_eq_bind, Option.bind_eq_some_iff,
        Option.guard_eq_some'] at derived
      rcases derived with ⟨-, fresh, relay, -, -, -, derived⟩
      refine ih derived ?_
      rw [List.map_append, List.nodup_append]
      refine ⟨distinct, by simp, ?_⟩
      intro left leftMem right rightMem
      simp only [List.map_cons, List.map_nil, List.mem_singleton] at rightMem
      rintro rfl
      rcases List.mem_map.mp leftMem with ⟨target, targetMem, same⟩
      simp only [Bool.not_eq_true', List.any_eq_false, beq_iff_eq] at fresh
      exact fresh target targetMem (same.trans rightMem)

/-- The targets of an authority are distinct, and their digest is the one of the authority. -/
theorem deriveAuthority_spec {document : PublicationDocument} {authority : PublicationAuthority}
    (derived : deriveAuthority document = some authority) :
    (authority.targets.map (·.relayId)).Nodup ∧
      authority.targetSet = targetSetDigest publicationTargetSet authority.targets := by
  unfold deriveAuthority at derived
  simp only [Option.bind_eq_bind, Option.bind_eq_some_iff, Option.guard_eq_some',
    Option.pure_def] at derived
  rcases derived with ⟨-, -, made⟩
  split at made
  · simp only [Option.bind_some, Option.some.injEq] at made
    subst made
    exact ⟨.nil, rfl⟩
  · simp only [Option.bind_some, Option.bind_eq_some_iff, Option.guard_eq_some',
      Option.some.injEq] at made
    rcases made with ⟨-, -, listed, derived, -, -, rfl⟩
    exact ⟨deriveTargets_nodup derived .nil, rfl⟩

/-- The outbox a finalization opens. -/
def Snapshot.opened (required : RequiredPublication) (attestation : Attestation) (now : Nat) :
    Snapshot where
  row := required.outboxRow attestation now
  targets := required.targets.map fun target => target.row required.outboxId now
  deliveries := []

/-- What the authority of an opened outbox promises. -/
structure Opens (required : RequiredPublication) : Prop where
  nonempty : required.targets ≠ []
  bounded : required.targets.length ≤ publicationMaxTargets
  ordinals : required.targets.map (·.ordinal) = List.range required.targets.length
  distinct : (required.targets.map (·.relayId)).Nodup
  digest : required.targetSet = targetSetDigest publicationTargetSet required.targets
  attempts : 1 ≤ required.retry.maximumAttempts
  made : ∃ (event : EventId) (authorized : Authorized),
    requiredPublication event authorized.authority = some (some required)

omit [Sha256] in
theorem mem_opened {required : RequiredPublication} {attestation : Attestation} {now : Nat}
    {target : TargetRow} (targetMem : target ∈ (Snapshot.opened required attestation now).targets) :
    target.outboxId = required.outboxId ∧ target.state = .pending ∧ target.attemptCount = 0 ∧
      target.nextAttempt = some now ∧ target.updatedAt = now := by
  rcases List.mem_map.mp targetMem with ⟨source, -, rfl⟩
  exact ⟨rfl, rfl, rfl, rfl, rfl⟩

omit [Sha256] in
theorem target_opened (required : RequiredPublication) (attestation : Attestation) (now : Nat) :
    (Snapshot.opened required attestation now).targets.map TargetRow.target = required.targets := by
  simp only [Snapshot.opened, List.map_map]
  exact List.map_id'' (fun _ => rfl) _

namespace Opens

variable {required : RequiredPublication} (attestation : Attestation) (now : Nat)

theorem sound (opens : Opens required) : (Snapshot.opened required attestation now).Sound := by
  refine ⟨fun target targetMem => (mem_opened targetMem).1, ?_, none, rfl⟩
  have ordinals : (required.targets.map fun target => target.row required.outboxId now).map
      (·.targetOrdinal) = required.targets.map (·.ordinal) := by
    simp [PublicationTarget.row]
  have relays : (required.targets.map fun target => target.row required.outboxId now).map
      (·.relayId) = required.targets.map (·.relayId) := by
    simp [PublicationTarget.row]
  have counted : (required.targets.map fun target => target.row required.outboxId now).countP
      (·.required) = required.targets.countP (·.required) := by
    rw [List.countP_map]
    rfl
  have listed := target_opened required attestation now
  simp only [Snapshot.opened] at listed
  simp only [Snapshot.opened, targetsValid, RequiredPublication.outboxRow, ordinals, relays,
    counted, listed, List.length_map, opens.ordinals, opens.bounded, opens.distinct, ← opens.digest,
    beq_self_eq_true, decide_true, Bool.and_self]

theorem attended :
    (Snapshot.opened required attestation now).Attended := by
  have quiet : Quiet (Snapshot.opened required attestation now).targets := by
    intro target targetMem submitted
    rw [(mem_opened targetMem).2.1] at submitted
    cases submitted
  refine ⟨⟨?_, ?_, ?_, ?_, ?_, ?_⟩, ?_, ?_, ?_⟩
  · intro left leftMem _ _ submitted
    exact absurd submitted (quiet left leftMem)
  · intro target targetMem submitted
    exact absurd submitted (quiet target targetMem)
  · intro target targetMem submitted
    exact absurd submitted (quiet target targetMem)
  · intro target targetMem _
    rw [(mem_opened targetMem).2.1]
    rfl
  · intro target targetMem _ _
    rw [(mem_opened targetMem).2.2.2.1]
    rfl
  · intro target targetMem
    rw [(mem_opened targetMem).2.2.1]
    exact Nat.zero_le _
  · intro target targetMem submitted
    exact absurd submitted (quiet target targetMem)
  · intro target targetMem submitted
    exact absurd submitted (quiet target targetMem)
  · intro target targetMem _
    exact Nat.le_of_eq (mem_opened targetMem).2.2.2.2

omit [Sha256] in
theorem decided : (Snapshot.opened required attestation now).Decided := by
  refine ⟨?_, ?_, ?_, ?_⟩
  · rintro - ⟨target, targetMem, isRequired⟩
    refine ⟨⟨target, targetMem, isRequired, ?_⟩, ?_⟩
    · rw [(mem_opened targetMem).2.1]
      decide
    · intro other otherMem _
      rcases mem_opened otherMem with ⟨-, pending, -, scheduled, -⟩
      simp [TargetRow.isBlocking, pending, scheduled]
  · rintro - ⟨target, targetMem, isRequired⟩
    symm
    change List.min? _ = some now
    rw [List.min?_eq_some_iff]
    constructor
    · exact List.mem_filterMap.mpr ⟨target, List.mem_filter.mpr ⟨targetMem, isRequired⟩,
        (mem_opened targetMem).2.2.2.1⟩
    · intro instant instantMem
      rcases List.mem_filterMap.mp instantMem with ⟨other, otherMem, scheduled⟩
      rw [(mem_opened (List.mem_filter.mp otherMem).1).2.2.2.1] at scheduled
      exact Nat.le_of_eq (Option.some.inj scheduled)
  · intro impossible
    cases impossible
  · intro impossible
    cases impossible

theorem startable (opens : Opens required) :
    (Snapshot.opened required attestation now).Startable := by
  constructor
  · intro target targetMem _ _
    rw [(mem_opened targetMem).2.2.1]
    exact opens.attempts
  · intro _
    rcases List.exists_mem_of_ne_nil _ opens.nonempty with ⟨source, sourceMem⟩
    refine ⟨now, rfl, source.row required.outboxId now, List.mem_map.mpr ⟨source, sourceMem, rfl⟩,
      ?_⟩
    have first : 0 < required.retry.maximumAttempts := opens.attempts
    simp [TargetRow.isDue, PublicationTarget.row, TargetState.retryable, Snapshot.opened,
      RequiredPublication.outboxRow, first]

omit [Sha256] in
theorem logged : (Snapshot.opened required attestation now).Logged := by
  intro target targetMem
  rcases mem_opened targetMem with ⟨-, pending, unattempted, -, -⟩
  simp [Snapshot.recorded, Snapshot.opened, Snapshot.concluded, pending, unattempted]

end Opens

end Opening

section Advancing

variable [Sha256] [TradeEvidence]

/-- Every outbox of the store has the property. -/
def Every (property : Snapshot → Prop) (store : Store) : Prop :=
  ∀ id current, snapshot id store = some current → property current

/-- An identity without an outbox holds nothing. -/
def Referenced (store : Store) : Prop :=
  ∀ id, outboxRow id store = none → targetsOf id store = [] ∧ deliveriesOf id store = []

/-- The step that a move takes of an outbox. -/
def Move.Takes (move : Move) (action : Action) (id : Digest) (current : Snapshot) : Prop :=
  match move with
  | .service .. | .finalize .. => False
  | .claim .. => action = .claim
  | .prepare _ lease _ => action = .prepare ∧ id = lease.outbox.id ∧ Held lease current.row
  | .record .. => action = .record
  | .recover .. => action = .recover
  | .retry _ outbox _ _ _ => action = .retry ∧ id = outbox

/-- What a move may do to the outboxes. -/
inductive Advance (move : Move) (service : Service) (after : Store) : Prop where
  | kept (same : ∀ id, contents id after = contents id service.store)
      (events : service.store.signedEvents.rows ⊆ after.signedEvents.rows)
  | opened {required : RequiredPublication} {signed : SignedAttestation} {now : Nat}
      (opens : Opens required) (absent : outboxRow required.outboxId service.store = none)
      (made : snapshot required.outboxId after =
        some (.opened required signed.attestation now))
      (others : ∀ other, other ≠ required.outboxId →
        contents other after = contents other service.store)
      (event : signed.attestation.signedEventRow ∈ after.signedEvents.rows)
      (events : service.store.signedEvents.rows ⊆ after.signedEvents.rows)
  | stepped {action : Action} {id : Digest} {current next : Snapshot}
      (stepped : Stepped action id service.store after current next)
      (takes : move.Takes action id current)

omit [TradeEvidence] in
theorem once_of_takes {move : Move} {service : Service} {action : Action} {id : Digest}
    {current : Snapshot} (takes : move.Takes action id current)
    (read : snapshot id service.store = some current) (once : move.Once service) :
    current.Once action := by
  rintro rfl
  cases move with
  | prepare disposition lease startedAt =>
      rcases takes with ⟨-, rfl, held⟩
      rcases snapshot_eq_some.mp read with ⟨stored, targets, -⟩
      rw [← targets]
      exact once current.row stored held
  | service => cases takes
  | finalize => cases takes
  | claim => cases takes
  | record => cases takes
  | recover => cases takes
  | retry => cases takes.1

omit [TradeEvidence] in
theorem reopens_of_takes {move : Move} {service : Service} {action : Action} {id : Digest}
    {current : Snapshot} (takes : move.Takes action id current)
    (read : snapshot id service.store = some current) (reopens : move.Reopens service) :
    current.Reopens action := by
  rintro rfl
  cases move with
  | retry disposition outbox expected targetCount now =>
      rcases takes with ⟨-, rfl⟩
      rcases snapshot_eq_some.mp read with ⟨stored, targets, -⟩
      rw [← targets]
      exact reopens current.row stored
  | service => cases takes
  | finalize => cases takes
  | claim => cases takes
  | prepare => cases takes.1
  | record => cases takes
  | recover => cases takes

omit [Sha256] [TradeEvidence] in
theorem contents_congr {before after : Store} (outbox : after.outbox = before.outbox)
    (targets : after.targets = before.targets) (deliveries : after.deliveries = before.deliveries)
    (id : Digest) : contents id after = contents id before := by
  simp only [contents, outboxRow, targetsOf, deliveriesOf, outbox, targets, deliveries]

omit [TradeEvidence] in
theorem tables_of_effect {host : Host} {before after : Store} {operation : Operation}
    (effect : Effect host before operation after)
    (other : (Call.operation operation).publishes = false) :
    after.outbox = before.outbox ∧ after.targets = before.targets ∧
      after.deliveries = before.deliveries ∧ after.signedEvents = before.signedEvents := by
  cases effect with
  | unchanged => exact ⟨rfl, rfl, rfl, rfl⟩
  | scheduled read scheduled =>
      rw [scheduled.only]
      exact ⟨rfl, rfl, rfl, rfl⟩
  | claimed only rewritten =>
      rw [only]
      exact ⟨rfl, rfl, rfl, rfl⟩
  | renewed only rewritten =>
      rw [only]
      exact ⟨rfl, rfl, rfl, rfl⟩
  | failed only rewritten =>
      rw [only]
      exact ⟨rfl, rfl, rfl, rfl⟩
  | ingested parts =>
      rw [parts.evidenceOnly]
      exact ⟨rfl, rfl, rfl, rfl⟩
  | committed created =>
      rw [created.only]
      exact ⟨rfl, rfl, rfl, rfl⟩
  | finalized made absent created => cases other
  | outboxProgressed updated => cases other
  | targetsProgressed updated => cases other

/-- The rest of the service leaves the outboxes and the signed events alone. -/
theorem tables_of_service (call : Call) (other : call.publishes = false) (service : Service) :
    (service.apply call).store.outbox = service.store.outbox ∧
      (service.apply call).store.targets = service.store.targets ∧
      (service.apply call).store.deliveries = service.store.deliveries ∧
      (service.apply call).store.signedEvents = service.store.signedEvents := by
  rcases apply_cases call service with ⟨operation, host, rfl, -, applied⟩ | only
  · rw [applied]
    exact tables_of_effect (run_effect operation host service.store) other
  · rw [only]
    exact ⟨rfl, rfl, rfl, rfl⟩

omit [TradeEvidence] in
theorem opens_of_made {authorized : Authorized} {event : EventId} {required : RequiredPublication}
    (made : requiredPublication event authorized.authority = some (some required))
    (attempts : 1 ≤ required.retry.maximumAttempts) : Opens required := by
  have origin := made
  rcases deriveAuthority_spec authorized.derived with ⟨distinct, digest⟩
  unfold requiredPublication at made
  split at made
  · simp only [Option.bind_eq_bind, Option.bind_eq_some_iff, Option.pure_def, Option.some.injEq,
      reduceCtorEq, and_false, exists_false] at made
  · simp only [Option.bind_eq_bind, Option.bind_eq_some_iff, Option.guard_eq_some', Option.pure_def,
      Option.some.injEq] at made
    rcases made with ⟨retry, -, -, ⟨nonempty, bounded, ordinals⟩, rfl⟩
    exact ⟨nonempty, bounded, ordinals, distinct, digest, attempts, event, authorized, origin⟩

omit [TradeEvidence] in
/-- A created finalization opens the outbox of its authority, if it has one. -/
theorem advance_of_created {move : Move} {service : Service} {after : Store}
    {record : FinalizationRecord} {signed : SignedAttestation} {authorized : Authorized}
    {now : UnixMilliseconds} (referenced : Referenced service.store)
    (made : FinalizationRecord.fromInputs signed.attestation authorized.authority now = some record)
    (created : FinalizationCreated record service.store after) : Advance move service after := by
  have inserted := created.inserted
  have outbox : after.outbox.rows = service.store.outbox.rows ++ outboxRows record :=
    inserted.outbox
  have targets : after.targets.rows = service.store.targets.rows ++ targetRows record :=
    inserted.targets
  have deliveries : after.deliveries = service.store.deliveries := by
    simpa using congrArg Store.deliveries inserted.only
  have signedEvents : after.signedEvents.rows =
      service.store.signedEvents.rows ++ [record.attestation.signedEventRow] :=
    inserted.signedEvents
  have events : service.store.signedEvents.rows ⊆ after.signedEvents.rows := by
    rw [signedEvents]
    exact List.subset_append_left _ _
  simp only [FinalizationRecord.fromInputs, Option.bind_eq_bind, Option.bind_eq_some_iff,
    Option.guard_eq_some', Option.pure_def, Option.some.injEq] at made
  rcases made with ⟨-, -, -, -, publication, published, rfl⟩
  cases publication with
  | none =>
      refine .kept (fun id => contents_congr ?_ ?_ deliveries id) events
      · refine Table.ext ?_
        simpa [outboxRows] using outbox
      · refine Table.ext ?_
        simpa [targetRows] using targets
  | some required =>
      simp only [outboxRows, targetRows, Option.toList_some, List.map_cons, List.map_nil,
        List.flatMap_cons, List.flatMap_nil, List.append_nil] at outbox targets
      have newOutbox : ∀ row ∈ service.store.outbox.rows, row.outboxId ≠ required.outboxId :=
        fun row rowMem => inserted.newOutbox row rowMem required rfl
      have absent : outboxRow required.outboxId service.store = none := by
        refine List.find?_eq_none.mpr ?_
        intro row rowMem
        simpa using newOutbox row rowMem
      have rowMem : required.outboxRow signed.attestation now.get ∈ after.outbox.rows := by
        rw [outbox]
        simp
      have opens : Opens required := by
        refine opens_of_made published ?_
        have checked := after.outbox.checked _ rowMem
        simp only [publicationOutbox, Bool.and_eq_true, decide_eq_true_eq] at checked
        exact checked.1.2.2.2.1
      have empty := referenced required.outboxId absent
      have targetsMade : targetsOf required.outboxId after =
          required.targets.map fun target => target.row required.outboxId now.get := by
        have stored : service.store.targets.rows.filter
            (fun row => row.outboxId == required.outboxId) = [] := empty.1
        unfold targetsOf
        rw [targets, List.filter_append, stored, List.nil_append]
        refine List.filter_eq_self.mpr ?_
        intro target targetMem
        rcases List.mem_map.mp targetMem with ⟨source, -, rfl⟩
        simp [PublicationTarget.row]
      have unlogged : deliveriesOf required.outboxId after = [] := by
        unfold deliveriesOf
        rw [deliveries]
        exact empty.2
      have opened : snapshot required.outboxId after =
          some (.opened required signed.attestation now.get) :=
        snapshot_eq_some.mpr ⟨outboxRow_of_mem rowMem, targetsMade, unlogged⟩
      refine .opened opens absent opened ?_ ?_ events
      · intro other different
        have outboxRows : outboxRow other after = outboxRow other service.store := by
          unfold outboxRow
          rw [outbox, List.find?_append]
          have apart : (required.outboxId == other) = false := by simpa using Ne.symm different
          simp [RequiredPublication.outboxRow, apart]
        have targetRows : targetsOf other after = targetsOf other service.store := by
          unfold targetsOf
          rw [targets, List.filter_append]
          have none : (required.targets.map fun target => target.row required.outboxId
              now.get).filter (fun row => row.outboxId == other) = [] := by
            refine List.filter_eq_nil_iff.mpr ?_
            intro target targetMem
            rcases List.mem_map.mp targetMem with ⟨source, -, rfl⟩
            simpa [PublicationTarget.row] using Ne.symm different
          rw [none, List.append_nil]
        simp only [contents, outboxRows, targetRows, deliveriesOf, deliveries]
      · rw [signedEvents]
        simp

omit [TradeEvidence] in
theorem advance_refl (move : Move) (service : Service) : Advance move service service.store :=
  .kept (fun _ => rfl) (List.Subset.refl _)

omit [TradeEvidence] in
theorem sorted_of_every {id : Digest} {store : Store} (referenced : Referenced store)
    (sound : Every Snapshot.Sound store) : Sorted (targetsOf id store) := by
  cases stored : outboxRow id store with
  | none =>
      rw [(referenced id stored).1]
      exact ⟨.nil, Nat.zero_le _⟩
  | some row =>
      exact (sound id ⟨row, _, _⟩ (snapshot_eq_some.mpr ⟨stored, rfl, rfl⟩)).sorted

/-- The moves that may open an outbox. -/
def Move.finalizes : Move → Bool
  | .finalize .. => true
  | _ => false

omit [TradeEvidence] in
/-- A move of an open host other than a finalization takes at most one step. -/
theorem step_of_run (move : Move) (other : move.finalizes = false) {host : Host} {service : Service}
    (referenced : Referenced service.store) (sound : Every Snapshot.Sound service.store) :
    move.run host service.store = service.store ∨ ∃ action id current next,
      Stepped action id service.store (move.run host service.store) current next ∧
        move.Takes action id current := by
  cases move with
  | service call _ => exact .inl rfl
  | finalize disposition signed authorized now => cases other
  | claim disposition owner now authorized =>
      simp only [Move.run, claimNextPublication]
      split
      · exact .inl rfl
      · split
        · exact .inl rfl
        · rename_i binding _
          rcases transaction_store mapPublicationError disposition (claimNext owner now binding)
            service.store with same | ⟨claimed, next, done, same⟩
          · exact .inl same
          · rw [same]
            cases claimed with
            | none => exact .inl (claimNext_none done)
            | some lease =>
                rcases claimNext_spec done with ⟨current, -, stepped, -⟩
                exact .inr ⟨_, _, _, _, stepped, rfl⟩
  | prepare disposition lease startedAt =>
      simp only [Move.run, prepareNextPublicationTarget]
      split
      · exact .inl rfl
      · rcases transaction_store mapPublicationError disposition (prepareNext lease startedAt)
          service.store with same | ⟨prepared, next, done, same⟩
        · exact .inl same
        · rw [same]
          rcases prepareNext_spec done with ⟨current, old, held, stepped, -⟩
          exact .inr ⟨_, _, _, _, stepped, rfl, rfl, held⟩
  | record disposition prepared finishedAt outcome delay =>
      simp only [Move.run, recordPublicationOutcome]
      split
      · exact .inl rfl
      · split
        · exact .inl rfl
        · rename_i input _
          rcases transaction_store mapPublicationError disposition (recordOutcome input)
            service.store with same | ⟨commit, next, done, same⟩
          · exact .inl same
          · rw [same]
            rcases recordOutcome_spec done (sorted_of_every referenced sound) with
              ⟨rfl, -⟩ | ⟨current, state, schedule, old, decided, -, -, -, stepped⟩
            · exact .inl rfl
            · exact .inr ⟨_, _, _, _, stepped, rfl⟩
  | recover disposition candidate now delay =>
      simp only [Move.run]
      split
      · unfold recoverExpiredPublication
        rcases transaction_store mapPublicationError disposition
          (recoverExpired candidate now delay) service.store with
            same | ⟨done, next, recovered, same⟩
        · exact .inl same
        · rw [same]
          rcases recoverExpired_spec recovered (sorted_of_every referenced sound) with
            ⟨current, last, decided, expires, -, -, stepped⟩
          exact .inr ⟨_, _, _, _, stepped, rfl⟩
      · exact .inl rfl
  | retry disposition outbox expected targetCount now =>
      simp only [Move.run]
      split
      · unfold publicationRetry
        rcases transaction_store id disposition (retry outbox expected targetCount now)
          service.store with same | ⟨done, next, retried, same⟩
        · exact .inl same
        · rw [same]
          rcases retry_spec retried with ⟨current, stepped⟩
          exact .inr ⟨_, _, _, _, stepped, rfl, rfl⟩
      · exact .inl rfl

omit [TradeEvidence] in
/-- A move of an open host takes at most one step. -/
theorem advance_of_run (move : Move) {host : Host} {service : Service}
    (referenced : Referenced service.store) (sound : Every Snapshot.Sound service.store) :
    Advance move service (move.run host service.store) := by
  cases isOther : move.finalizes with
  | false =>
      rcases @step_of_run _ move isOther host service referenced sound with
        same | ⟨action, id, current, next, stepped, takes⟩
      · rw [same]
        exact advance_refl _ _
      · exact .stepped stepped takes
  | true =>
      cases move with
      | finalize disposition signed authorized now =>
          have effect := commitFinalization_effect host disposition signed.attestation
            authorized.authority now service.store
          simp only [Move.run]
          generalize (commitFinalization host disposition signed.attestation authorized.authority
            now service.store).2 = after at effect
          cases effect with
          | unchanged => exact advance_refl _ _
          | finalized made absent created => exact advance_of_created referenced made created
      | service => cases isOther
      | claim => cases isOther
      | prepare => cases isOther
      | record => cases isOther
      | recover => cases isOther
      | retry => cases isOther

/-- Every move advances the outboxes by at most one step. -/
theorem advance_of_apply (move : Move) {service : Service} (referenced : Referenced service.store)
    (sound : Every Snapshot.Sound service.store) :
    Advance move service (move.apply service).store := by
  unfold Move.apply
  split
  · rename_i call other
    rcases tables_of_service call other service with ⟨outbox, targets, deliveries, events⟩
    refine .kept (contents_congr outbox targets deliveries) ?_
    rw [events]
    exact List.Subset.refl _
  · exact advance_refl _ _
  · exact advance_of_run _ referenced sound

end Advancing

section Invariants

variable [Sha256] [TradeEvidence]

omit [TradeEvidence] in
/-- A property of outboxes that opening one establishes and every step keeps. -/
theorem Every.advance {property : Snapshot → Prop} {move : Move} {service : Service} {after : Store}
    (advance : Advance move service after)
    (opened : ∀ required attestation now, Opens required →
      property (.opened required attestation now))
    (step : ∀ action current next, (move.Once service → current.Once action) →
      (move.Reopens service → current.Reopens action) → property current →
      Snapshot.Step action current next → property next)
    (before : Every property service.store) : Every property after := by
  intro id current read
  cases advance with
  | kept same events =>
      rw [snapshot_congr (same id)] at read
      exact before id current read
  | @opened required signed now opens absent made others event events =>
      by_cases sameId : id = required.outboxId
      · rw [sameId, made] at read
        cases read
        exact opened _ _ _ opens
      · rw [snapshot_congr (others id sameId)] at read
        exact before id current read
  | @stepped action touchedId old next stepped takes =>
      by_cases sameId : id = touchedId
      · rw [sameId, stepped.after] at read
        cases read
        exact step action old _ (once_of_takes takes stepped.before)
          (reopens_of_takes takes stepped.before) (before touchedId old stepped.before) stepped.step
      · rw [snapshot_congr (stepped.touched.others id sameId)] at read
        exact before id current read

omit [TradeEvidence] in
theorem Referenced.advance {move : Move} {service : Service} {after : Store}
    (advance : Advance move service after) (referenced : Referenced service.store) :
    Referenced after := by
  have carry : ∀ id, contents id after = contents id service.store →
      outboxRow id after = none → targetsOf id after = [] ∧ deliveriesOf id after = [] := by
    intro id same absent
    simp only [contents, Prod.mk.injEq] at same
    rw [same.1] at absent
    rw [same.2.1, same.2.2]
    exact referenced id absent
  intro id absent
  cases advance with
  | kept same events => exact carry id (same id) absent
  | @opened required signed now opens _ made others event events =>
      by_cases sameId : id = required.outboxId
      · rw [sameId, (snapshot_eq_some.mp made).1] at absent
        cases absent
      · exact carry id (others id sameId) absent
  | @stepped action touchedId old next stepped takes =>
      by_cases sameId : id = touchedId
      · rw [sameId, (snapshot_eq_some.mp stepped.after).1] at absent
        cases absent
      · exact carry id (stepped.touched.others id sameId) absent

/-- The signed event of an outbox, with the digest the outbox was committed with. -/
structure EventOf (row : OutboxRow) (event : SignedEventRow) : Prop where
  identity : event.eventId = row.eventId
  digest : event.eventDigest = row.eventDigest
  isSealed : Sha256.digest event.canonicalEventJson = event.eventDigest

def Committed (store : Store) : Prop :=
  ∀ id row, outboxRow id store = some row → ∃ event ∈ store.signedEvents.rows, EventOf row event

omit [TradeEvidence] in
theorem Committed.advance {move : Move} {service : Service} {after : Store}
    (advance : Advance move service after) (committed : Committed service.store) :
    Committed after := by
  have carry : ∀ id, contents id after = contents id service.store →
      service.store.signedEvents.rows ⊆ after.signedEvents.rows →
      ∀ row, outboxRow id after = some row →
        ∃ event ∈ after.signedEvents.rows, EventOf row event := by
    intro id same events row stored
    rw [show outboxRow id after = outboxRow id service.store from congrArg Prod.fst same] at stored
    rcases committed id row stored with ⟨event, eventMem, isEvent⟩
    exact ⟨event, events eventMem, isEvent⟩
  intro id row stored
  cases advance with
  | kept same events => exact carry id (same id) events row stored
  | @opened required signed now opens _ made others event events =>
      by_cases sameId : id = required.outboxId
      · rw [sameId, (snapshot_eq_some.mp made).1] at stored
        cases stored
        exact ⟨_, event, rfl, rfl, signed.isSealed⟩
      · exact carry id (others id sameId) events row stored
  | @stepped action touchedId old next stepped takes =>
      have sameEvents : after.signedEvents = service.store.signedEvents := by
        rw [stepped.touched.only]
      by_cases sameId : id = touchedId
      · rw [sameId, (snapshot_eq_some.mp stepped.after).1] at stored
        cases stored
        rcases committed touchedId old.row (snapshot_eq_some.mp stepped.before).1 with
          ⟨event, eventMem, isEvent⟩
        have kept := stepped.step.identity
        rw [sameEvents]
        exact ⟨event, eventMem, isEvent.identity.trans kept.2.1.symm,
          isEvent.digest.trans kept.2.2.1.symm, isEvent.isSealed⟩
      · refine carry id (stepped.touched.others id sameId) ?_ row stored
        rw [sameEvents]
        exact List.Subset.refl _

/-- What the calls of the repository rely on, whoever makes them. -/
structure Orderly (store : Store) : Prop where
  referenced : Referenced store
  sound : Every Snapshot.Sound store
  committed : Committed store

theorem orderly_apply (move : Move) (service : Service) (orderly : Orderly service.store) :
    Orderly (move.apply service).store := by
  have advance := advance_of_apply move orderly.referenced orderly.sound
  exact ⟨orderly.referenced.advance advance,
    orderly.sound.advance advance (fun _ attestation now opens => opens.sound attestation now)
      (fun _ _ _ _ _ sound step => sound.step step),
    orderly.committed.advance advance⟩

omit [TradeEvidence] in
theorem orderly_initial : Orderly Service.initial.store where
  referenced _ _ := ⟨rfl, rfl⟩
  sound _ _ read := by cases read
  committed _ _ stored := by cases stored

theorem orderly_exec (moves : List Move) : Orderly (exec moves .initial).store :=
  Transition.exec_invariant (fun service : Service => Orderly service.store) orderly_apply moves
    orderly_initial

/-- An outbox that is coherent, and due only together with one of its targets. -/
structure Snapshot.Live (current : Snapshot) : Prop where
  coherent : current.Coherent
  startable : current.Startable

/-- The move makes no second attempt under one lease, and retries no exhausted outbox. -/
def Move.Fair (service : Service) (move : Move) : Prop :=
  move.Once service ∧ move.Reopens service

theorem live_apply (move : Move) (service : Service) (fair : move.Fair service)
    (orderly : Orderly service.store) (live : Every Snapshot.Live service.store) :
    Every Snapshot.Live (move.apply service).store := by
  refine live.advance (advance_of_apply move orderly.referenced orderly.sound) ?_ ?_
  · intro required attestation now opens
    exact ⟨⟨opens.sound attestation now, Opens.attended attestation now,
      Opens.decided attestation now⟩, opens.startable attestation now⟩
  · intro action current next once reopens live step
    have coherent := live.coherent
    exact ⟨coherent.step (once fair.1) step, live.startable.step coherent.sound coherent.attended
      coherent.decided (reopens fair.2) step⟩

theorem live_exec {moves : List Move}
    (fair : Transition.Along Move.apply Move.Fair moves .initial) :
    Every Snapshot.Live (exec moves .initial).store := by
  have kept := @Transition.Along.invariant _ _ _ _
    (fun service : Service => Orderly service.store ∧ Every Snapshot.Live service.store)
    (fun move service fair kept => ⟨orderly_apply move service kept.1,
      live_apply move service fair kept.1 kept.2⟩) moves .initial fair
    ⟨orderly_initial, fun _ _ read => by cases read⟩
  exact kept.2

end Invariants

end Publication

end Rhi
