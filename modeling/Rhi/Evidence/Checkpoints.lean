import Rhi.Attempt.Effects
import Rhi.Commit.Effects
import Rhi.Ingest
import Rhi.Lib.Transition
import Rhi.Service.Dirty
import Rhi.Service.Finalizations

/-!
# Checkpoints

The order of cursors is written three times: two comparisons of the program and a trigger of the
table, over integers and byte strings.  They agree, so that the checkpoint of a source moves exactly
when the program selects a greater cursor, and one revision at a time.
-/

namespace Rhi

open Relational Transactional

section Order

/-- The order of byte strings, of `[u8; 32]` as of blobs: the first difference decides. -/
def compareBytes : List UInt8 → List UInt8 → Ordering
  | [], [] => .eq
  | [], _ :: _ => .lt
  | _ :: _, [] => .gt
  | left :: lefts, right :: rights =>
      (compare left.toNat right.toNat).then (compareBytes lefts rights)

/-- The bytes of an event identifier. -/
def eventIdBytes (id : EventId) : List UInt8 := toBeBytes 32 id.toNat

/-- `compare_cursor`, of the ingest and of the replay alike. -/
def compareCursor (left right : SourceCursor) : Ordering :=
  (compare left.createdAt right.createdAt).then
    (compareBytes (eventIdBytes left.eventId) (eventIdBytes right.eventId))

/-- The condition of the trigger `relay_checkpoints_guard_update`, which aborts the update. -/
def checkpointGuardFires (old new : CheckpointRow) : Bool :=
  new.sourceId != old.sourceId || new.evidencePolicy != old.evidencePolicy ||
    new.tradeId != old.tradeId || new.revision != old.revision + 1 ||
    decide (new.completedAt < old.completedAt) ||
    decide (new.cursor.createdAt < old.cursor.createdAt) ||
    (new.cursor.createdAt == old.cursor.createdAt &&
      compareBytes (eventIdBytes new.cursor.eventId) (eventIdBytes old.cursor.eventId) != .gt)

theorem toBeBytes_succ (count value : Nat) : toBeBytes (count + 1) value =
    UInt8.ofNat (value / 256 ^ count) :: toBeBytes count value := by
  unfold toBeBytes
  rw [List.range_succ_eq_map, List.map_cons, List.map_map]
  simp only [Nat.add_sub_cancel, Nat.sub_zero, List.cons.injEq, true_and]
  apply List.map_congr_left
  intro index _
  simp only [Function.comp_apply]
  congr 3
  omega

/-- A digit decides before the rest of a number does. -/
theorem compare_add_mul {base left right leftRest rightRest : Nat} (leftSmall : leftRest < base)
    (rightSmall : rightRest < base) :
    compare (leftRest + base * left) (rightRest + base * right) =
      (compare left right).then (compare leftRest rightRest) := by
  rcases lt_trichotomy left right with less | rfl | more
  · have below : leftRest + base * left < rightRest + base * right := by
      have := Nat.mul_le_mul_left base (Nat.succ_le_of_lt less)
      rw [Nat.mul_succ] at this
      omega
    rw [Nat.compare_eq_lt.mpr below, Nat.compare_eq_lt.mpr less]
    rfl
  · rw [Nat.compare_eq_eq.mpr rfl, Ordering.then]
    simp [compare, compareOfLessAndEq]
  · have above : rightRest + base * right < leftRest + base * left := by
      have := Nat.mul_le_mul_left base (Nat.succ_le_of_lt more)
      rw [Nat.mul_succ] at this
      omega
    rw [Nat.compare_eq_gt.mpr above, Nat.compare_eq_gt.mpr more]
    rfl

/-- Big-endian byte strings of one length are ordered as the numbers they encode. -/
theorem compareBytes_toBeBytes (count left right : Nat) :
    compareBytes (toBeBytes count left) (toBeBytes count right) =
      compare (left % 256 ^ count) (right % 256 ^ count) := by
  induction count with
  | zero => simp [toBeBytes, compareBytes, Nat.mod_one]
  | succ count ih =>
      have positive : 0 < 256 ^ count := Nat.pow_pos (by decide)
      rw [toBeBytes_succ, toBeBytes_succ, compareBytes, ih, Nat.mod_pow_succ, Nat.mod_pow_succ,
        compare_add_mul (Nat.mod_lt _ positive) (Nat.mod_lt _ positive)]
      simp [UInt8.toNat_ofNat']

theorem compare_eventIdBytes (left right : EventId) :
    compareBytes (eventIdBytes left) (eventIdBytes right) = compare left.toNat right.toNat := by
  have leftSmall : left.toNat % 256 ^ 32 = left.toNat :=
    Nat.mod_eq_of_lt (by have := left.isLt; omega)
  have rightSmall : right.toNat % 256 ^ 32 = right.toNat :=
    Nat.mod_eq_of_lt (by have := right.isLt; omega)
  rw [eventIdBytes, eventIdBytes, compareBytes_toBeBytes, leftSmall, rightSmall]

/-- The order of cursors is the one the program computes. -/
theorem compareCursor_eq_lt {left right : SourceCursor} :
    compareCursor left right = .lt ↔ left.lt right = true := by
  rw [SourceCursor.lt_iff, compareCursor, compare_eventIdBytes]
  rcases lt_trichotomy left.createdAt right.createdAt with less | same | more
  · simp [Nat.compare_eq_lt.mpr less, less]
  · rw [same, Nat.compare_eq_eq.mpr rfl]
    simp [Nat.compare_eq_lt, BitVec.lt_def]
  · simp [Nat.compare_eq_gt.mpr more, more.not_gt, more.ne']

/-- The two conditions of the trigger on the cursor leave the greater cursors. -/
theorem lt_eq_guard (old new : SourceCursor) :
    old.lt new = !(decide (new.createdAt < old.createdAt) ||
      (new.createdAt == old.createdAt &&
        compareBytes (eventIdBytes new.eventId) (eventIdBytes old.eventId) != .gt)) := by
  rw [Bool.eq_iff_iff, SourceCursor.lt_iff, compare_eventIdBytes]
  rcases lt_trichotomy old.createdAt new.createdAt with less | same | more
  · simp [less, less.not_gt, less.ne']
  · simp [same, Nat.compare_eq_gt, BitVec.lt_def]
  · simp [more, more.not_gt, more.ne']

/-- The table refuses exactly the updates at which the trigger fires. -/
theorem guardUpdate_eq (old new : CheckpointRow) :
    relayCheckpoints.guardUpdate old new = !checkpointGuardFires old new := by
  have ordered : decide (old.completedAt ≤ new.completedAt) =
      !decide (new.completedAt < old.completedAt) := by
    rw [← decide_not]
    simp
  simp only [relayCheckpoints, CheckpointRow.sameScope, checkpointGuardFires, lt_eq_guard, ordered,
    bne, Bool.not_or, Bool.not_and, Bool.not_not, Bool.and_assoc,
    Bool.beq_comm (a := new.sourceId), Bool.beq_comm (a := new.evidencePolicy),
    Bool.beq_comm (a := new.tradeId)]

end Order

section Greatest

/-- The greatest of some cursors. -/
def SourceCursor.Greatest (cursors : List SourceCursor) (cursor : SourceCursor) : Prop :=
  cursor ∈ cursors ∧ ∀ other ∈ cursors, cursor.lt other = false

/-- The cursor of a loop that keeps the latest one. -/
theorem greatest_latest {cursors : List SourceCursor} {current : Option SourceCursor}
    (greatest : ∀ cursor ∈ current, SourceCursor.Greatest cursors cursor)
    (absent : current = none → cursors = []) (next : SourceCursor) :
    SourceCursor.Greatest (cursors ++ [next]) (current.elim next (·.latest next)) := by
  cases current with
  | none =>
      rw [absent rfl]
      exact ⟨by simp, by simp [SourceCursor.lt_irrefl]⟩
  | some cursor =>
      rcases greatest cursor rfl with ⟨member, above⟩
      rw [Option.elim_some]
      rcases SourceCursor.latest_cases cursor next with ⟨same, later⟩ | ⟨same, earlier⟩
      · rw [same]
        refine ⟨by simp, ?_⟩
        intro other otherMem
        rcases List.mem_append.mp otherMem with old | new
        · exact SourceCursor.not_lt_of_lt later (above other old)
        · rw [List.mem_singleton.mp new]
          exact next.lt_irrefl
      · rw [same]
        refine ⟨List.mem_append_left _ member, ?_⟩
        intro other otherMem
        rcases List.mem_append.mp otherMem with old | new
        · exact above other old
        · rw [List.mem_singleton.mp new]
          exact earlier

/-- The candidate of a result is its greatest admitted event. -/
structure Candidates.Latest (candidates : Candidates) : Prop where
  greatest : ∀ cursor ∈ candidates.cursorCandidate,
    SourceCursor.Greatest (candidates.admitted.map (·.event.cursor)) cursor
  absent : candidates.cursorCandidate = Option.none → candidates.admitted = []

theorem Candidates.Latest.accept {candidates : Candidates} (latest : candidates.Latest)
    (event : AdmittedEvent) : (candidates.accept event).Latest := by
  unfold Candidates.accept
  split
  · exact ⟨latest.greatest, latest.absent⟩
  · refine ⟨?_, by simp⟩
    intro cursor isCandidate
    rw [← Option.some.inj isCandidate, List.map_append]
    refine greatest_latest latest.greatest ?_ _
    intro missing
    rw [latest.absent missing, List.map_nil]

theorem latest_acceptAll (events : List AdmittedEvent) {candidates : Candidates}
    (latest : candidates.Latest) : (acceptAll events candidates).Latest := by
  induction events generalizing candidates with
  | nil => exact latest
  | cons event rest ih => exact ih (latest.accept event)

theorem fetchSource_greatest (source : ConfiguredSource) (attempt : SourceAttempt)
    (trade : TradeId) (answers : List Answer) :
    ∀ cursor ∈ (fetchSource source attempt trade answers).cursorCandidate,
      SourceCursor.Greatest
        ((fetchSource source attempt trade answers).admitted.map (·.event.cursor)) cursor :=
  (latest_acceptAll _ ⟨by simp [Candidates.none], fun _ => rfl⟩).greatest

end Greatest

section Moves

/-- A replay as `finish` seals it. -/
structure FinishedReplay extends SealedReplay where
  finished : ∃ request outcome startedAt finishedAt events,
    replay.plan.finish request outcome startedAt finishedAt events = .ok replay

/-- A call that may move checkpoints.  The initial state of a result was read earlier. -/
inductive CheckpointMove where
  | fetched (disposition : Disposition) (source : ConfiguredSource) (attempt : SourceAttempt)
      (trade : TradeId) (initial : InitialState) (answers : List Answer)
  | delivered (disposition : Disposition) (source : ConfiguredSource) (attempt : SourceAttempt)
      (initial : InitialState) (admitted : AdmittedEvent)
  | replays (mode : HostMode) (disposition : Disposition) (lease : Lease) (plan : AttemptPlan)
      (finished : List FinishedReplay)

variable [Sha256] [TradeEvidence]

def CheckpointMove.apply (move : CheckpointMove) (store : Store) : Store :=
  match move with
  | .fetched disposition source attempt trade initial answers =>
      (commitSourceResult disposition source.sourceId source.policy attempt.observedAt initial
        (fetchSource source attempt trade answers) store).2
  | .delivered disposition source attempt initial admitted =>
      (commitSourceResult disposition source.sourceId source.policy attempt.observedAt initial
        (subscribedResult admitted) store).2
  | .replays mode disposition lease plan finished =>
      (commitSourceReplays mode disposition lease plan (finished.map (·.toSealedReplay)) store).2

/-- The next row of a checkpoint: the first one, or one with a greater cursor and the next
revision. -/
def CheckpointRow.Succeeds (new : CheckpointRow) : Option CheckpointRow → Prop
  | none => new.revision = 1
  | some old => compareCursor old.cursor new.cursor = .lt ∧ new.revision = old.revision + 1

omit [Sha256] [TradeEvidence] in
theorem writeCheckpoint_succeeds {source : SourceId} {policy : EvidencePolicyDigest}
    {trade : TradeId} {current : Option CheckpointRow} {cursor : SourceCursor} {completedAt : Nat}
    {store next : Store}
    (done : writeCheckpoint source policy trade current cursor completedAt store = .ok next) :
    ∃ new, readCheckpoint next source policy trade = some new ∧ new.cursor = cursor ∧
      new.Succeeds (readCheckpoint store source policy trade) ∧
      new.revision = (current.map (·.revision)).getD 0 + 1 ∧
      (readCheckpoint store source policy trade).map (·.revision) = current.map (·.revision) := by
  rcases writeCheckpoint_spec done with ⟨-, ⟨new, read, isCursor, revision⟩, unmoved, beyond, -⟩
  refine ⟨new, read, isCursor, ?_, revision, unmoved⟩
  cases stored : readCheckpoint store source policy trade with
  | none =>
      rw [stored, Option.map_none] at unmoved
      rw [← unmoved] at revision
      simpa [CheckpointRow.Succeeds] using revision
  | some old =>
      rw [stored, Option.map_some] at unmoved
      rw [← unmoved] at revision
      refine ⟨?_, by simpa using revision⟩
      rw [compareCursor_eq_lt, isCursor]
      exact beyond old stored

/-- The checkpoint of a scope moved to the eligible cursor of one of some replays. -/
def MovedBy (plan : AttemptPlan) (replays : List SourceReplay) (before after : Store)
    (source : SourceId) (policy : EvidencePolicyDigest) (trade : TradeId) : Prop :=
  ∃ replay ∈ replays, replay.plan.sourceId = source ∧ plan.policyDigest = policy ∧
    replay.plan.tradeId = trade ∧ ∃ new, readCheckpoint after source policy trade = some new ∧
      replay.eligibleCursor = some new.cursor ∧
      new.Succeeds (readCheckpoint before source policy trade)

omit [Sha256] [TradeEvidence] in
theorem CheckpointRow.Succeeds.revision_ne {new : CheckpointRow} {old : Option CheckpointRow}
    (succeeds : new.Succeeds old) : old.map (·.revision) ≠ some new.revision := by
  intro same
  cases old with
  | none => cases same
  | some row =>
      have moved := succeeds.2
      have kept : row.revision = new.revision := Option.some.inj same
      omega

omit [TradeEvidence] in
/-- The loop over the sources moves a checkpoint at most once: a second move would meet another
revision than the one read at the start. -/
theorem commitSources_moves {plan : AttemptPlan} {start : Store}
    {entries : List (SourceReplay × Option CheckpointRow)} {ordinal : Nat} {store next : Store}
    (read : ∀ entry ∈ entries, entry.2 =
      readCheckpoint start entry.1.plan.sourceId plan.policyDigest entry.1.plan.tradeId)
    (stands : ∀ source policy trade, readCheckpoint store source policy trade =
        readCheckpoint start source policy trade ∨
      ∃ new, readCheckpoint store source policy trade = some new ∧
        new.Succeeds (readCheckpoint start source policy trade))
    (done : commitSources plan entries ordinal store = .ok next)
    (source : SourceId) (policy : EvidencePolicyDigest) (trade : TradeId) :
    readCheckpoint next source policy trade = readCheckpoint store source policy trade ∨
      (readCheckpoint store source policy trade = readCheckpoint start source policy trade ∧
        MovedBy plan (entries.map (·.1)) start next source policy trade) := by
  induction entries generalizing ordinal store with
  | nil =>
      simp only [commitSources, Except.ok.injEq] at done
      exact .inl (by rw [done])
  | cons entry rest ih =>
      rcases entry with ⟨replay, checkpoint⟩
      simp only [commitSources, bind_eq_ok] at done
      rcases done with ⟨moved, moving, inserted, inserting, done⟩
      have sameInserted : ∀ source policy trade, readCheckpoint inserted source policy trade =
          readCheckpoint moved source policy trade := by
        intro source policy trade
        rw [(insertSourceResult_spec inserting).1]
        rfl
      have readHere : checkpoint = readCheckpoint start replay.plan.sourceId plan.policyDigest
          replay.plan.tradeId := read (replay, checkpoint) (by simp)
      have readRest : ∀ entry ∈ rest, entry.2 =
          readCheckpoint start entry.1.plan.sourceId plan.policyDigest entry.1.plan.tradeId :=
        fun entry entryMem => read entry (by simp [entryMem])
      have widen : ∀ {last : Store}, MovedBy plan (rest.map (·.1)) start last source policy trade →
          MovedBy plan (((replay, checkpoint) :: rest).map (·.1)) start last source policy
          trade := by
        rintro last ⟨other, otherMem, found⟩
        exact ⟨other, by simp [List.mem_map.mp otherMem], found⟩
      unfold moveCheckpoint at moving
      split at moving
      · cases moving
        rcases ih readRest (by simpa [sameInserted] using stands) done with same | ⟨still, found⟩
        · exact .inl (by rw [same, sameInserted])
        · exact .inr ⟨by rw [← still, sameInserted], widen found⟩
      · rename_i cursor eligible
        simp only [mapError_eq_ok] at moving
        rcases writeCheckpoint_succeeds moving with ⟨new, readNew, isCursor, succeeds, -, unmoved⟩
        have elsewhere := (writeCheckpoint_spec moving).2.2.2.2
        have here : readCheckpoint store replay.plan.sourceId plan.policyDigest
            replay.plan.tradeId = readCheckpoint start replay.plan.sourceId plan.policyDigest
              replay.plan.tradeId := by
          rcases stands replay.plan.sourceId plan.policyDigest replay.plan.tradeId with
            same | ⟨row, stored, earlier⟩
          · exact same
          · rw [stored, Option.map_some, readHere] at unmoved
            exact absurd unmoved.symm earlier.revision_ne
        rw [here] at succeeds
        have standsMoved : ∀ source policy trade, readCheckpoint inserted source policy trade =
              readCheckpoint start source policy trade ∨
            ∃ new, readCheckpoint inserted source policy trade = some new ∧
              new.Succeeds (readCheckpoint start source policy trade) := by
          intro source policy trade
          rw [sameInserted]
          by_cases scope : (source, policy, trade) =
              (replay.plan.sourceId, plan.policyDigest, replay.plan.tradeId)
          · simp only [Prod.mk.injEq] at scope
            rcases scope with ⟨rfl, rfl, rfl⟩
            exact .inr ⟨new, readNew, succeeds⟩
          · rw [elsewhere source policy trade scope]
            exact stands source policy trade
        have later := ih readRest standsMoved done
        rw [sameInserted] at later
        by_cases scope : (source, policy, trade) =
            (replay.plan.sourceId, plan.policyDigest, replay.plan.tradeId)
        · simp only [Prod.mk.injEq] at scope
          rcases scope with ⟨rfl, rfl, rfl⟩
          rcases later with same | ⟨still, -⟩
          · refine .inr ⟨here, replay, by simp, rfl, rfl, rfl, new, ?_, ?_, succeeds⟩
            · rw [same, readNew]
            · rw [eligible, isCursor]
          · rw [readNew] at still
            rw [← still] at succeeds
            exact absurd rfl succeeds.revision_ne
        · rw [elsewhere source policy trade scope] at later
          rcases later with same | ⟨still, found⟩
          · exact .inl same
          · exact .inr ⟨still, widen found⟩

omit [Sha256] [TradeEvidence] in
/-- The checkpoints read at the start of a commit, beside the sources they were read for. -/
theorem readCheckpoints_zip {plan : AttemptPlan} {store : Store} {replays : List SourceReplay}
    {checkpoints : List (Option CheckpointRow)}
    (read : readCheckpoints plan store replays = .ok checkpoints) :
    ∀ entry ∈ replays.zip checkpoints, entry.2 =
      readCheckpoint store entry.1.plan.sourceId plan.policyDigest entry.1.plan.tradeId := by
  induction replays generalizing checkpoints with
  | nil => simp
  | cons replay rest ih =>
      simp only [readCheckpoints, bind_eq_ok, pure_eq_ok] at read
      rcases read with ⟨-, -, tail, tailRead, rfl⟩
      intro entry entryMem
      rw [List.zip_cons_cons] at entryMem
      rcases List.mem_cons.mp entryMem with rfl | later
      · rfl
      · exact ih tailRead entry later

omit [Sha256] [TradeEvidence] in
theorem persistAll_only {records : List (PersistenceRecord × ObservationRow)}
    {counts total : InsertedCounts} {store next : Store}
    (done : persistAll records counts store = .ok (total, next)) :
    next = { store with
      mutations := next.mutations, events := next.events, observations := next.observations } := by
  induction records generalizing counts store with
  | nil =>
      simp only [persistAll, Except.ok.injEq, Prod.mk.injEq] at done
      rw [done.2]
  | cons entry rest ih =>
      simp only [persistAll, bind_eq_ok] at done
      rcases done with ⟨⟨outcome, middle⟩, persisted, done⟩
      rw [ih done, (persist_spec persisted).1.only]

omit [Sha256] [TradeEvidence] in
theorem markDirty_only {relevant : Bool} {trade : TradeId} {policy : EvidencePolicyDigest}
    {updatedAt : Nat} {expected : Option DirtyRow} {store next : Store} {generation : Option Nat}
    (done : markDirty relevant trade policy updatedAt expected store = .ok (generation, next)) :
    DirtyOnly store next := by
  unfold markDirty at done
  cases relevant with
  | false =>
      simp only [Bool.false_eq_true, if_false, pure_eq_ok, Prod.mk.injEq] at done
      rw [done.2]
      rfl
  | true =>
      simp only [if_true, bind_eq_ok, pure_eq_ok, Prod.mk.injEq] at done
      rcases done with ⟨⟨value, advanced⟩, advancing, -, rfl⟩
      cases expected with
      | none =>
          simp only [advanceDirtyGeneration, insertDirty, bind_eq_ok, orError_eq_ok, pure_eq_ok,
            Prod.mk.injEq] at advancing
          rcases advancing with ⟨-, -, _, ⟨dirty, -, rfl⟩, -, rfl⟩
          rfl
      | some current =>
          simp only [advanceDirtyGeneration, bind_eq_ok, orError_eq_ok, pure_eq_ok,
            Prod.mk.injEq] at advancing
          rcases advancing with ⟨-, -, -, -, -, -, ⟨dirty, affected⟩, -, -, -, -, rfl⟩
          rfl

omit [TradeEvidence] in
/-- A commit of an attempt moves checkpoints to the eligible cursors of its replays alone. -/
theorem commitAttempt_moves {lease : Lease} {plan : AttemptPlan} {replays : List SourceReplay}
    {store next : Store} {outcome : RawCommitOutcome}
    (done : commitAttempt lease plan replays store = .ok (outcome, next))
    (source : SourceId) (policy : EvidencePolicyDigest) (trade : TradeId) :
    readCheckpoint next source policy trade = readCheckpoint store source policy trade ∨
      MovedBy plan replays store next source policy trade := by
  simp only [commitAttempt, bind_eq_ok] at done
  rcases done with ⟨existing, -, done⟩
  cases existing with
  | true =>
      simp only [if_true, pure_eq_ok, Prod.mk.injEq] at done
      exact .inl (by rw [done.2])
  | false =>
      simp only [Bool.false_eq_true, if_false, createAttempt, bind_eq_ok, orError_eq_ok,
        mapError_eq_ok] at done
      rcases done with ⟨-, -, dirty, -, checkpoints, read, attempted, inserting,
        ⟨inserted, persisted⟩, persisting, ⟨generation, advanced⟩, marking, last, committing,
        finished⟩
      simp only [pure_eq_ok, Prod.mk.injEq] at finished
      rcases finished with ⟨-, rfl⟩
      have sameCheckpoints : advanced.checkpoints = store.checkpoints := by
        rw [markDirty_only marking, persistAll_only persisting, (insertAttempt_spec inserting).1]
      have same : ∀ source policy trade, readCheckpoint advanced source policy trade =
          readCheckpoint store source policy trade := by
        intro source policy trade
        unfold readCheckpoint
        rw [sameCheckpoints]
      have entries : (replays.zip checkpoints).map (·.1) = replays :=
        List.map_fst_zip (length_readCheckpoints read).ge
      have moves := commitSources_moves (readCheckpoints_zip read)
        (fun source policy trade => .inl (same source policy trade)) committing source policy trade
      rw [entries, same] at moves
      exact moves.imp_right And.right

omit [Sha256] [TradeEvidence] in
/-- A commit of a result moves the checkpoint of its own scope alone, to its candidate. -/
theorem commitSource_moves {configured : SourceId} {digest : EvidencePolicyDigest}
    {traded : TradeId} {observedAt : ObservedAt} {initial : InitialState}
    {fetched : FetchedSource traded} {store next : Store} {outcome : IngestOutcome}
    (done : commitSource configured digest observedAt initial fetched store = .ok (outcome, next))
    (source : SourceId) (policy : EvidencePolicyDigest) (trade : TradeId) :
    readCheckpoint next source policy trade = readCheckpoint store source policy trade ∨
      (configured = source ∧ digest = policy ∧ traded = trade ∧ fetched.completion = .complete ∧
        ∃ new, readCheckpoint next source policy trade = some new ∧
          fetched.cursorCandidate = some new.cursor ∧
          new.Succeeds (readCheckpoint store source policy trade)) := by
  rcases commitSource_parts done with ⟨persisted, advanced, mutations, events, parts⟩
  have same : ∀ source policy trade, readCheckpoint advanced source policy trade =
      readCheckpoint store source policy trade := by
    intro source policy trade
    rcases parts.marked with ⟨generation, marked⟩
    unfold readCheckpoint
    rw [markDirty_only marked, parts.appended.only]
  have committed := parts.checkpointed
  unfold commitCheckpoint at committed
  split at committed
  · rename_i cursor candidate
    split at committed
    · rename_i allowed
      simp only [bind_eq_ok, pure_eq_ok, Prod.mk.injEq] at committed
      rcases committed with ⟨written, writing, -, -, rfl⟩
      rcases writeCheckpoint_succeeds writing with ⟨new, read, isCursor, succeeds, -, -⟩
      by_cases scope : (source, policy, trade) = (configured, digest, traded)
      · simp only [Prod.mk.injEq] at scope
        rcases scope with ⟨rfl, rfl, rfl⟩
        refine .inr ⟨rfl, rfl, rfl, ?_, new, read, by rw [candidate, isCursor], ?_⟩
        · have complete := (Bool.and_eq_true_iff.mp allowed).1
          revert complete
          cases fetched.completion <;> simp [SourceCompletion.allowsCheckpoint]
        · rwa [same] at succeeds
      · rw [(writeCheckpoint_spec writing).2.2.2.2 source policy trade scope]
        exact .inl (same source policy trade)
    · simp only [pure_eq_ok, Prod.mk.injEq] at committed
      rw [← committed.2.2]
      exact .inl (same source policy trade)
  · simp only [pure_eq_ok, Prod.mk.injEq] at committed
    rw [← committed.2.2]
    exact .inl (same source policy trade)

/-- A complete result whose greatest admitted event has the cursor. -/
def FetchedSource.Completes {trade : TradeId} (fetched : FetchedSource trade)
    (cursor : SourceCursor) : Prop :=
  fetched.completion = .complete ∧
    SourceCursor.Greatest (fetched.admitted.map (·.event.cursor)) cursor

/-- A complete replay whose greatest admitted event has the cursor. -/
def SourceReplay.Completes (replay : SourceReplay) (cursor : SourceCursor) : Prop :=
  replay.result.outcome = .complete ∧ SourceCursor.Greatest (replay.facts.map (·.cursor)) cursor

/-- The call commits a complete result of the scope whose greatest admitted event has the
cursor. -/
def CheckpointMove.Completes (move : CheckpointMove) (source : SourceId)
    (policy : EvidencePolicyDigest) (trade : TradeId) (cursor : SourceCursor) : Prop :=
  match move with
  | .fetched _ configured attempt traded _ answers =>
      configured.sourceId = source ∧ configured.policy = policy ∧ traded = trade ∧
        (fetchSource configured attempt traded answers).Completes cursor
  | .delivered _ configured _ _ admitted =>
      configured.sourceId = source ∧ configured.policy = policy ∧
        admitted.event.tradeId = trade ∧ (subscribedResult admitted).Completes cursor
  | .replays _ _ _ plan finished =>
      ∃ entry ∈ finished, entry.replay.plan.sourceId = source ∧ plan.policyDigest = policy ∧
        entry.replay.plan.tradeId = trade ∧ entry.replay.Completes cursor

omit [Sha256] [TradeEvidence] in
theorem completes_of_eligible (entry : FinishedReplay) {cursor : SourceCursor}
    (eligible : entry.replay.eligibleCursor = some cursor) : entry.replay.Completes cursor := by
  rcases entry.finished with ⟨request, outcome, startedAt, finishedAt, events, done⟩
  have finishes := finish_spec done
  unfold SourceReplay.eligibleCursor at eligible
  split at eligible
  · rename_i complete
    have candidate : cursor ∈ entry.replay.cursorCandidate :=
      (Option.filter_eq_some_iff.mp eligible).1
    refine ⟨complete, ?_, ?_⟩
    · rcases finishes.cursor_mem cursor candidate with ⟨fact, factMem, rfl⟩
      exact List.mem_map_of_mem factMem
    · intro other otherMem
      rcases List.mem_map.mp otherMem with ⟨fact, factMem, rfl⟩
      exact finishes.cursor_max cursor candidate fact factMem
  · cases eligible

omit [Sha256] [TradeEvidence] in
/-- What a transaction of a result leaves of a checkpoint. -/
theorem commitSourceResult_moves (disposition : Disposition) {configured : SourceId}
    {digest : EvidencePolicyDigest} {traded : TradeId} {observedAt : ObservedAt}
    {initial : InitialState} {fetched : FetchedSource traded} (store : Store)
    (greatest : ∀ cursor ∈ fetched.cursorCandidate,
      SourceCursor.Greatest (fetched.admitted.map (·.event.cursor)) cursor)
    (source : SourceId) (policy : EvidencePolicyDigest) (trade : TradeId) :
    readCheckpoint (commitSourceResult disposition configured digest observedAt initial fetched
        store).2 source policy trade = readCheckpoint store source policy trade ∨
      ∃ new, readCheckpoint (commitSourceResult disposition configured digest observedAt initial
          fetched store).2 source policy trade = some new ∧
        new.Succeeds (readCheckpoint store source policy trade) ∧
        configured = source ∧ digest = policy ∧ traded = trade ∧ fetched.Completes new.cursor := by
  unfold commitSourceResult
  rcases transaction_store mapIngestError disposition
    (commitSource configured digest observedAt initial fetched) store with
    same | ⟨outcome, next, done, same⟩
  · exact .inl (by rw [same])
  · rw [same]
    rcases commitSource_moves done source policy trade with
      kept | ⟨rfl, rfl, rfl, complete, new, read, candidate, succeeds⟩
    · exact .inl kept
    · exact .inr ⟨new, read, succeeds, rfl, rfl, rfl, complete, greatest _ candidate⟩

theorem commitSourceReplays_moves (mode : HostMode) (disposition : Disposition) (lease : Lease)
    (plan : AttemptPlan) (sealed : List SealedReplay) (store : Store)
    (source : SourceId) (policy : EvidencePolicyDigest) (trade : TradeId) :
    readCheckpoint (commitSourceReplays mode disposition lease plan sealed store).2 source policy
        trade = readCheckpoint store source policy trade ∨
      MovedBy plan (sealed.map (·.replay)) store
        (commitSourceReplays mode disposition lease plan sealed store).2 source policy trade := by
  unfold commitSourceReplays
  dsimp only
  split
  · exact .inl rfl
  · split
    · split
      · exact .inl rfl
      · rcases transaction_store mapCommitError disposition
          (commitAttempt lease plan (sealed.map (·.replay))) store with
          same | ⟨outcome, next, done, same⟩
        · exact .inl (by rw [same])
        · rw [same]
          exact commitAttempt_moves done source policy trade
    · exact .inl rfl

/-- A call leaves a checkpoint alone, or moves it to the greatest admitted event of a complete
result. -/
theorem apply_moves (move : CheckpointMove) (store : Store) (source : SourceId)
    (policy : EvidencePolicyDigest) (trade : TradeId) :
    readCheckpoint (move.apply store) source policy trade =
        readCheckpoint store source policy trade ∨
      ∃ new, readCheckpoint (move.apply store) source policy trade = some new ∧
        new.Succeeds (readCheckpoint store source policy trade) ∧
        move.Completes source policy trade new.cursor := by
  cases move with
  | fetched disposition configured attempt traded initial answers =>
      exact commitSourceResult_moves disposition store (fetchSource_greatest _ _ _ _) source policy
        trade
  | delivered disposition configured attempt initial admitted =>
      refine commitSourceResult_moves disposition store ?_ source policy trade
      intro cursor isCandidate
      cases isCandidate
      simp [SourceCursor.Greatest, subscribedResult, SourceCursor.lt_irrefl]
  | replays mode disposition lease plan finished =>
      rcases commitSourceReplays_moves mode disposition lease plan
        (finished.map (·.toSealedReplay)) store source policy trade with
        same | ⟨replay, replayMem, isSource, isPolicy, isTrade, new, read, eligible, succeeds⟩
      · exact .inl same
      · simp only [List.map_map, List.mem_map, Function.comp_apply] at replayMem
        rcases replayMem with ⟨entry, entryMem, rfl⟩
        exact .inr ⟨new, read, succeeds, entry, entryMem, isSource, isPolicy, isTrade,
          completes_of_eligible entry eligible⟩

/-- The call selects the cursor for the checkpoint that is stored: beyond it, in a complete
result. -/
def CheckpointMove.Selects (move : CheckpointMove) (store : Store) (source : SourceId)
    (policy : EvidencePolicyDigest) (trade : TradeId) (cursor : SourceCursor)
    (completedAt : Nat) : Prop :=
  match move with
  | .fetched _ configured attempt traded _ answers =>
      (fetchSource configured attempt traded answers).completion = .complete ∧
        (fetchSource configured attempt traded answers).cursorCandidate = some cursor ∧
        advancesCheckpoint (readCheckpoint store source policy trade) cursor = true ∧
        completedAt = attempt.observedAt.get
  | .delivered _ _ attempt _ admitted =>
      (subscribedResult admitted).cursorCandidate = some cursor ∧
        advancesCheckpoint (readCheckpoint store source policy trade) cursor = true ∧
        completedAt = attempt.observedAt.get
  | .replays _ _ lease plan finished =>
      admitsReplays lease plan (finished.map (·.replay)) = true ∧
        ∃ entry ∈ finished, entry.replay.eligibleCursor = some cursor ∧
          (readCheckpoint store source policy trade).map (·.cursor) =
            entry.replay.plan.priorCursor ∧
          completedAt = entry.replay.result.finishedAt / 1000

omit [Sha256] [TradeEvidence] in
theorem advancesCheckpoint_spec {current : Option CheckpointRow} {cursor : SourceCursor}
    (advances : advancesCheckpoint current cursor = true) :
    ∀ row ∈ current, row.cursor.lt cursor = true := by
  rintro row ⟨⟩
  exact advances

omit [Sha256] [TradeEvidence] in
/-- The times of a replay that is committed fit the columns of the checkpoint it moves. -/
theorem finished_of_admitsReplays {lease : Lease} {plan : AttemptPlan}
    {replays : List SourceReplay} (admitted : admitsReplays lease plan replays = true)
    {replay : SourceReplay} (replayMem : replay ∈ replays) {cursor : SourceCursor}
    (eligible : replay.eligibleCursor = some cursor) :
    1 ≤ replay.result.finishedAt / 1000 ∧ replay.result.finishedAt / 1000 ≤ maxInteger := by
  simp only [admitsReplays, Bool.and_eq_true, beq_iff_eq] at admitted
  rcases admitted with ⟨⟨⟨⟨⟨sameLength, -⟩, -⟩, -⟩, -⟩, matched⟩
  rw [← List.map_fst_zip sameLength.le] at replayMem
  rcases List.mem_map.mp replayMem with ⟨pair, pairMem, rfl⟩
  have agrees := List.all_eq_true.mp matched pair pairMem
  simp only [replayMatches, Bool.and_eq_true, decide_eq_true_eq] at agrees
  rcases agrees with ⟨⟨⟨-, early⟩, -⟩, started⟩
  have bounded := lease.leaseExpires.bounded
  simp only [eligible, Option.isSome_some, Bool.true_and, Bool.not_eq_true', beq_eq_false_iff_ne,
    ne_eq] at started
  omega

omit [Sha256] [TradeEvidence] in
/-- A selected cursor and its time fit the columns they are bound to, and the cursor lies beyond
the stored one. -/
theorem selects_spec {move : CheckpointMove} {store : Store} {source : SourceId}
    {policy : EvidencePolicyDigest} {trade : TradeId} {cursor : SourceCursor} {completedAt : Nat}
    (selects : move.Selects store source policy trade cursor completedAt) :
    cursor.createdAt ≤ maxInteger ∧ (1 ≤ completedAt ∧ completedAt ≤ maxInteger) ∧
      ∀ row ∈ readCheckpoint store source policy trade, row.cursor.lt cursor = true := by
  cases move with
  | fetched disposition configured attempt traded initial answers =>
      rcases selects with ⟨-, candidate, advances, rfl⟩
      have member := (fetchSource_greatest configured attempt traded answers cursor candidate).1
      rcases List.mem_map.mp member with ⟨event, -, rfl⟩
      exact ⟨event.authored_le, ⟨attempt.observedAt.positive, attempt.observedAt.bounded⟩,
        advancesCheckpoint_spec advances⟩
  | delivered disposition configured attempt initial admitted =>
      rcases selects with ⟨candidate, advances, rfl⟩
      cases candidate
      exact ⟨admitted.authored_le, ⟨attempt.observedAt.positive, attempt.observedAt.bounded⟩,
        advancesCheckpoint_spec advances⟩
  | replays mode disposition lease plan finished =>
      rcases selects with ⟨admitted, entry, entryMem, eligible, unmoved, rfl⟩
      refine ⟨?_, finished_of_admitsReplays admitted (List.mem_map_of_mem entryMem) eligible, ?_⟩
      · have member := (completes_of_eligible entry eligible).2.1
        rcases List.mem_map.mp member with ⟨fact, factMem, rfl⟩
        rcases entry.finished with ⟨request, outcome, startedAt, finishedAt, events, done⟩
        rcases (finish_spec done).facts fact factMem with ⟨event, -, rfl⟩
        exact event.authored_le
      · intro row rowMem
        rw [Option.mem_def.mp rowMem, Option.map_some] at unmoved
        unfold SourceReplay.eligibleCursor at eligible
        split at eligible
        · have beyond := (Option.filter_eq_some_iff.mp eligible).2
          simpa [← unmoved] using beyond
        · cases eligible

/-- How checkpoints move from a store on. -/
structure CheckpointsMonotone (store : Store) : Prop where
  /-- A checkpoint moves to a greater cursor and the next revision, in a complete result of which
  the cursor is the greatest admitted event. -/
  moves : ∀ (move : CheckpointMove) (source : SourceId) (policy : EvidencePolicyDigest)
    (trade : TradeId), readCheckpoint (move.apply store) source policy trade =
        readCheckpoint store source policy trade ∨
      ∃ new, readCheckpoint (move.apply store) source policy trade = some new ∧
        new.Succeeds (readCheckpoint store source policy trade) ∧
        move.Completes source policy trade new.cursor
  /-- A selected move is written while times do not decrease and revisions are left. -/
  writes : ∀ (move : CheckpointMove) (source : SourceId) (policy : EvidencePolicyDigest)
    (trade : TradeId) (cursor : SourceCursor) (completedAt : Nat),
    move.Selects store source policy trade cursor completedAt →
    (∀ row ∈ readCheckpoint store source policy trade,
      row.completedAt ≤ completedAt ∧ row.revision < maxInteger) →
    ∃ next, writeCheckpoint source policy trade (readCheckpoint store source policy trade) cursor
      completedAt store = .ok next
  /-- A failed commit whose outcome is known leaves everything unchanged. -/
  failedResult : ∀ (disposition : Disposition) (source : SourceId) (policy : EvidencePolicyDigest)
    (trade : TradeId) (observedAt : ObservedAt) (initial : InitialState)
    (fetched : FetchedSource trade) (error : IngestErrorKind),
    (commitSourceResult disposition source policy observedAt initial fetched store).1 =
      .error error → error ≠ .commitOutcomeUnknown →
    (commitSourceResult disposition source policy observedAt initial fetched store).2 = store
  failedReplays : ∀ (mode : HostMode) (disposition : Disposition) (lease : Lease)
    (plan : AttemptPlan) (sealed : List SealedReplay) (error : CommitErrorKind),
    (commitSourceReplays mode disposition lease plan sealed store).1 = .error error →
    error ≠ .commitOutcomeUnknown →
    (commitSourceReplays mode disposition lease plan sealed store).2 = store

/-- After every run checkpoints move forward, by the order the program and the trigger share. -/
theorem checkpoints_monotone (moves : List CheckpointMove) (store : Store) :
    CheckpointsMonotone (Transition.exec CheckpointMove.apply moves store) ∧
      ∀ (old : CheckpointRow) (cursor : SourceCursor) (completedAt : Nat),
        old.completedAt ≤ completedAt →
        (compareCursor old.cursor cursor = .lt ↔
          checkpointGuardFires old ((updateCheckpoint old.sourceId old.evidencePolicy old.tradeId
            old.revision cursor completedAt).write old) = false) := by
  refine ⟨⟨fun move => apply_moves move _, ?_, ?_, ?_⟩, ?_⟩
  · intro move source policy trade cursor completedAt selects room
    rcases selects_spec selects with ⟨small, ⟨positive, bounded⟩, beyond⟩
    refine writeCheckpoint_total ⟨completedAt, positive, bounded⟩ small ?_
    intro row rowMem
    exact ⟨beyond row rowMem, room row rowMem⟩
  · intro disposition source policy trade observedAt initial fetched error failed known
    exact transaction_store_of_error failed known
  · intro mode disposition lease plan sealed error failed known
    exact commitSourceReplays_of_error failed known
  · intro old cursor completedAt ordered
    rw [compareCursor_eq_lt, ← Bool.not_eq_true', ← guardUpdate_eq]
    simp [relayCheckpoints, updateCheckpoint, CheckpointRow.sameScope, ordered]

end Moves

section Exceptions

namespace Sample

/-- The checkpoint of the proposal with the last revision. -/
def lastCheckpoint : CheckpointRow :=
  ⟨source, policy, trade, proposal.event.cursor, maxInteger, proposal.observedAt.get⟩

def lastCheckpointStore : Store :=
  { Store.initial with checkpoints := ⟨[lastCheckpoint], by decide, by decide⟩ }

/-- The proposal delivered without acknowledgement: the commit fails with its outcome unknown, and
the checkpoint has moved.  A checkpoint with the last revision refuses a selected move. -/
theorem unacknowledged_ingest_moves_checkpoint :
    (commitSourceResult (.unacknowledged true) source policy proposal.observedAt ⟨none, none⟩
      (subscribedResult proposal) Store.initial).1 = .error .commitOutcomeUnknown ∧
    readCheckpoint Store.initial source policy trade = none ∧
    readCheckpoint (commitSourceResult (.unacknowledged true) source policy proposal.observedAt
      ⟨none, none⟩ (subscribedResult proposal) Store.initial).2 source policy trade =
        some ⟨source, policy, trade, proposal.event.cursor, 1, proposal.observedAt.get⟩ ∧
    readCheckpoint lastCheckpointStore source policy trade = some lastCheckpoint ∧
    advancesCheckpoint (some lastCheckpoint) ⟨1000001, 0x77#256⟩ = true ∧
    writeCheckpoint source policy trade (some lastCheckpoint) ⟨1000001, 0x77#256⟩ 1000001
      lastCheckpointStore = .error .storage := by
  decide +kernel

end Sample

end Exceptions

end Rhi
