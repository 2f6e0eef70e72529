import Rhi.Publication
import Rhi.Finalization.Durable

/-!
# Effects of the publication executor

What the executor and the operator do to an outbox, its targets and its log of attempts.  Each of
their transactions touches one outbox; `Snapshot.Step` says everything it can do to it.
-/

namespace Rhi

open Relational Transactional

namespace Publication

section Snapshots

/-- An outbox with its targets and the attempts recorded for them. -/
structure Snapshot where
  row : OutboxRow
  targets : List TargetRow
  deliveries : List DeliveryRow

def outboxRow (id : Digest) (store : Store) : Option OutboxRow :=
  store.outbox.rows.find? fun row => row.outboxId == id

def targetsOf (id : Digest) (store : Store) : List TargetRow :=
  store.targets.rows.filter fun row => row.outboxId == id

def deliveriesOf (id : Digest) (store : Store) : List DeliveryRow :=
  store.deliveries.rows.filter fun row => row.outboxId == id

/-- What the store holds under the identity of an outbox. -/
def contents (id : Digest) (store : Store) : Option OutboxRow × List TargetRow × List DeliveryRow :=
  (outboxRow id store, targetsOf id store, deliveriesOf id store)

def snapshot (id : Digest) (store : Store) : Option Snapshot :=
  (outboxRow id store).map fun row => ⟨row, targetsOf id store, deliveriesOf id store⟩

theorem snapshot_congr {id : Digest} {before after : Store}
    (same : contents id after = contents id before) : snapshot id after = snapshot id before := by
  simp only [contents, Prod.mk.injEq] at same
  unfold snapshot
  rw [same.1, same.2.1, same.2.2]

/-- The executor writes three tables, and these for one outbox only. -/
structure Touched (id : Digest) (before after : Store) : Prop where
  only : after = { before with
    outbox := after.outbox, targets := after.targets, deliveries := after.deliveries }
  others : ∀ other, other ≠ id → contents other after = contents other before

theorem Touched.refl (id : Digest) (store : Store) : Touched id store store :=
  ⟨rfl, fun _ _ => rfl⟩

theorem Touched.trans {id : Digest} {first second third : Store} (left : Touched id first second)
    (right : Touched id second third) : Touched id first third where
  only := by rw [right.only, left.only]
  others other different := (right.others other different).trans (left.others other different)

theorem publicationOutbox_clash_comm (left right : OutboxRow) :
    publicationOutbox.clash left right = publicationOutbox.clash right left := by
  simp [publicationOutbox, Bool.beq_comm]

theorem publicationTargets_clash_comm (left right : TargetRow) :
    publicationTargets.clash left right = publicationTargets.clash right left := by
  simp [publicationTargets, Bool.beq_comm]

theorem outboxRow_of_mem {store : Store} {row : OutboxRow} (rowMem : row ∈ store.outbox.rows) :
    outboxRow row.outboxId store = some row := by
  cases found : outboxRow row.outboxId store with
  | none =>
      have missed := List.find?_eq_none.mp found row rowMem
      simp at missed
  | some stored =>
      have same : stored.outboxId = row.outboxId := by simpa using List.find?_some found
      rw [Table.eq_of_clash publicationOutbox_clash_comm (List.mem_of_find?_eq_some found) rowMem
        (by simp [publicationOutbox, same])]

theorem outboxRow_spec {id : Digest} {store : Store} {row : OutboxRow}
    (found : outboxRow id store = some row) : row ∈ store.outbox.rows ∧ row.outboxId = id := by
  refine ⟨List.mem_of_find?_eq_some found, ?_⟩
  simpa using List.find?_some found

theorem snapshot_eq_some {id : Digest} {store : Store} {current : Snapshot} :
    snapshot id store = some current ↔ outboxRow id store = some current.row ∧
      targetsOf id store = current.targets ∧ deliveriesOf id store = current.deliveries := by
  unfold snapshot
  rw [Option.map_eq_some_iff]
  constructor
  · rintro ⟨row, found, rfl⟩
    exact ⟨found, rfl, rfl⟩
  · rintro ⟨found, targets, deliveries⟩
    exact ⟨current.row, found, by rw [targets, deliveries]⟩

end Snapshots

section Statements

theorem updateOutbox_spec {store next : Store} {change : Change OutboxRow} {affected : Nat}
    (updated : store.updateOutbox change = .ok (affected, next)) :
    ∃ outbox, store.outbox.update change = some (outbox, affected) ∧
      next = { store with outbox } := by
  simp only [Store.updateOutbox, bind_eq_ok, orError_eq_ok, pure_eq_ok] at updated
  rcases updated with ⟨⟨outbox, count⟩, result, same⟩
  cases same
  exact ⟨outbox, result, rfl⟩

theorem updateTargets_spec {store next : Store} {change : Change TargetRow} {affected : Nat}
    (updated : store.updateTargets change = .ok (affected, next)) :
    ∃ targets, store.targets.update change = some (targets, affected) ∧
      next = { store with targets } := by
  simp only [Store.updateTargets, bind_eq_ok, orError_eq_ok, pure_eq_ok] at updated
  rcases updated with ⟨⟨targets, count⟩, result, same⟩
  cases same
  exact ⟨targets, result, rfl⟩

/-- A statement on the row of one outbox rewrites this row and touches no other outbox. -/
theorem snapshot_of_outbox {store : Store} {change : Change OutboxRow} {id : Digest}
    {outbox : Table publicationOutbox} {affected : Nat}
    (updated : store.outbox.update change = some (outbox, affected))
    (single : (affected == 1) = true) (named : ∀ row, change.selects row = true → row.outboxId = id)
    (kept : ∀ row, (change.write row).outboxId = row.outboxId) :
    Touched id store { store with outbox } ∧ ∃ row, outboxRow id store = some row ∧
      change.selects row = true ∧ publicationOutbox.guardUpdate row (change.write row) = true ∧
      snapshot id { store with outbox } =
        some ⟨change.write row, targetsOf id store, deliveriesOf id store⟩ := by
  rcases Table.update_spec updated with ⟨rows, counted, accepted⟩
  have found : ∀ other, outboxRow other { store with outbox } =
      (outboxRow other store).map (Table.rewrite change) := by
    intro other
    unfold outboxRow
    rw [rows, Table.find?_map_rewrite]
    intro row
    rw [kept]
  rw [counted] at single
  rcases Table.exists_of_countP_eq_one single with ⟨row, rowMem, selected⟩
  have stored : outboxRow id store = some row := by
    rw [← named row selected]
    exact outboxRow_of_mem rowMem
  refine ⟨⟨rfl, ?_⟩, row, stored, selected, (accepted row rowMem selected).2, ?_⟩
  · intro other different
    refine congrArg (·, targetsOf other store, deliveriesOf other store) ((found other).trans ?_)
    cases present : outboxRow other store with
    | none => rfl
    | some stored =>
        have skipped : change.selects stored = false := by
          cases chosen : change.selects stored with
          | false => rfl
          | true =>
              have same := named stored chosen
              rw [(outboxRow_spec present).2] at same
              exact absurd same different
        simp only [Option.map_some, Table.rewrite_of_not_selects skipped]
  · unfold snapshot
    rw [found, stored, Option.map_some, Table.rewrite_of_selects selected]
    rfl

/-- A statement on the targets of one outbox touches no other outbox. -/
theorem touched_of_targets {store : Store} {change : Change TargetRow} {id : Digest}
    {targets : Table publicationTargets} {affected : Nat}
    (updated : store.targets.update change = some (targets, affected))
    (named : ∀ row, change.selects row = true → row.outboxId = id)
    (kept : ∀ row, (change.write row).outboxId = row.outboxId) :
    Touched id store { store with targets } ∧
      targetsOf id { store with targets } = (targetsOf id store).map (Table.rewrite change) := by
  rcases Table.update_spec updated with ⟨rows, -, -⟩
  have selected : ∀ other, targetsOf other { store with targets } =
      (targetsOf other store).map (Table.rewrite change) := by
    intro other
    unfold targetsOf
    rw [rows, Table.filter_map_rewrite]
    intro row
    rw [kept]
  refine ⟨⟨rfl, ?_⟩, selected id⟩
  intro other different
  unfold contents
  rw [selected, Table.map_rewrite_of_skipped]
  · rfl
  · intro row rowMem
    cases chosen : change.selects row with
    | false => rfl
    | true =>
        have same : row.outboxId = other := by simpa [targetsOf] using (List.mem_filter.mp rowMem).2
        exact absurd (same.symm.trans (named row chosen)) different

/-- A statement on one target exchanges this target. -/
theorem exchange_of_target {store : Store} {change : Change TargetRow} {id : Digest} {ordinal : Nat}
    {targets : Table publicationTargets} {affected : Nat}
    (updated : store.targets.update change = some (targets, affected))
    (single : (affected == 1) = true)
    (named : ∀ row, change.selects row = true → row.outboxId = id ∧ row.targetOrdinal = ordinal)
    (kept : ∀ row, (change.write row).outboxId = row.outboxId) :
    Touched id store { store with targets } ∧ ∃ old ∈ targetsOf id store,
      change.selects old = true ∧ publicationTargets.check (change.write old) = true ∧
      targetsOf id { store with targets } =
        exchange old (change.write old) (targetsOf id store) := by
  rcases touched_of_targets updated (fun row selected => (named row selected).1) kept with
    ⟨touched, rewritten⟩
  rcases Table.update_spec updated with ⟨-, counted, accepted⟩
  rw [counted] at single
  rcases Table.exists_of_countP_eq_one single with ⟨old, oldMem, selected⟩
  have oldOf : old ∈ targetsOf id store := by
    unfold targetsOf
    simp [oldMem, (named old selected).1]
  refine ⟨touched, old, oldOf, selected, (accepted old oldMem selected).1, ?_⟩
  rw [rewritten, map_rewrite_eq_exchange selected]
  intro target targetMem chosen
  refine Table.eq_of_clash publicationTargets_clash_comm (List.mem_filter.mp targetMem).1 oldMem ?_
  rcases named target chosen with ⟨sameOutbox, sameOrdinal⟩
  rcases named old selected with ⟨oldOutbox, oldOrdinal⟩
  simp [publicationTargets, sameOutbox, sameOrdinal, oldOutbox, oldOrdinal]

end Statements

section Steps

variable [Sha256]

/-- What the transactions of the executor and the operator do to an outbox. -/
inductive Action where
  | claim
  | prepare
  | record
  | recover
  | retry
deriving DecidableEq, Repr

namespace Snapshot

def claim (owner : LeaseOwner) (expires now : Nat) (current : Snapshot) : Snapshot :=
  { current with
    row := (claimOutbox owner expires now current.row.outboxId current.row.revision).write
      current.row }

def prepare (attemptId : Digest) (now : Nat) (old : TargetRow) (current : Snapshot) : Snapshot :=
  { current with
    targets := exchange old ((prepareTarget attemptId now old.outboxId old.targetOrdinal
      old.revision current.row.maxAttempts).write old) current.targets }

def settle (input : RecordInput) (state : TargetState) (next : Option Nat) (old : TargetRow)
    (current : Snapshot) : Snapshot :=
  { current with
    targets := exchange old ((recordTarget state next input.finishedAt input).write old)
      current.targets
    deliveries := current.deliveries ++ [input.row] }

def release (verdict : Verdict) (now : Nat) (current : Snapshot) : Snapshot :=
  { current with
    row := { current.row with
      state := verdict.outboxState.1, revision := current.row.revision + 1
      nextAttempt := verdict.outboxState.2, leaseOwner := none, leaseExpires := none
      updatedAt := now } }

def retry (now : Nat) (current : Snapshot) : Snapshot where
  row := (retryOutbox current.row.outboxId current.row.revision now).write current.row
  targets := current.targets.map (Table.rewrite (retryTargets current.row.outboxId now))
  deliveries := current.deliveries

/-- An outcome is recorded for the submitted target it belongs to. -/
structure Settles (input : RecordInput) (state : TargetState) (next : Option Nat)
    (old : TargetRow) (current : Snapshot) : Prop where
  mem : old ∈ current.targets
  submitted : old.state = .submitted
  outbox : input.lease.outbox.id = current.row.outboxId
  ordinal : old.targetOrdinal = input.targetOrdinal
  number : old.attemptCount = input.attemptNumber
  identity : old.lastAttemptId = some input.attemptId
  scheduled : ∃ bound, outcomeSchedule current.row.maxAttempts bound input.attemptNumber
    input.finishedAt input.retryDelay input.outcome = some (state, next)
  fresh : ∀ stored ∈ current.deliveries, publicationAttempts.clash stored input.row = false

/-- The submitted targets of an expired lease become unknown, one after the other. -/
inductive Recovers (now : Nat) : List TargetRow → Snapshot → Snapshot → Prop where
  | nil (current : Snapshot) : Recovers now [] current current
  | cons {target old : TargetRow} {rest : List TargetRow} {current last : Snapshot}
      {input : RecordInput} {state : TargetState} {next : Option Nat}
      (same : old.targetOrdinal = target.targetOrdinal) (outcome : input.outcome = .unknown)
      (finished : input.finishedAt = now) (settles : current.Settles input state next old)
      (others : Recovers now rest (current.settle input state next old) last) :
      Recovers now (target :: rest) current last

/-- Everything an action can do to its outbox. -/
inductive Step : Action → Snapshot → Snapshot → Prop where
  | claim {current : Snapshot} {owner : LeaseOwner} {expires now next : Nat}
      (pending : current.row.state = .pending) (scheduled : current.row.nextAttempt = some next)
      (due : next ≤ now) (forward : current.row.updatedAt ≤ now) :
      Step .claim current (current.claim owner expires now)
  | prepare {current : Snapshot} {attemptId : Digest} {now expires : Nat} {old : TargetRow}
      (leased : current.row.state = .leased) (expiry : current.row.leaseExpires = some expires)
      (early : now < expires) (oldMem : old ∈ current.targets)
      (due : old.isDue current.row.maxAttempts now = true)
      (identity : attemptId = deriveAttemptId current.row.outboxId current.row.eventDigest
        old.targetOrdinal (old.attemptCount + 1)) :
      Step .prepare current (current.prepare attemptId now old)
  | record {current : Snapshot} {input : RecordInput} {state : TargetState} {next : Option Nat}
      {old : TargetRow} {decided : Verdict} (leased : current.row.state = .leased)
      (forward : current.row.updatedAt ≤ input.finishedAt)
      (settles : current.Settles input state next old)
      (decides : verdict current.row.maxAttempts (current.settle input state next old).targets =
        some decided) :
      Step .record current ((current.settle input state next old).release decided input.finishedAt)
  | recover {current last : Snapshot} {now : Nat} {decided : Verdict}
      (leased : current.row.state = .leased) (forward : current.row.updatedAt ≤ now)
      (recovers : Recovers now (current.targets.filter fun target => target.state == .submitted)
        current last)
      (decides : verdict current.row.maxAttempts last.targets = some decided) :
      Step .recover current (last.release decided now)
  | retry {current : Snapshot} {now : Nat} (blocked : current.row.state = .blocked)
      (forward : current.row.updatedAt ≤ now) : Step .retry current (current.retry now)

end Snapshot

/-- A transaction took one step of one outbox. -/
structure Stepped (action : Action) (id : Digest) (before after : Store) (current next : Snapshot) :
    Prop where
  touched : Touched id before after
  before : snapshot id before = some current
  after : snapshot id after = some next
  step : Snapshot.Step action current next

end Steps

section Reading

theorem readOutbox_spec {id : Digest} {store : Store} {record : OutboxRecord}
    (read : readOutbox id store = .ok (some record)) :
    ∃ row owner, outboxRow id store = some row ∧ decodeOwner row.leaseOwner = .ok owner ∧
      record = row.record owner := by
  unfold readOutbox at read
  split at read
  · cases read
  · rename_i row found
    simp only [decodeOutbox, bind_eq_ok, pure_eq_ok, Option.some.injEq] at read
    rcases read with ⟨_, ⟨owner, decoded, rfl⟩, rfl⟩
    exact ⟨row, owner, found, decoded, rfl⟩

theorem decodeOwner_spec {column : Option (BitVec 128)} {owner : Option LeaseOwner}
    (decoded : decodeOwner column = .ok owner) : column = owner.map (·.bytes) := by
  cases column with
  | none =>
      cases decoded
      rfl
  | some bytes =>
      simp only [decodeOwner, bind_eq_ok, orError_eq_ok, pure_eq_ok] at decoded
      rcases decoded with ⟨owner, made, rfl⟩
      rw [Option.map_some, bytes_of_fromBytes made]

/-- A lease value is the current row of its outbox. -/
structure Held (lease : PublicationLease) (row : OutboxRow) : Prop where
  outbox : lease.outbox = row.record (some lease.owner)
  owner : row.leaseOwner = some lease.owner.bytes
  leased : row.state = .leased
  expires : row.leaseExpires = some lease.expiresAt

theorem Held.id {lease : PublicationLease} {row : OutboxRow} (held : Held lease row) :
    lease.outbox.id = row.outboxId := by
  rw [held.outbox]
  rfl

theorem Held.maxAttempts {lease : PublicationLease} {row : OutboxRow} (held : Held lease row) :
    lease.outbox.maxAttempts = row.maxAttempts := by
  rw [held.outbox]
  rfl

theorem validateLease_spec {lease : PublicationLease} {now : Nat} {store : Store} {done : Unit}
    (valid : validateLease lease now store = .ok done) :
    now < lease.expiresAt ∧ ∃ row, outboxRow lease.outbox.id store = some row ∧ Held lease row := by
  simp only [validateLease, bind_eq_ok, require_eq_ok, Bool.and_eq_true, beq_iff_eq,
    decide_eq_true_eq] at valid
  rcases valid with ⟨_, read, -, rfl, ⟨⟨leased, owned⟩, expires⟩, early⟩
  rcases readOutbox_spec read with ⟨row, owner, found, decoded, same⟩
  rw [same] at leased owned expires
  have sameOwner : owner = some lease.owner := owned
  refine ⟨early, row, found, ⟨by rw [same, sameOwner], ?_, leased, expires⟩⟩
  rw [decodeOwner_spec decoded, sameOwner]
  rfl

/-- The inventory of an outbox is stored in the order of its ordinals. -/
def Sorted (targets : List TargetRow) : Prop :=
  targets.Pairwise TargetRow.before ∧ targets.length ≤ publicationMaxTargets

theorem Sorted.exchange {old new : TargetRow} {targets : List TargetRow} (sorted : Sorted targets)
    (same : new.targetOrdinal = old.targetOrdinal) : Sorted (exchange old new targets) := by
  constructor
  · have ordinals := map_exchange targets TargetRow.targetOrdinal same
    have before : (targets.map TargetRow.targetOrdinal).Pairwise (· ≤ ·) :=
      List.pairwise_map.mpr sorted.1
    rw [← ordinals, List.pairwise_map] at before
    exact before
  · have lengths := congrArg List.length (map_exchange targets TargetRow.targetOrdinal same)
    simp only [List.length_map] at lengths
    rw [lengths]
    exact sorted.2

theorem Snapshot.Recovers.sorted {now : Nat} {submitted : List TargetRow} {current last : Snapshot}
    (recovers : Recovers now submitted current last) (sorted : Sorted current.targets) :
    Sorted last.targets := by
  induction recovers with
  | nil current => exact sorted
  | cons same outcome finished settles others ih => exact ih (sorted.exchange rfl)

theorem Snapshot.Recovers.row_eq {now : Nat} {submitted : List TargetRow} {current last : Snapshot}
    (recovers : Recovers now submitted current last) : last.row = current.row := by
  induction recovers with
  | nil current => rfl
  | cons same outcome finished settles others ih => exact ih

theorem readTargets_eq_filter {id : Digest} {rows : List TargetRow}
    (sorted : Sorted (rows.filter fun row => row.outboxId == id)) :
    readTargets id rows = rows.filter fun row => row.outboxId == id := by
  unfold readTargets
  rw [sorted.1.insertionSort_eq]
  apply List.take_of_length_le
  have length := sorted.2
  unfold publicationMaxTargets at length
  omega

theorem readTargets_of_sorted {id : Digest} {store : Store} (sorted : Sorted (targetsOf id store)) :
    readTargets id store.targets.rows = targetsOf id store :=
  readTargets_eq_filter sorted

theorem mem_targetsOf_of_readTargets {id : Digest} {store : Store} {target : TargetRow}
    (targetMem : target ∈ readTargets id store.targets.rows) : target ∈ targetsOf id store := by
  have sorted := List.mem_of_mem_take targetMem
  rwa [List.mem_insertionSort] at sorted

theorem eq_of_ordinal {id : Digest} {store : Store} {left right : TargetRow}
    (leftMem : left ∈ targetsOf id store) (rightMem : right ∈ targetsOf id store)
    (same : left.targetOrdinal = right.targetOrdinal) : left = right := by
  rcases List.mem_filter.mp leftMem with ⟨leftStored, leftOutbox⟩
  rcases List.mem_filter.mp rightMem with ⟨rightStored, rightOutbox⟩
  simp only [beq_iff_eq] at leftOutbox rightOutbox
  exact Table.eq_of_clash publicationTargets_clash_comm leftStored rightStored
    (by simp [publicationTargets, leftOutbox, rightOutbox, same])

end Reading

section Transactions

theorem readClaimableOutbox_spec {now : Nat} {rows : List OutboxRow} {row : OutboxRow}
    (selected : readClaimableOutbox now rows = some row) :
    row ∈ rows ∧ row.state = .pending ∧ ∃ next, row.nextAttempt = some next ∧ next ≤ now := by
  have sorted := List.mem_of_mem_head? (Option.mem_def.mpr selected)
  rw [List.mem_insertionSort, List.mem_filter] at sorted
  rcases sorted with ⟨rowMem, due⟩
  simp only [Bool.and_eq_true, beq_iff_eq] at due
  rcases (Option.any_eq_true _ _).mp due.2 with ⟨next, scheduled, reached⟩
  exact ⟨rowMem, due.1, next, scheduled, by simpa using reached⟩

variable [Sha256]

theorem claimNext_none {owner : LeaseOwner} {now : UnixMilliseconds} {binding : AuthorityBinding}
    {store next : Store} (done : claimNext owner now binding store = .ok (none, next)) :
    next = store := by
  unfold claimNext at done
  split at done
  · cases done
    rfl
  · simp only [bind_eq_ok, pure_eq_ok, require_eq_ok, orError_eq_ok, Prod.mk.injEq, reduceCtorEq,
      false_and, and_false, exists_false] at done

/-- A claim leases the outbox it selected. -/
theorem claimNext_spec {owner : LeaseOwner} {now : UnixMilliseconds} {binding : AuthorityBinding}
    {store next : Store} {lease : PublicationLease}
    (done : claimNext owner now binding store = .ok (some lease, next)) :
    ∃ current, readClaimableOutbox now.get store.outbox.rows = some current.row ∧
      Stepped .claim lease.outbox.id store next current
        (current.claim owner (now.get + current.row.attemptDeadline) now.get) ∧
      Held lease (current.claim owner (now.get + current.row.attemptDeadline) now.get).row := by
  unfold claimNext at done
  split at done
  · cases done
  · rename_i row selected
    simp only [bind_eq_ok, pure_eq_ok, require_eq_ok, orError_eq_ok, Prod.mk.injEq,
      Option.some.injEq, decodeOutbox] at done
    rcases done with ⟨_, ⟨rowOwner, -, rfl⟩, -, -, -, -, -, -, ⟨affected, last⟩, updated, -, single,
      _, read, leased, rfl, -, shape, rfl, rfl⟩
    rcases updateOutbox_spec updated with ⟨outbox, result, rfl⟩
    rcases readClaimableOutbox_spec selected with ⟨rowMem, pending, scheduledAt, scheduled, due⟩
    have named : ∀ stored, (claimOutbox owner (now.get + row.attemptDeadline) now.get row.outboxId
        row.revision).selects stored = true →
          stored.outboxId = row.outboxId ∧ stored.updatedAt ≤ now.get := by
      intro stored chosen
      simp only [claimOutbox, Bool.and_eq_true, beq_iff_eq, decide_eq_true_eq] at chosen
      exact ⟨chosen.1.1.1.1, chosen.2⟩
    rcases snapshot_of_outbox result single (fun stored chosen => (named stored chosen).1)
      (fun _ => rfl) with ⟨touched, stored, found, chosen, -, after⟩
    have same : stored = row := by
      rw [outboxRow_of_mem rowMem] at found
      exact (Option.some.inj found).symm
    subst same
    rcases readOutbox_spec read with ⟨written, leaseOwner, rewritten, decoded, rfl⟩
    have isWritten := Option.some.inj (rewritten.symm.trans (snapshot_eq_some.mp after).1)
    simp only [Bool.and_eq_true, beq_iff_eq] at shape
    have sameOwner : leaseOwner = some owner := shape.1.2
    have sameId : (written.record leaseOwner).id = stored.outboxId := by
      rw [isWritten]
      rfl
    refine ⟨⟨stored, targetsOf stored.outboxId store, deliveriesOf stored.outboxId store⟩, selected,
      ⟨?_, ?_, ?_, .claim pending scheduled due (named stored chosen).2⟩, ⟨?_, rfl, rfl, rfl⟩⟩
    · rw [sameId]
      exact touched
    · rw [sameId]
      exact snapshot_eq_some.mpr ⟨found, rfl, rfl⟩
    · rw [sameId]
      exact after
    · rw [isWritten, sameOwner]
      rfl

/-- A preparation submits one due target of a leased outbox, and hands out the committed event. -/
theorem prepareNext_spec {lease : PublicationLease} {startedAt : UnixMilliseconds}
    {store next : Store} {prepared : PreparedAttempt}
    (done : prepareNext lease startedAt store = .ok (prepared, next)) :
    ∃ current old, Held lease current.row ∧
      Stepped .prepare lease.outbox.id store next current
        (current.prepare prepared.attemptId startedAt.get old) ∧
      prepared.lease = lease ∧ prepared.startedAt = startedAt ∧
      prepared.target = (prepareTarget prepared.attemptId startedAt.get old.outboxId
        old.targetOrdinal old.revision current.row.maxAttempts).write old ∧
      old ∈ current.targets ∧ old.updatedAt ≤ startedAt.get ∧
      readCommitted lease.outbox.id next = .ok prepared.publication := by
  simp only [prepareNext, bind_eq_ok, pure_eq_ok, require_eq_ok, orError_eq_ok,
    Prod.mk.injEq] at done
  rcases done with ⟨_, valid, _, -, candidate, selected, -, -, ⟨affected, last⟩, updated, -, single,
    target, found, -, shape, publication, committed, -, -, rfl, rfl⟩
  rcases validateLease_spec valid with ⟨early, row, stored, held⟩
  rcases updateTargets_spec updated with ⟨targets, result, rfl⟩
  have named : ∀ stored, (prepareTarget (deriveAttemptId lease.outbox.id lease.outbox.eventDigest
      candidate.targetOrdinal (candidate.attemptCount + 1)) startedAt.get lease.outbox.id
      candidate.targetOrdinal candidate.revision lease.outbox.maxAttempts).selects stored = true →
      (stored.outboxId = lease.outbox.id ∧ stored.targetOrdinal = candidate.targetOrdinal) ∧
        stored.updatedAt ≤ startedAt.get := by
    intro stored chosen
    simp only [prepareTarget, Bool.and_eq_true, beq_iff_eq, decide_eq_true_eq] at chosen
    exact ⟨chosen.1.1.1.1.1, chosen.2⟩
  rcases exchange_of_target result single (fun stored chosen => (named stored chosen).1)
    (fun _ => rfl) with ⟨touched, old, oldMem, chosen, -, exchanged⟩
  have candidateMem := mem_targetsOf_of_readTargets (List.mem_of_find?_eq_some selected)
  have sameOrdinal : candidate.targetOrdinal = old.targetOrdinal := (named old chosen).1.2.symm
  have same : candidate = old := eq_of_ordinal candidateMem oldMem sameOrdinal
  subst same
  have isDue := List.find?_some selected
  have writtenMem := @exchanged_mem candidate ((prepareTarget (deriveAttemptId lease.outbox.id
      lease.outbox.eventDigest candidate.targetOrdinal (candidate.attemptCount + 1)) startedAt.get
      lease.outbox.id candidate.targetOrdinal candidate.revision
      lease.outbox.maxAttempts).write candidate) _ oldMem
  rw [← exchanged] at writtenMem
  have targetOrdinal : target.targetOrdinal = candidate.targetOrdinal := by
    simpa using List.find?_some found
  have isWritten := eq_of_ordinal (mem_targetsOf_of_readTargets (List.mem_of_find?_eq_some found))
    writtenMem targetOrdinal
  have sameId := (outboxRow_spec stored).2
  have outboxIs := held.outbox
  have maximum : lease.outbox.maxAttempts = row.maxAttempts := by
    rw [outboxIs]
    rfl
  have digest : lease.outbox.eventDigest = row.eventDigest := by
    rw [outboxIs]
    rfl
  refine ⟨⟨row, targetsOf lease.outbox.id store, deliveriesOf lease.outbox.id store⟩, candidate,
    held, ⟨touched, snapshot_eq_some.mpr ⟨stored, rfl, rfl⟩,
      snapshot_eq_some.mpr ⟨stored, exchanged, rfl⟩, ?_⟩, rfl, rfl, isWritten, oldMem,
    (named candidate chosen).2, committed⟩
  refine .prepare held.leased held.expires early oldMem ?_ ?_
  · rw [← maximum]
    exact isDue
  · dsimp only
    rw [sameId, ← digest]

omit [Sha256] in
/-- An inserted attempt is the last of its outbox, and of no other. -/
theorem insertAttempt_spec {input : RecordInput} {store next : Store}
    (done : insertAttempt input store = .ok next) :
    ∃ deliveries, next = { store with deliveries } ∧ Touched input.lease.outbox.id store next ∧
      deliveriesOf input.lease.outbox.id next =
        deliveriesOf input.lease.outbox.id store ++ [input.row] ∧
      ∀ stored ∈ store.deliveries.rows, publicationAttempts.clash stored input.row = false := by
  simp only [insertAttempt, bind_eq_ok, require_eq_ok, orError_eq_ok, pure_eq_ok] at done
  rcases done with ⟨-, -, deliveries, inserted, rfl⟩
  rcases Table.insert_spec inserted with ⟨rows, -, -, fresh⟩
  have selected : ∀ other, deliveriesOf other { store with deliveries } =
      deliveriesOf other store ++ if other = input.lease.outbox.id then [input.row] else [] := by
    intro other
    unfold deliveriesOf
    rw [rows, List.filter_append]
    by_cases same : other = input.lease.outbox.id
    · simp [same, RecordInput.row]
    · simp [same, RecordInput.row, Ne.symm same]
  refine ⟨deliveries, rfl, ⟨rfl, ?_⟩, ?_, fresh⟩
  · intro other different
    unfold contents
    rw [selected, if_neg different, List.append_nil]
    rfl
  · rw [selected, if_pos rfl]

omit [Sha256] in
/-- The outcome of an attempt is written to its submitted target and appended to the log. -/
theorem writeOutcome_spec {input : RecordInput} {store next : Store} {state : TargetState}
    {current : Snapshot} (done : writeOutcome input store = .ok (state, next))
    (read : snapshot input.lease.outbox.id store = some current)
    (maximum : input.lease.outbox.maxAttempts = current.row.maxAttempts) :
    ∃ schedule old, current.Settles input state schedule old ∧
      outcomeOf input = .ok (state, schedule) ∧ Touched input.lease.outbox.id store next ∧
      snapshot input.lease.outbox.id next = some (current.settle input state schedule old) := by
  simp only [writeOutcome, bind_eq_ok, pure_eq_ok, require_eq_ok, Prod.mk.injEq] at done
  rcases done with ⟨logged, inserted, ⟨targetState, schedule⟩, scheduled, ⟨affected, last⟩, updated,
    -, single, rfl, rfl⟩
  rcases insertAttempt_spec inserted with ⟨deliveries, rfl, appended, log, fresh⟩
  rcases updateTargets_spec updated with ⟨targets, result, rfl⟩
  rcases snapshot_eq_some.mp read with ⟨stored, inventory, deliveriesRead⟩
  have named : ∀ stored, (recordTarget targetState schedule input.finishedAt input).selects stored =
      true → (stored.outboxId = input.lease.outbox.id ∧
        stored.targetOrdinal = input.targetOrdinal) ∧ stored.state = .submitted ∧
        stored.attemptCount = input.attemptNumber ∧
        stored.lastAttemptId = some input.attemptId := by
    intro stored chosen
    simp only [recordTarget, Bool.and_eq_true, beq_iff_eq] at chosen
    exact ⟨chosen.1.1.1.1, chosen.1.1.2, chosen.1.2, chosen.2⟩
  rcases exchange_of_target result single (fun stored chosen => (named stored chosen).1)
    (fun _ => rfl) with ⟨touched, old, oldMem, chosen, -, exchanged⟩
  rcases named old chosen with ⟨⟨-, ordinal⟩, submitted, number, identity⟩
  have oldRead : old ∈ current.targets := by
    rw [← inventory]
    exact oldMem
  have made := scheduled
  simp only [outcomeOf, orError_eq_ok] at made
  rw [maximum] at made
  refine ⟨schedule, old, ⟨oldRead, submitted, (outboxRow_spec stored).2.symm, ordinal, number,
    identity, ⟨_, made⟩, ?_⟩, scheduled, appended.trans touched,
    snapshot_eq_some.mpr ⟨stored, ?_, ?_⟩⟩
  · intro attempt attemptMem
    rw [← deliveriesRead] at attemptMem
    exact fresh attempt (List.mem_filter.mp attemptMem).1
  · exact exchanged.trans (congrArg (exchange old _) inventory)
  · refine log.trans ?_
    rw [deliveriesRead]
    rfl

/-- An outbox is released with the verdict of its targets. -/
theorem release_spec {expired : Bool} {lease : PublicationLease} {now : Nat} {store next : Store}
    {decided : Verdict} {current : Snapshot}
    (done : release expired lease now store = .ok (decided, next))
    (read : snapshot lease.outbox.id store = some current) (sorted : Sorted current.targets)
    (maximum : lease.outbox.maxAttempts = current.row.maxAttempts) :
    disposition lease.outbox current.targets = .ok decided ∧
      verdict current.row.maxAttempts current.targets = some decided ∧
      current.row.updatedAt ≤ now ∧ Touched lease.outbox.id store next ∧
      snapshot lease.outbox.id next = some (current.release decided now) := by
  simp only [release, bind_eq_ok, pure_eq_ok, require_eq_ok, Prod.mk.injEq] at done
  rcases done with ⟨given, disposed, ⟨affected, last⟩, updated, -, single, rfl, rfl⟩
  rcases updateOutbox_spec updated with ⟨outbox, result, rfl⟩
  rcases snapshot_eq_some.mp read with ⟨stored, inventory, log⟩
  have named : ∀ stored, (releaseOutbox expired given now lease).selects stored = true →
      stored.outboxId = lease.outbox.id ∧ stored.updatedAt ≤ now := by
    intro stored chosen
    simp only [releaseOutbox, Bool.and_eq_true, beq_iff_eq, decide_eq_true_eq] at chosen
    exact ⟨chosen.1.1.1.1.1.1, chosen.2⟩
  rcases snapshot_of_outbox result single (fun stored chosen => (named stored chosen).1)
    (fun _ => rfl) with ⟨touched, row, found, chosen, -, after⟩
  have same : row = current.row := by
    rw [stored] at found
    exact (Option.some.inj found).symm
  subst same
  rw [← inventory] at sorted
  rw [readTargets_of_sorted sorted, inventory] at disposed
  have decides := disposed
  simp only [disposition, bind_eq_ok, orError_eq_ok] at decides
  rcases decides with ⟨_, -, decides⟩
  rw [maximum] at decides
  refine ⟨disposed, decides, (named _ chosen).2, touched, after.trans ?_⟩
  rw [inventory, log]
  rfl

/-- What it does to record an outcome for the first time. -/
structure Concludes (input : RecordInput) (store next : Store) (current : Snapshot)
    (state : TargetState) (schedule : Option Nat) (old : TargetRow) (decided : Verdict) :
    Prop where
  unrecorded : (store.deliveries.rows.find? fun row => row.attemptId == input.attemptId) = none
  held : Held input.lease current.row
  early : input.finishedAt < input.lease.expiresAt
  revision : old.revision = input.targetRevision
  started : old.updatedAt = input.startedAt
  settles : current.Settles input state schedule old
  scheduled : outcomeOf input = .ok (state, schedule)
  disposed : disposition input.lease.outbox (current.settle input state schedule old).targets =
    .ok decided
  stepped : Stepped .record input.lease.outbox.id store next current
    ((current.settle input state schedule old).release decided input.finishedAt)

/-- An outcome is recorded for the first time, or is found in the log. -/
theorem recordOutcome_cases {input : RecordInput} {store next : Store} {commit : AttemptCommit}
    (done : recordOutcome input store = .ok (commit, next))
    (sorted : Sorted (targetsOf input.lease.outbox.id store)) :
    (next = store ∧ ∃ existing ∈ store.deliveries.rows,
      existing.attemptId = input.attemptId ∧ reconcileRecorded input existing store = .ok commit) ∨
      ∃ current state schedule old decided,
        Concludes input store next current state schedule old decided ∧
        commit = ⟨input.lease.outbox.id, input.attemptId, input.targetOrdinal, input.attemptNumber,
          input.outcome, state, decided.outboxState.1⟩ := by
  unfold recordOutcome at done
  split at done
  · rename_i existing found
    simp only [bind_eq_ok, pure_eq_ok, Prod.mk.injEq] at done
    rcases done with ⟨_, reconciled, rfl, rfl⟩
    exact .inl ⟨rfl, existing, List.mem_of_find?_eq_some found,
      by simpa using List.find?_some found, reconciled⟩
  · rename_i unrecorded
    refine .inr ?_
    simp only [bind_eq_ok, pure_eq_ok, require_eq_ok, orError_eq_ok, Prod.mk.injEq] at done
    rcases done with ⟨_, valid, target, found, -, shape, ⟨state, settled⟩, written,
      ⟨decided, last⟩, released, rfl, rfl⟩
    rcases validateLease_spec valid with ⟨early, row, stored, held⟩
    have read : snapshot input.lease.outbox.id store = some ⟨row,
        targetsOf input.lease.outbox.id store, deliveriesOf input.lease.outbox.id store⟩ :=
      snapshot_eq_some.mpr ⟨stored, rfl, rfl⟩
    rcases writeOutcome_spec written read held.maxAttempts with
      ⟨schedule, old, settles, scheduled, touched, settledRead⟩
    rcases release_spec released settledRead (sorted.exchange rfl) held.maxAttempts with
      ⟨disposed, decides, forward, releasedTouched, after⟩
    rw [readTargets_of_sorted sorted] at found
    have ordinal :
        target.targetOrdinal = input.targetOrdinal := by simpa using List.find?_some found
    have isOld := eq_of_ordinal (List.mem_of_find?_eq_some found) settles.mem
      (ordinal.trans settles.ordinal.symm)
    subst isOld
    simp only [Bool.and_eq_true, beq_iff_eq] at shape
    exact ⟨_, state, schedule, target, decided, ⟨unrecorded, held, early, shape.1.1.1.2, shape.2,
      settles, scheduled, disposed, touched.trans releasedTouched, read, after,
      .record held.leased forward settles decides⟩, rfl⟩

/-- A recorded outcome settles one target and releases the outbox; an outcome that is recorded
already changes nothing. -/
theorem recordOutcome_spec {input : RecordInput} {store next : Store} {commit : AttemptCommit}
    (done : recordOutcome input store = .ok (commit, next))
    (sorted : Sorted (targetsOf input.lease.outbox.id store)) :
    (next = store ∧ input.row ∈ store.deliveries.rows) ∨
      ∃ current state schedule old decided, Held input.lease current.row ∧
        input.finishedAt < input.lease.expiresAt ∧ current.Settles input state schedule old ∧
        Stepped .record input.lease.outbox.id store next current
          ((current.settle input state schedule old).release decided input.finishedAt) := by
  rcases recordOutcome_cases done sorted with
    ⟨same, existing, existingMem, -, reconciled⟩ |
      ⟨current, state, schedule, old, decided, concludes, -⟩
  · simp only [reconcileRecorded, bind_eq_ok, require_eq_ok, beq_iff_eq] at reconciled
    rcases reconciled with ⟨-, isRow, -⟩
    rw [← isRow]
    exact .inl ⟨same, existingMem⟩
  · exact .inr ⟨current, state, schedule, old, decided, concludes.held, concludes.early,
      concludes.settles, concludes.stepped⟩

theorem recoverTargets_spec {lease : PublicationLease} {now delay : Nat} {targets : List TargetRow}
    {store next : Store} {current : Snapshot}
    (done : recoverTargets lease now delay targets store = .ok next)
    (read : snapshot lease.outbox.id store = some current)
    (maximum : lease.outbox.maxAttempts = current.row.maxAttempts) :
    ∃ last, Snapshot.Recovers now targets current last ∧ Touched lease.outbox.id store next ∧
      snapshot lease.outbox.id next = some last := by
  induction targets generalizing store current with
  | nil =>
      cases done
      exact ⟨current, .nil current, .refl _ _, read⟩
  | cons target rest ih =>
      simp only [recoverTargets, bind_eq_ok, require_eq_ok, orError_eq_ok] at done
      rcases done with ⟨attemptId, -, -, -, -, -, -, -, ⟨state, settled⟩, written, others⟩
      rcases writeOutcome_spec written read maximum with
        ⟨schedule, old, settles, -, touched, settledRead⟩
      rcases ih others settledRead maximum with ⟨last, recovers, othersTouched, after⟩
      exact ⟨last, .cons settles.ordinal rfl rfl settles recovers, touched.trans othersTouched,
        after⟩

/-- A recovery settles every submitted target of an expired lease and releases the outbox. -/
theorem recoverExpired_spec {candidate : RecoveryCandidate} {now : UnixMilliseconds} {delay : Nat}
    {store next : Store} {done : Unit}
    (recovered : recoverExpired candidate now delay store = .ok (done, next))
    (sorted : Sorted (targetsOf candidate.outbox.id store)) :
    ∃ (current last : Snapshot) (decided : Verdict) (expires : Nat),
      current.row.leaseExpires = some expires ∧ expires ≤ now.get ∧
      Stepped .recover candidate.outbox.id store next current
        (last.release decided now.get) := by
  simp only [recoverExpired, bind_eq_ok, pure_eq_ok, require_eq_ok, orError_eq_ok, Prod.mk.injEq,
    Bool.and_eq_true, beq_iff_eq] at recovered
  rcases recovered with ⟨_, read, -, rfl, -, ⟨leased, expired⟩, owner, owned, expiresAt, expires, -,
    -, settled, settles, ⟨decided, last⟩, released, -, rfl⟩
  rcases readOutbox_spec read with ⟨row, leaseOwner, stored, decoded, same⟩
  have held : Held ⟨candidate.outbox, owner, expiresAt⟩ row := by
    rw [same] at leased owned expires
    have sameOwner : leaseOwner = some owner := owned
    refine ⟨by rw [same, sameOwner], ?_, leased, expires⟩
    rw [decodeOwner_spec decoded, sameOwner]
    rfl
  rw [expires] at expired
  have reached : expiresAt ≤ now.get := by simpa using expired
  have before : snapshot candidate.outbox.id store = some ⟨row,
      targetsOf candidate.outbox.id store, deliveriesOf candidate.outbox.id store⟩ :=
    snapshot_eq_some.mpr ⟨stored, rfl, rfl⟩
  rw [readTargets_of_sorted sorted] at settles
  rcases recoverTargets_spec settles before held.maxAttempts with
    ⟨settledOutbox, recovers, touched, settledRead⟩
  have maximum : candidate.outbox.maxAttempts = settledOutbox.row.maxAttempts := by
    rw [recovers.row_eq]
    exact held.maxAttempts
  rcases release_spec released settledRead (recovers.sorted sorted) maximum with
    ⟨-, decides, forward, releasedTouched, after⟩
  rw [recovers.row_eq] at decides forward
  exact ⟨_, settledOutbox, decided, expiresAt, held.expires, reached,
    touched.trans releasedTouched, before, after, .recover held.leased forward recovers decides⟩

/-- A retry reopens a blocked outbox. -/
theorem retry_spec {outbox : Digest} {expected targetCount : Nat} {now : UnixMilliseconds}
    {store next : Store} {done : Unit}
    (retried : retry outbox expected targetCount now store = .ok (done, next)) :
    ∃ current, Stepped .retry outbox store next current (current.retry now.get) := by
  simp only [retry, bind_eq_ok, pure_eq_ok, require_eq_ok, orError_eq_ok, Prod.mk.injEq,
    Bool.and_eq_true, beq_iff_eq] at retried
  rcases retried with ⟨row, stored, -, ⟨⟨blocked, revision⟩, -⟩, ⟨targets, changed⟩, targetsUpdated,
    ⟨rows, affected⟩, outboxUpdated, -, single, -, rfl⟩
  have targetsNamed : ∀ target, (retryTargets outbox now.get).selects target = true →
      target.outboxId = outbox := by
    intro target chosen
    simp only [retryTargets, Bool.and_eq_true, beq_iff_eq] at chosen
    exact chosen.1
  rcases touched_of_targets targetsUpdated targetsNamed (fun _ => rfl) with ⟨touched, rewritten⟩
  have named : ∀ stored, (retryOutbox outbox expected now.get).selects stored = true →
      stored.outboxId = outbox := by
    intro stored chosen
    simp only [retryOutbox, Bool.and_eq_true, beq_iff_eq] at chosen
    exact chosen.1.1
  have updated : ({ store with targets } : Store).outbox.update
      (retryOutbox outbox expected now.get) = some (rows, affected) := outboxUpdated
  have single : (affected == 1) = true := by simpa using single
  rcases snapshot_of_outbox updated single named (fun _ => rfl) with
    ⟨rowTouched, found, foundRow, -, guarded, after⟩
  have forward : found.updatedAt ≤ now.get := by
    simp only [publicationOutbox, retryOutbox, Bool.and_eq_true, decide_eq_true_eq] at guarded
    exact guarded.1.2
  have sameRow : found = row := Option.some.inj (foundRow.symm.trans stored)
  have sameId : row.outboxId = outbox := (outboxRow_spec stored).2
  subst sameRow sameId revision
  refine ⟨⟨found, targetsOf found.outboxId store, deliveriesOf found.outboxId store⟩,
    touched.trans rowTouched, snapshot_eq_some.mpr ⟨stored, rfl, rfl⟩, ?_, .retry blocked forward⟩
  exact after.trans (congrArg some (by rw [rewritten]; rfl))

end Transactions

end Publication

end Rhi
