import Rhi.Presence.Records

/-!
# Effects of the presence operations

What the presence transactions do to an outbox and its targets.  A delivery transaction touches one
outbox, a commit of signed documents and a refresh touch many; `PresenceRecord.Step` says everything
that can happen to one of them.  What a row and a target never lose is kept by all of them.
-/

namespace Rhi

open Relational Transactional
open Publication (Sorted readTargets_eq_filter)

section Identity

/-- A row without the columns that deliveries write. -/
def PresenceRow.identity (row : PresenceRow) : PresenceRow :=
  { row with
    state := .superseded, revision := 0, nextAttempt := none, leaseOwner := none
    leaseExpires := none, updatedAt := 0 }

theorem PresenceRow.sameIdentity_iff {old new : PresenceRow} :
    PresenceRow.SameIdentity old new ↔ new.identity = old.identity := by
  cases old
  cases new
  simp only [PresenceRow.SameIdentity, PresenceRow.identity, PresenceRow.mk.injEq]
  tauto

/-- The outbox of a target, with what its authority fixed of it. -/
def TargetRow.slot (row : TargetRow) : Digest × PublicationTarget :=
  (row.outboxId, row.target)

end Identity

namespace Presence

section Stored

def storedRow (id : Digest) (store : PresenceStore) : Option PresenceRow :=
  store.outbox.rows.find? fun row => row.outboxId == id

def targetsOf (id : Digest) (store : PresenceStore) : List TargetRow :=
  store.targets.rows.filter fun row => row.outboxId == id

/-- What the store holds of an outbox. -/
def stored (id : Digest) (store : PresenceStore) : Option PresenceRecord :=
  (storedRow id store).map fun row => ⟨row, targetsOf id store⟩

theorem presenceOutbox_clash_comm (left right : PresenceRow) :
    presenceOutbox.clash left right = presenceOutbox.clash right left := by
  simp [presenceOutbox, Bool.beq_comm]

theorem presenceTargets_clash_comm (left right : TargetRow) :
    presenceTargets.clash left right = presenceTargets.clash right left := by
  simp [presenceTargets, Bool.beq_comm]

theorem storedRow_of_mem {store : PresenceStore} {row : PresenceRow}
    (rowMem : row ∈ store.outbox.rows) : storedRow row.outboxId store = some row := by
  cases found : storedRow row.outboxId store with
  | none =>
      have missed := List.find?_eq_none.mp found row rowMem
      simp at missed
  | some other =>
      have same : other.outboxId = row.outboxId := by simpa using List.find?_some found
      rw [Table.eq_of_clash presenceOutbox_clash_comm (List.mem_of_find?_eq_some found) rowMem
        (by simp [presenceOutbox, same])]

theorem storedRow_spec {id : Digest} {store : PresenceStore} {row : PresenceRow}
    (found : storedRow id store = some row) : row ∈ store.outbox.rows ∧ row.outboxId = id := by
  refine ⟨List.mem_of_find?_eq_some found, ?_⟩
  simpa using List.find?_some found

theorem stored_eq_some {id : Digest} {store : PresenceStore} {record : PresenceRecord} :
    stored id store = some record ↔
      storedRow id store = some record.row ∧ targetsOf id store = record.targets := by
  unfold stored
  rw [Option.map_eq_some_iff]
  constructor
  · rintro ⟨row, found, rfl⟩
    exact ⟨found, rfl⟩
  · rintro ⟨found, targets⟩
    exact ⟨record.row, found, by rw [targets]⟩

theorem stored_of_mem {store : PresenceStore} {row : PresenceRow}
    (rowMem : row ∈ store.outbox.rows) :
    stored row.outboxId store = some ⟨row, targetsOf row.outboxId store⟩ :=
  stored_eq_some.mpr ⟨storedRow_of_mem rowMem, rfl⟩

theorem eq_of_ordinal {id : Digest} {store : PresenceStore} {left right : TargetRow}
    (leftMem : left ∈ targetsOf id store) (rightMem : right ∈ targetsOf id store)
    (same : left.targetOrdinal = right.targetOrdinal) : left = right := by
  rcases List.mem_filter.mp leftMem with ⟨leftStored, leftOutbox⟩
  rcases List.mem_filter.mp rightMem with ⟨rightStored, rightOutbox⟩
  simp only [beq_iff_eq] at leftOutbox rightOutbox
  exact Table.eq_of_clash presenceTargets_clash_comm leftStored rightStored
    (by simp [presenceTargets, leftOutbox, rightOutbox, same])

/-- What every outbox of the store satisfies. -/
def Every (property : PresenceRecord → Prop) (store : PresenceStore) : Prop :=
  ∀ id record, stored id store = some record → property record

/-- What neither a delivery nor a refresh writes. -/
structure Kept (before after : PresenceStore) : Prop where
  bindings : after.configBindings = before.configBindings
  desired : after.desired = before.desired
  rows : after.outbox.rows.map PresenceRow.identity = before.outbox.rows.map PresenceRow.identity
  slots : after.targets.rows.map TargetRow.slot = before.targets.rows.map TargetRow.slot

theorem Kept.refl (store : PresenceStore) : Kept store store :=
  ⟨rfl, rfl, rfl, rfl⟩

theorem Kept.trans {first second third : PresenceStore} (left : Kept first second)
    (right : Kept second third) : Kept first third :=
  ⟨right.bindings.trans left.bindings, right.desired.trans left.desired,
    right.rows.trans left.rows, right.slots.trans left.slots⟩

theorem Kept.origin {before after : PresenceStore} (kept : Kept before after) {row : PresenceRow}
    (rowMem : row ∈ after.outbox.rows) :
    ∃ old ∈ before.outbox.rows, row.identity = old.identity := by
  have listed := List.mem_map_of_mem (f := PresenceRow.identity) rowMem
  rw [kept.rows] at listed
  rcases List.mem_map.mp listed with ⟨old, oldMem, same⟩
  exact ⟨old, oldMem, same.symm⟩

theorem Kept.symm {before after : PresenceStore} (kept : Kept before after) : Kept after before :=
  ⟨kept.bindings.symm, kept.desired.symm, kept.rows.symm, kept.slots.symm⟩

/-- No recorded attempt is later than the count of its target, nor as late while an attempt is under
way. -/
def Logged (store : PresenceStore) : Prop :=
  ∀ attempt ∈ store.attempts.rows, ∃ target ∈ store.targets.rows,
    target.outboxId = attempt.outboxId ∧ target.targetOrdinal = attempt.targetOrdinal ∧
      attempt.attemptNumber ≤ target.attemptCount ∧
      (target.state = .submitted → attempt.attemptNumber < target.attemptCount)

end Stored

section Statements

theorem map_identity_of_update {table next : Table presenceOutbox} {change : Change PresenceRow}
    {affected : Nat} (updated : table.update change = some (next, affected)) :
    next.rows.map PresenceRow.identity = table.rows.map PresenceRow.identity := by
  rcases Table.update_spec updated with ⟨rows, -, accepted⟩
  rw [rows, List.map_map]
  apply List.map_congr_left
  intro row rowMem
  simp only [Function.comp_apply]
  by_cases selected : change.selects row = true
  · have guarded := (accepted row rowMem selected).2
    simp only [presenceOutbox, Bool.and_eq_true, decide_eq_true_eq] at guarded
    rw [Table.rewrite_of_selects selected]
    exact PresenceRow.sameIdentity_iff.mp guarded.1.1.1
  · rw [Table.rewrite_of_not_selects (by simpa using selected)]

theorem map_slot_of_update {table next : Table presenceTargets} {change : Change TargetRow}
    {affected : Nat} (updated : table.update change = some (next, affected)) :
    next.rows.map TargetRow.slot = table.rows.map TargetRow.slot := by
  rcases Table.update_spec updated with ⟨rows, -, accepted⟩
  rw [rows, List.map_map]
  apply List.map_congr_left
  intro row rowMem
  simp only [Function.comp_apply]
  by_cases selected : change.selects row = true
  · have guarded := (accepted row rowMem selected).2
    simp only [presenceTargets, Bool.and_eq_true, decide_eq_true_eq] at guarded
    rcases guarded.1 with ⟨outbox, ordinal, relay, required, -⟩
    rw [Table.rewrite_of_selects selected]
    simp only [TargetRow.slot, TargetRow.target, outbox, ordinal, relay, required]
  · rw [Table.rewrite_of_not_selects (by simpa using selected)]

theorem kept_of_outbox {store : PresenceStore} {change : Change PresenceRow}
    {outbox : Table presenceOutbox} {affected : Nat}
    (updated : store.outbox.update change = some (outbox, affected)) :
    Kept store { store with outbox } :=
  ⟨rfl, rfl, map_identity_of_update updated, rfl⟩

theorem kept_of_targets {store : PresenceStore} {change : Change TargetRow}
    {targets : Table presenceTargets} {affected : Nat}
    (updated : store.targets.update change = some (targets, affected)) :
    Kept store { store with targets } :=
  ⟨rfl, rfl, rfl, map_slot_of_update updated⟩

/-- Whatever the guard of the targets accepts keeps the log behind them. -/
theorem logged_of_targets {store : PresenceStore} {change : Change TargetRow}
    {targets : Table presenceTargets} {affected : Nat}
    (updated : store.targets.update change = some (targets, affected)) (logged : Logged store) :
    Logged { store with targets } := by
  rcases Table.update_spec updated with ⟨rows, -, accepted⟩
  intro attempt attemptMem
  rcases logged attempt attemptMem with ⟨target, targetMem, outbox, ordinal, reached, under⟩
  refine ⟨Table.rewrite change target, ?_, ?_⟩
  · rw [rows]
    exact List.mem_map_of_mem targetMem
  · by_cases selected : change.selects target = true
    · have guarded := (accepted target targetMem selected).2
      rw [Table.rewrite_of_selects selected]
      simp only [presenceTargets, TargetRow.presenceTransition, Bool.and_eq_true, Bool.or_eq_true,
        decide_eq_true_eq, beq_iff_eq, bne_iff_ne] at guarded
      rcases guarded with
        ⟨⟨sameOutbox, sameOrdinal, -⟩, ⟨⟨⟨-, count⟩, -⟩, -⟩ | ⟨⟨decided, count⟩, -⟩⟩
      · refine ⟨sameOutbox.trans outbox, sameOrdinal.trans ordinal, by omega, fun _ => by omega⟩
      · refine ⟨sameOutbox.trans outbox, sameOrdinal.trans ordinal, by omega, ?_⟩
        intro submitted
        exact absurd submitted decided.2
    · rw [Table.rewrite_of_not_selects (by simpa using selected)]
      exact ⟨outbox, ordinal, reached, under⟩

/-- A statement on outboxes rewrites the rows and leaves the targets alone. -/
theorem stored_of_outbox {store : PresenceStore} {change : Change PresenceRow}
    {outbox : Table presenceOutbox} {affected : Nat}
    (updated : store.outbox.update change = some (outbox, affected))
    (kept : ∀ row, (change.write row).outboxId = row.outboxId) (id : Digest) :
    stored id { store with outbox } =
      (stored id store).map fun record =>
        { record with row := Table.rewrite change record.row } := by
  have found : storedRow id { store with outbox } =
      (storedRow id store).map (Table.rewrite change) := by
    unfold storedRow
    rw [(Table.update_spec updated).1, Table.find?_map_rewrite]
    intro row
    rw [kept]
  unfold stored
  rw [found, Option.map_map, Option.map_map]
  rfl

/-- A statement on targets rewrites them in every inventory. -/
theorem stored_of_targets {store : PresenceStore} {change : Change TargetRow}
    {targets : Table presenceTargets} {affected : Nat}
    (updated : store.targets.update change = some (targets, affected))
    (kept : ∀ row, (change.write row).outboxId = row.outboxId) (id : Digest) :
    stored id { store with targets } =
      (stored id store).map fun record =>
        { record with targets := record.targets.map (Table.rewrite change) } := by
  have selected : targetsOf id { store with targets } =
      (targetsOf id store).map (Table.rewrite change) := by
    unfold targetsOf
    rw [(Table.update_spec updated).1, Table.filter_map_rewrite]
    intro row
    rw [kept]
  unfold stored
  rw [selected, Option.map_map]
  rfl

/-- A statement that selects one outbox rewrites its row. -/
theorem stored_of_row {store : PresenceStore} {change : Change PresenceRow} {id : Digest}
    {outbox : Table presenceOutbox} {affected : Nat}
    (updated : store.outbox.update change = some (outbox, affected))
    (single : (affected == 1) = true)
    (named : ∀ row, change.selects row = true → row.outboxId = id)
    (kept : ∀ row, (change.write row).outboxId = row.outboxId) :
    ∃ record, stored id store = some record ∧ change.selects record.row = true ∧
      stored id { store with outbox } = some { record with row := change.write record.row } ∧
      ∀ other, other ≠ id → stored other { store with outbox } = stored other store := by
  rw [(Table.update_spec updated).2.1] at single
  rcases Table.exists_of_countP_eq_one single with ⟨row, rowMem, selected⟩
  have found := stored_of_mem rowMem
  rw [named row selected] at found
  refine ⟨_, found, selected, ?_, ?_⟩
  · rw [stored_of_outbox updated kept, found, Option.map_some, Table.rewrite_of_selects selected]
  · intro other different
    rw [stored_of_outbox updated kept]
    cases present : stored other store with
    | none => rfl
    | some record =>
        have skipped : change.selects record.row = false := by
          cases chosen : change.selects record.row with
          | false => rfl
          | true =>
              have same := named record.row chosen
              rw [(storedRow_spec (stored_eq_some.mp present).1).2] at same
              exact absurd same different
        rw [Option.map_some, Table.rewrite_of_not_selects skipped]

/-- A statement that selects one target exchanges it. -/
theorem stored_of_target {store : PresenceStore} {change : Change TargetRow} {id : Digest}
    {ordinal : Nat} {targets : Table presenceTargets} {affected : Nat} {record : PresenceRecord}
    (updated : store.targets.update change = some (targets, affected))
    (single : (affected == 1) = true)
    (named : ∀ row, change.selects row = true → row.outboxId = id ∧ row.targetOrdinal = ordinal)
    (kept : ∀ row, (change.write row).outboxId = row.outboxId)
    (found : stored id store = some record) :
    ∃ old ∈ record.targets, change.selects old = true ∧
      stored id { store with targets } =
        some { record with targets := exchange old (change.write old) record.targets } ∧
      ∀ other, other ≠ id → stored other { store with targets } = stored other store := by
  rw [(Table.update_spec updated).2.1] at single
  rcases Table.exists_of_countP_eq_one single with ⟨old, oldMem, selected⟩
  have listed := (stored_eq_some.mp found).2
  have oldOf : old ∈ targetsOf id store :=
    List.mem_filter.mpr ⟨oldMem, by simp [(named old selected).1]⟩
  refine ⟨old, listed ▸ oldOf, selected, ?_, ?_⟩
  · rw [stored_of_targets updated kept, found, Option.map_some,
      map_rewrite_eq_exchange selected]
    intro target targetMem chosen
    rw [← listed] at targetMem
    exact eq_of_ordinal targetMem oldOf ((named target chosen).2.trans (named old selected).2.symm)
  · intro other different
    rw [stored_of_targets updated kept]
    cases present : stored other store with
    | none => rfl
    | some otherRecord =>
        rw [Option.map_some, Table.map_rewrite_of_skipped]
        intro target targetMem
        rw [← (stored_eq_some.mp present).2] at targetMem
        have outbox : target.outboxId = other := by
          simpa using (List.mem_filter.mp targetMem).2
        cases chosen : change.selects target with
        | false => rfl
        | true => exact absurd (outbox.symm.trans (named target chosen).1) different

end Statements

section Reading

variable [Sha256] [PresenceEvents]

omit [Sha256] [PresenceEvents] in
theorem readTargetRows_of_sorted {id : Digest} {store : PresenceStore}
    (sorted : Sorted (targetsOf id store)) :
    readTargetRows id store = .ok (targetsOf id store) := by
  have read : readTargets id store.targets.rows = targetsOf id store := readTargets_eq_filter sorted
  simp [readTargetRows, read, require, sorted.2, bind, Except.bind, pure, Except.pure]

theorem readOutbox_of_stored {id : Digest} {store : PresenceStore} {record : PresenceRecord}
    (found : stored id store = some record) (sound : record.Sound) :
    readOutbox id store = .ok (some record) := by
  rcases stored_eq_some.mp found with ⟨row, targets⟩
  have sorted : Sorted (targetsOf id store) := by
    rw [targets]
    exact sound.sorted
  have named := (storedRow_spec row).2
  have row : store.outbox.rows.find? (fun row => row.outboxId == id) = some record.row := row
  simp only [readOutbox, row, decodeRecord, sound.decodable, named, readTargetRows_of_sorted sorted,
    targets, require, if_true, bind, Except.bind, pure, Except.pure]

theorem readOutbox_of_sound {store : PresenceStore} (sound : Every PresenceRecord.Sound store)
    (id : Digest) : readOutbox id store = .ok (stored id store) := by
  cases found : stored id store with
  | none =>
      have absent : store.outbox.rows.find? (fun row => row.outboxId == id) = none := by
        simpa [stored, storedRow] using found
      simp only [readOutbox, absent]
  | some record => exact readOutbox_of_stored found (sound id record found)

omit [PresenceEvents] in
theorem validateTargets_of_valid {row : PresenceRow} {targets : List TargetRow} :
    validateTargets row targets = .ok () ↔
      targetsValid presenceTargetSet row.targetCount row.requiredTargetCount row.targetSet
        targets = true ∧ targets ≠ [] := by
  simp [validateTargets]

theorem validateTargets_of_sound {record : PresenceRecord} (sound : record.Sound) :
    validateTargets record.row record.targets = .ok () :=
  validateTargets_of_valid.mpr ⟨sound.inventory, sound.nonempty⟩

end Reading

section Transactions

/-- A transaction took one step of one outbox. -/
structure Stepped (action : PresenceRecord.Action) (id : Digest) (before after : PresenceStore)
    (record next : PresenceRecord) : Prop where
  kept : Kept before after
  logged : Logged before → Logged after
  others : ∀ other, other ≠ id → stored other after = stored other before
  before : stored id before = some record
  after : stored id after = some next
  step : PresenceRecord.Step action record next

theorem readClaimable_spec {now : Nat} {store : PresenceStore} {row : PresenceRow}
    (selected : readClaimable now store = some row) :
    row ∈ store.outbox.rows ∧ row.state = .pending ∧
      ∃ next, row.nextAttempt = some next ∧ next ≤ now := by
  have sorted := List.mem_of_mem_head? (Option.mem_def.mpr selected)
  rw [List.mem_insertionSort, List.mem_filter] at sorted
  rcases sorted with ⟨rowMem, due⟩
  simp only [Bool.and_eq_true, beq_iff_eq] at due
  rcases (Option.any_eq_true _ _).mp due.1.2 with ⟨next, scheduled, reached⟩
  exact ⟨rowMem, due.1.1, next, scheduled, by simpa using reached⟩

theorem readExpired_spec {now : Nat} {store : PresenceStore} {row : PresenceRow}
    (selected : readExpired now store = some row) :
    row ∈ store.outbox.rows ∧ row.state = .leased ∧
      ∃ expires, row.leaseExpires = some expires ∧ expires ≤ now := by
  have sorted := List.mem_of_mem_head? (Option.mem_def.mpr selected)
  rw [List.mem_insertionSort, List.mem_filter] at sorted
  rcases sorted with ⟨rowMem, due⟩
  simp only [Bool.and_eq_true, beq_iff_eq] at due
  rcases (Option.any_eq_true _ _).mp due.2 with ⟨expires, expiry, reached⟩
  exact ⟨rowMem, due.1, expires, expiry, by simpa using reached⟩

variable [Sha256] [PresenceEvents]

theorem claimNext_none {owner : LeaseOwner} {now : UnixMilliseconds} {store next : PresenceStore}
    (done : claimNext owner now store = .ok (none, next)) : next = store := by
  unfold claimNext at done
  split at done
  · cases done
    rfl
  · simp only [bind_eq_ok, pure_eq_ok, require_eq_ok, orError_eq_ok, Prod.mk.injEq, reduceCtorEq,
      false_and, and_false, exists_false] at done

/-- A claim leases the outbox it selected, when that outbox is current. -/
theorem claimNext_spec {owner : LeaseOwner} {now : UnixMilliseconds} {store next : PresenceStore}
    {lease : PresenceLease} (sound : Every PresenceRecord.Sound store)
    (done : claimNext owner now store = .ok (some lease, next)) :
    ∃ record, lease =
        ⟨record.claim owner (now.get + presenceAttemptDeadline) now.get, owner,
          now.get + presenceAttemptDeadline⟩ ∧
      validateCurrentDesired record.row store = .ok () ∧
      Stepped .claim record.row.outboxId store next record lease.outbox := by
  unfold claimNext at done
  split at done
  · cases done
  · rename_i row selected
    rcases readClaimable_spec selected with ⟨rowMem, pending, instant, scheduled, due⟩
    simp only [readOutbox_of_sound sound, stored_of_mem rowMem, bind_eq_ok, pure_eq_ok,
      require_eq_ok, orError_eq_ok, Prod.mk.injEq, Option.some.injEq, Except.ok.injEq,
      exists_eq_left'] at done
    rcases done with ⟨_, current, -, -, -, -, ⟨outbox, affected⟩, updated, -, single, found, read,
      leased, rfl, -, shape, rfl, rfl⟩
    have named : ∀ stored, (claimOutbox owner (now.get + presenceAttemptDeadline) now.get
        row.outboxId row.revision).selects stored = true →
          stored.outboxId = row.outboxId ∧ stored.updatedAt ≤ now.get := by
      intro stored chosen
      simp only [claimOutbox, Bool.and_eq_true, beq_iff_eq, decide_eq_true_eq] at chosen
      exact ⟨chosen.1.1.1.1, chosen.2⟩
    rcases stored_of_row updated single (fun stored chosen => (named stored chosen).1)
      (fun _ => rfl) with ⟨record, present, chosen, after, others⟩
    have same := present.symm.trans (stored_of_mem rowMem)
    cases same
    have forward := (named row chosen).2
    have step : PresenceRecord.Step .claim ⟨row, targetsOf row.outboxId store⟩
        (PresenceRecord.claim owner (now.get + presenceAttemptDeadline) now.get
          ⟨row, targetsOf row.outboxId store⟩) := .claim pending scheduled due forward
    have claimed := readOutbox_of_stored after ((sound _ _ present).step step)
    rw [claimed] at read
    cases read
    exact ⟨⟨row, targetsOf row.outboxId store⟩, rfl, current, kept_of_outbox updated, id, others,
      present, after, step⟩

omit [Sha256] [PresenceEvents] in
theorem readDesiredBinding_spec {store : PresenceStore} {desired : DesiredRow} :
    readDesiredBinding store = .ok desired ↔ store.desired.rows = [desired] := by
  unfold readDesiredBinding
  split
  · rename_i row single
    simp [single]
  · rename_i several
    constructor
    · intro impossible
      cases impossible
    · intro single
      exact absurd single (several desired)

omit [Sha256] [PresenceEvents] in
theorem validateCurrentDesired_spec {row : PresenceRow} {store : PresenceStore}
    (current : validateCurrentDesired row store = .ok ()) :
    ∃ desired, store.desired.rows = [desired] ∧ desiredMatchesOutbox desired row = true := by
  simp only [validateCurrentDesired, bind_eq_ok, require_eq_ok] at current
  rcases current with ⟨desired, read, isMatch⟩
  exact ⟨desired, readDesiredBinding_spec.mp read, isMatch⟩

/-- What `validate_lease` establishes. -/
theorem validateLease_spec {lease : PresenceLease} {now : Nat} {store : PresenceStore} {done : Unit}
    (sound : Every PresenceRecord.Sound store) (valid : validateLease lease now store = .ok done) :
    stored lease.outbox.row.outboxId store = some lease.outbox ∧
      validateCurrentDesired lease.outbox.row store = .ok () ∧
      lease.outbox.row.state = .leased ∧ lease.outbox.row.leaseOwner = some lease.owner.bytes ∧
      lease.outbox.row.leaseExpires = some lease.expiresAt ∧ now < lease.expiresAt := by
  simp only [validateLease, readOutbox_of_sound sound, bind_eq_ok, require_eq_ok, Except.ok.injEq,
    exists_eq_left', Bool.and_eq_true, beq_iff_eq, decide_eq_true_eq] at valid
  rcases valid with ⟨_, found, _, current, ⟨⟨leased, owned⟩, expires⟩, early⟩
  exact ⟨found, current, leased, owned, expires, early⟩

/-- A preparation submits one due target of the leased outbox, and hands out its stored bytes. -/
theorem prepareNext_spec {lease : PresenceLease} {startedAt : UnixMilliseconds}
    {store next : PresenceStore} {prepared : PreparedPresence}
    (sound : Every PresenceRecord.Sound store) (quiet : Quiet lease.outbox.targets)
    (done : prepareNext lease startedAt store = .ok (prepared, next)) :
    ∃ old ∈ lease.outbox.targets, validateLease lease startedAt.get store = .ok () ∧
      prepared.lease = lease ∧ prepared.signedEvent = lease.outbox.row.signedEvent ∧
      prepared.attemptId = deriveAttemptId lease.outbox.row.outboxId lease.outbox.row.eventDigest
        old.targetOrdinal (old.attemptCount + 1) ∧
      prepared.startedAt = startedAt.get ∧
      prepared.target = (prepareTarget prepared.attemptId startedAt.get old.outboxId
        old.targetOrdinal old.revision presenceMaxAttempts).write old ∧
      Stepped .submit lease.outbox.row.outboxId store next lease.outbox
        (lease.outbox.submit prepared.attemptId startedAt.get old) := by
  simp only [prepareNext, bind_eq_ok, pure_eq_ok, require_eq_ok, orError_eq_ok,
    Prod.mk.injEq] at done
  rcases done with ⟨_, valid, candidate, selected, -, -, ⟨targets, affected⟩, updated, -, single,
    found, read, outbox, rfl, -, -, target, chosenTarget, -, -, -, -, rfl, rfl⟩
  rcases validateLease_spec sound valid with ⟨present, -, leased, -, expires, early⟩
  have candidateMem := List.mem_of_find?_eq_some selected
  have named : ∀ row, (prepareTarget (deriveAttemptId lease.outbox.row.outboxId
      lease.outbox.row.eventDigest candidate.targetOrdinal (candidate.attemptCount + 1))
      startedAt.get lease.outbox.row.outboxId candidate.targetOrdinal candidate.revision
      presenceMaxAttempts).selects row = true → row.outboxId = lease.outbox.row.outboxId ∧
        row.targetOrdinal = candidate.targetOrdinal := by
    intro row chosen
    simp only [prepareTarget, Bool.and_eq_true, beq_iff_eq] at chosen
    exact chosen.1.1.1.1.1
  rcases stored_of_target updated single named (fun _ => rfl) present with
    ⟨old, oldMem, chosen, after, others⟩
  have same : candidate = old :=
    (sound _ _ present).distinct candidateMem oldMem (named old chosen).2.symm
  subst same
  have step : PresenceRecord.Step .submit lease.outbox (lease.outbox.submit
      (deriveAttemptId lease.outbox.row.outboxId lease.outbox.row.eventDigest
        candidate.targetOrdinal (candidate.attemptCount + 1)) startedAt.get candidate) :=
    .submit leased expires early candidateMem (List.find?_some selected) quiet
  -- the target that is read back is the one that was written
  have soundAfter := (sound _ _ present).step step
  have isOutbox := (readOutbox_of_stored after soundAfter).symm.trans read
  cases isOutbox
  have sameOrdinal : target.targetOrdinal = candidate.targetOrdinal := by
    simpa using List.find?_some chosenTarget
  have isTarget := soundAfter.distinct (List.mem_of_find?_eq_some chosenTarget)
    (exchanged_mem candidateMem) sameOrdinal
  exact ⟨candidate, candidateMem, valid, rfl, rfl, rfl, rfl, isTarget, kept_of_targets updated,
    logged_of_targets updated, others, present, after, step⟩

end Transactions

section Settling

variable [Sha256] [PresenceEvents]

omit [Sha256] [PresenceEvents] in
/-- The outcome of an attempt is written to its submitted target and appended to the log. -/
theorem writeOutcome_spec {input : PresenceInput} {store next : PresenceStore} {state : TargetState}
    {record : PresenceRecord} (done : writeOutcome input store = .ok (state, next))
    (found : stored input.outboxId store = some record) :
    ∃ schedule old, record.Settles input state schedule old ∧
      old.targetOrdinal = input.targetOrdinal ∧ state = input.outcome.targetState ∧
      outcomeOf input = .ok (state, schedule) ∧ Kept store next ∧ (Logged store → Logged next) ∧
      next.attempts.rows = store.attempts.rows ++ [input.row] ∧
      stored input.outboxId next = some (record.settle input state schedule old) ∧
      ∀ other, other ≠ input.outboxId → stored other next = stored other store := by
  simp only [writeOutcome, insertAttempt, bind_eq_ok, pure_eq_ok, require_eq_ok, orError_eq_ok,
    Prod.mk.injEq] at done
  rcases done with ⟨_, ⟨-, -, attempts, inserted, rfl⟩, ⟨targetState, schedule⟩, scheduled,
    ⟨targets, affected⟩, updated, -, single, rfl, rfl⟩
  have named : ∀ row, (recordTarget targetState schedule input).selects row = true →
      (row.outboxId = input.outboxId ∧ row.targetOrdinal = input.targetOrdinal) ∧
        row.state = .submitted ∧ row.attemptCount = input.attemptNumber ∧
        row.lastAttemptId = some input.attemptId := by
    intro row chosen
    simp only [recordTarget, Bool.and_eq_true, beq_iff_eq] at chosen
    exact ⟨chosen.1.1.1.1, chosen.1.1.2, chosen.1.2, chosen.2⟩
  have present : stored input.outboxId { store with attempts } = some record := found
  rcases stored_of_target updated single (fun row chosen => (named row chosen).1) (fun _ => rfl)
    present with ⟨old, oldMem, chosen, after, others⟩
  rcases named old chosen with ⟨⟨-, ordinal⟩, submitted, number, identity⟩
  have made := scheduled
  simp only [outcomeOf, orError_eq_ok] at made
  refine ⟨schedule, old, ⟨oldMem, submitted, number, identity, _, made⟩, ordinal,
    outcomeSchedule_state made, scheduled, ⟨rfl, rfl, rfl, map_slot_of_update updated⟩, ?_,
    (Table.insert_spec inserted).1, after, others⟩
  intro logged attempt attemptMem
  change attempt ∈ attempts.rows at attemptMem
  rw [(Table.insert_spec inserted).1] at attemptMem
  rcases List.mem_append.mp attemptMem with earlier | added
  · have unlogged : store.targets.update (recordTarget targetState schedule input) =
        some (targets, affected) := updated
    exact logged_of_targets unlogged logged attempt earlier
  · rw [List.mem_singleton.mp added]
    have listed := @exchanged_mem old ((recordTarget targetState schedule input).write old) _ oldMem
    rw [← show _ = exchange old _ record.targets from (stored_eq_some.mp after).2] at listed
    rcases List.mem_filter.mp listed with ⟨storedMem, isOf⟩
    refine ⟨_, storedMem, beq_iff_eq.mp isOf, ordinal, Nat.le_of_eq number.symm, ?_⟩
    intro isSubmitted
    exact absurd isSubmitted (outcomeSchedule_spec made).1

omit [Sha256] [PresenceEvents] in
/-- A release ends the lease of its outbox. -/
theorem release_spec {expired : Bool} {state : PresenceState} {schedule : Option Nat} {now : Nat}
    {id : Digest} {revision : Nat} {owner : BitVec 128} {expires : Nat} {store next : PresenceStore}
    {record : PresenceRecord}
    (done : release expired state schedule now id revision owner expires store = .ok next)
    (found : stored id store = some record) :
    record.row.state = .leased ∧ record.row.updatedAt ≤ now ∧ Kept store next ∧
      (Logged store → Logged next) ∧ next.attempts = store.attempts ∧
      stored id next = some (record.release state schedule now) ∧
      ∀ other, other ≠ id → stored other next = stored other store := by
  simp only [release, bind_eq_ok, pure_eq_ok, require_eq_ok, orError_eq_ok] at done
  rcases done with ⟨⟨outbox, affected⟩, updated, -, single, rfl⟩
  have named : ∀ row, (releaseOutbox expired state schedule now id revision owner
      expires).selects row = true →
        row.outboxId = id ∧ row.state = .leased ∧ row.updatedAt ≤ now := by
    intro row chosen
    simp only [releaseOutbox, Bool.and_eq_true, beq_iff_eq, decide_eq_true_eq] at chosen
    exact ⟨chosen.1.1.1.1.1.1, chosen.1.1.1.1.2, chosen.2⟩
  rcases stored_of_row updated single (fun row chosen => (named row chosen).1) (fun _ => rfl) with
    ⟨other, present, chosen, after, others⟩
  have same := present.symm.trans found
  cases same
  rcases named _ chosen with ⟨-, leased, forward⟩
  exact ⟨leased, forward, kept_of_outbox updated, fun logged => logged, rfl, after, others⟩

omit [PresenceEvents] in
theorem disposition_spec {row : PresenceRow} {targets : List TargetRow} {decided : Verdict}
    (done : disposition row targets = .ok decided) :
    verdict presenceMaxAttempts targets = some decided := by
  simp only [disposition, bind_eq_ok, orError_eq_ok] at done
  rcases done with ⟨_, -, decides⟩
  exact decides

/-- What it does to record an outcome for the first time. -/
structure Concludes (input : PresenceInput) (store next : PresenceStore) (record : PresenceRecord)
    (state : TargetState) (schedule : Option Nat) (old : TargetRow) (decided : Verdict) :
    Prop where
  unrecorded : (store.attempts.rows.find? fun row => row.attemptId == input.attemptId) = none
  valid : validateInputLease input store = .ok ()
  ordinal : old.targetOrdinal = input.targetOrdinal
  revision : old.revision = input.targetRevision
  started : old.updatedAt = input.startedAt
  settles : record.Settles input state schedule old
  scheduled : outcomeOf input = .ok (state, schedule)
  disposed : disposition record.row (record.settle input state schedule old).targets = .ok decided
  forward : record.row.updatedAt ≤ input.finishedAt
  stepped : Stepped .conclude input.outboxId store next record
    ((record.settle input state schedule old).release decided.presenceState.1
      decided.presenceState.2 input.finishedAt)
  appended : next.attempts.rows = store.attempts.rows ++ [input.row]

/-- An outcome is recorded for the first time, or is found in the log. -/
theorem recordOutcome_cases {input : PresenceInput} {store next : PresenceStore}
    {commit : PresenceAttemptCommit} (sound : Every PresenceRecord.Sound store)
    (done : recordOutcome input store = .ok (commit, next)) :
    (next = store ∧ ∃ existing ∈ store.attempts.rows,
      existing.attemptId = input.attemptId ∧ reconcileRecorded input existing store = .ok commit) ∨
      ∃ record state schedule old decided,
        Concludes input store next record state schedule old decided ∧
        commit = ⟨input.outboxId, input.attemptId, input.targetOrdinal, input.attemptNumber,
          input.outcome, state, decided.presenceState.1⟩ := by
  unfold recordOutcome at done
  split at done
  · rename_i existing logged
    simp only [bind_eq_ok, pure_eq_ok, Prod.mk.injEq] at done
    rcases done with ⟨_, reconciled, rfl, rfl⟩
    exact .inl ⟨rfl, existing, List.mem_of_find?_eq_some logged,
      by simpa using List.find?_some logged, reconciled⟩
  · rename_i unrecorded
    refine .inr ?_
    simp only [readOutbox_of_sound sound, bind_eq_ok, pure_eq_ok, require_eq_ok, orError_eq_ok,
      Except.ok.injEq, exists_eq_left', Prod.mk.injEq] at done
    rcases done with ⟨_, valid, record, found, target, search, -, shape, ⟨state, settled⟩, written,
      targets, read, decided, decides, last, released, rfl, rfl⟩
    rcases writeOutcome_spec written found with
      ⟨schedule, old, settles, ordinal, -, scheduled, keptWritten, loggedWritten, appended,
        settledStored, settledOthers⟩
    rcases release_spec released settledStored with
      ⟨leased, forward, keptReleased, loggedReleased, sameLog, after, others⟩
    have settlement : PresenceRecord.Settlement input.finishedAt record
        (record.settle input state schedule old) := .one rfl settles
    have sorted := ((sound _ _ found).settlement settlement).sorted
    rw [← (stored_eq_some.mp settledStored).2] at sorted
    rw [readTargetRows_of_sorted sorted, (stored_eq_some.mp settledStored).2] at read
    cases read
    have isOrdinal : target.targetOrdinal = input.targetOrdinal := by
      simpa using List.find?_some search
    have isOld := (sound _ _ found).distinct (List.mem_of_find?_eq_some search) settles.mem
      (isOrdinal.trans ordinal.symm)
    subst isOld
    simp only [Bool.and_eq_true, beq_iff_eq] at shape
    refine ⟨record, state, schedule, target, decided, ⟨unrecorded, valid, ordinal, shape.1.1.1.2,
      shape.2, settles, scheduled, decides, forward, ⟨keptWritten.trans keptReleased, ?_, ?_, found,
      after, ?_⟩, ?_⟩, rfl⟩
    · intro logged
      exact loggedReleased (loggedWritten logged)
    · intro other different
      exact (others other different).trans (settledOthers other different)
    · exact .conclude leased forward settlement (.inr ⟨decided, disposition_spec decides, rfl⟩)
    · rw [sameLog, appended]

/-- A recorded outcome settles one target and releases the outbox; an outcome that is recorded
already changes nothing. -/
theorem recordOutcome_spec {input : PresenceInput} {store next : PresenceStore}
    {commit : PresenceAttemptCommit} (sound : Every PresenceRecord.Sound store)
    (done : recordOutcome input store = .ok (commit, next)) :
    next = store ∨ ∃ record released,
      Stepped .conclude input.outboxId store next record released ∧
        next.attempts.rows = store.attempts.rows ++ [input.row] := by
  rcases recordOutcome_cases sound done with
    ⟨same, -⟩ | ⟨record, state, schedule, old, decided, concludes, -⟩
  · exact .inl same
  · exact .inr ⟨record, _, concludes.stepped, concludes.appended⟩

omit [Sha256] [PresenceEvents] in
/-- The loop of a recovery finds at most one submitted target. -/
theorem recoverTargets_spec {row : PresenceRow} {owner : LeaseOwner} {expires now delay : Nat}
    {store next : PresenceStore} {record : PresenceRecord}
    (few : (record.targets.filter fun target => target.state == .submitted) = [] ∨
      ∃ target ∈ record.targets, target.state = .submitted ∧
        (record.targets.filter fun target => target.state == .submitted) = [target])
    (found : stored row.outboxId store = some record)
    (done : recoverTargets row owner expires now delay
      (record.targets.filter fun target => target.state == .submitted) store = .ok next) :
    ∃ settled, PresenceRecord.Settlement now record settled ∧ Kept store next ∧
      (Logged store → Logged next) ∧ stored row.outboxId next = some settled ∧
      (∀ other, other ≠ row.outboxId → stored other next = stored other store) ∧
      ∀ target ∈ record.targets, target.state = .submitted →
        (∃ written ∈ settled.targets, written.targetOrdinal = target.targetOrdinal ∧
          written.state = .unknown ∧ written.attemptCount = target.attemptCount) ∧
        ∃ attempt ∈ next.attempts.rows, attempt.outboxId = row.outboxId ∧
          attempt.targetOrdinal = target.targetOrdinal ∧
          attempt.attemptNumber = target.attemptCount ∧ attempt.outcome = .unknown := by
  rcases few with none | ⟨target, targetMem, submitted, single⟩
  · rw [none] at done
    cases done
    have quiet : Quiet record.targets := by
      intro target targetMem submitted
      have listed : target ∈ record.targets.filter fun target => target.state == .submitted :=
        List.mem_filter.mpr ⟨targetMem, by simp [submitted]⟩
      rw [none] at listed
      cases listed
    refine ⟨record, .none quiet, .refl store, id, found, fun _ _ => rfl, ?_⟩
    intro target targetMem submitted
    exact absurd submitted (quiet target targetMem)
  · rw [single] at done
    simp only [recoverTargets, bind_eq_ok, require_eq_ok, orError_eq_ok, Except.ok.injEq] at done
    rcases done with ⟨attemptId, -, -, -, ⟨state, last⟩, written, rfl⟩
    rcases writeOutcome_spec written found with
      ⟨schedule, old, settles, ordinal, isUnknown, -, kept, logged, appended, after, others⟩
    refine ⟨_, .one rfl settles, kept, logged, after, others, ?_⟩
    intro other otherMem isSubmitted
    have listed : other ∈ record.targets.filter fun target => target.state == .submitted :=
      List.mem_filter.mpr ⟨otherMem, by simp [isSubmitted]⟩
    rw [single] at listed
    have same := List.mem_singleton.mp listed
    subst same
    refine ⟨⟨_, exchanged_mem settles.mem, ordinal, isUnknown, settles.number⟩,
      (recoveryInput row owner expires now delay other attemptId).row, ?_, rfl, rfl, rfl, rfl⟩
    rw [appended]
    exact List.mem_append_right _ (List.mem_singleton.mpr rfl)

/-- A recovery settles the submitted target of an expired lease and releases the outbox; an outbox
that was found outdated is superseded. -/
theorem recoverExpired_spec {candidate : PresenceCandidate} {now : UnixMilliseconds} {delay : Nat}
    {store next : PresenceStore} {done : Unit} (coherent : Every PresenceRecord.Coherent store)
    (recovered : recoverExpired candidate now delay store = .ok (done, next)) :
    ∃ (settled : PresenceRecord) (state : PresenceState) (schedule : Option Nat),
      Stepped .conclude candidate.outbox.row.outboxId store next candidate.outbox
        (settled.release state schedule now.get) ∧
      (candidate.currentDesired = false → state = .superseded) ∧
      ∀ target ∈ candidate.outbox.targets, target.state = .submitted →
        (∃ written ∈ settled.targets, written.targetOrdinal = target.targetOrdinal ∧
          written.state = .unknown ∧ written.attemptCount = target.attemptCount) ∧
        ∃ attempt ∈ next.attempts.rows, attempt.outboxId = candidate.outbox.row.outboxId ∧
          attempt.targetOrdinal = target.targetOrdinal ∧
          attempt.attemptNumber = target.attemptCount ∧ attempt.outcome = .unknown := by
  have sound : Every PresenceRecord.Sound store :=
    fun id record found => (coherent id record found).sound
  simp only [recoverExpired, readOutbox_of_sound sound, bind_eq_ok, require_eq_ok, orError_eq_ok,
    Except.ok.injEq, exists_eq_left', beq_iff_eq] at recovered
  rcases recovered with ⟨-, found, -, -, owner, -, expires, -, settledStore, settles, targets, read,
    ends⟩
  have isCoherent := coherent _ _ found
  rcases recoverTargets_spec isCoherent.submitted found settles with
    ⟨settled, settlement, keptSettled, loggedSettled, settledStored, settledOthers, unknown⟩
  have sorted := (isCoherent.sound.settlement settlement).sorted
  rw [← (stored_eq_some.mp settledStored).2] at sorted
  rw [readTargetRows_of_sorted sorted, (stored_eq_some.mp settledStored).2] at read
  cases read
  have decided : ∃ state schedule, PresenceRecord.Decides settled.targets state schedule ∧
      (candidate.currentDesired = false → state = .superseded) ∧
      release true state schedule now.get candidate.outbox.row.outboxId
        candidate.outbox.row.revision owner.bytes expires settledStore = .ok next := by
    split at ends
    · rename_i current
      simp only [bind_eq_ok, pure_eq_ok, Prod.mk.injEq] at ends
      rcases ends with ⟨decided, decides, _, rfl, last, released, -, rfl⟩
      refine ⟨_, _, .inr ⟨decided, disposition_spec decides, rfl⟩, ?_, released⟩
      intro outdated
      rw [outdated] at current
      cases current
    · simp only [bind_eq_ok, pure_eq_ok, Prod.mk.injEq] at ends
      rcases ends with ⟨_, rfl, last, released, -, rfl⟩
      exact ⟨_, _, .inl ⟨rfl, rfl⟩, fun _ => rfl, released⟩
  rcases decided with ⟨state, schedule, decides, outdated, released⟩
  rcases release_spec released settledStored with
    ⟨leased, forward, keptReleased, loggedReleased, sameLog, after, others⟩
  rw [settlement.row_eq] at leased forward
  refine ⟨settled, state, schedule, ⟨keptSettled.trans keptReleased, ?_, ?_, found, after,
    .conclude leased forward settlement decides⟩, outdated, ?_⟩
  · intro logged
    exact loggedReleased (loggedSettled logged)
  · intro other different
    exact (others other different).trans (settledOthers other different)
  · rw [sameLog]
    exact unknown

end Settling

end Presence

end Rhi
