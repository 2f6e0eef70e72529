import Rhi.Lib.Least
import Rhi.Recording

/-!
# Claims and the clock

A claim selects the first pending outbox that is due and then leases it, unless it was updated later
than the clock now reads.  The selection does not ask for that, so after the clock went back a claim
may lose the outbox it selected.
-/

namespace Rhi

open Relational Transactional

namespace Publication

section Order

variable {due : OutboxRow → Nat}

/-- What the order of outboxes compares. -/
def key (due : OutboxRow → Nat) (row : OutboxRow) : Nat ×ₗ Nat ×ₗ Nat :=
  toLex (due row, toLex (row.createdAt, row.outboxId.toNat))

theorem before_iff {left right : OutboxRow} :
    OutboxRow.before due left right ↔ key due left ≤ key due right := by
  simp [OutboxRow.before, key, Prod.Lex.toLex_le_toLex, BitVec.le_def]

instance : Std.Total (OutboxRow.before due) := total_of_key (key due) fun _ _ => before_iff

instance : IsTrans OutboxRow (OutboxRow.before due) := trans_of_key (key due) fun _ _ => before_iff

/-- The outbox is pending, and its instant has come. -/
def isDue (now : Nat) (row : OutboxRow) : Bool :=
  row.state == .pending && row.nextAttempt.any fun next => decide (next ≤ now)

/-- The outbox is the first one that is due. -/
def First (now : Nat) (store : Store) (row : OutboxRow) : Prop :=
  Least (OutboxRow.before fun row => row.nextAttempt.getD 0) (isDue now) store.outbox.rows row

theorem readClaimableOutbox_iff {now : Nat} {store : Store} {row : OutboxRow} :
    readClaimableOutbox now store.outbox.rows = some row ↔ First now store row := by
  constructor
  · intro selected
    exact least_of_head? selected
  · intro first
    cases selected : readClaimableOutbox now store.outbox.rows with
    | none =>
        have missed := head?_insertionSort_eq_none.mp selected row first.mem
        exact absurd (first.selected.symm.trans missed) (by decide)
    | some other =>
        have isFirst : First now store other := least_of_head? selected
        refine congrArg some (isFirst.unique first ?_)
        intro left right
        have same := le_antisymm (before_iff.mp left) (before_iff.mp right)
        simp only [key, EmbeddingLike.apply_eq_iff_eq, Prod.mk.injEq] at same
        have sameId : other.outboxId = row.outboxId := BitVec.eq_of_toNat_eq same.2.2
        exact Table.eq_of_clash publicationOutbox_clash_comm isFirst.mem first.mem
          (by simp [publicationOutbox, sameId])

end Order

section Claims

/-- A worker can lease the outbox: it is bound to the authority, and the expiry and the next
revision can be stored. -/
structure Leasable (binding : AuthorityBinding) (now : Nat) (row : OutboxRow) : Prop where
  bound : Bound binding row
  fits : now + row.attemptDeadline ≤ maxInteger
  room : row.revision < maxInteger

/-- The lease of an outbox can be written when it was not updated after the instant. -/
theorem claimOutbox_of_due {owner : LeaseOwner} {now : Nat} {store : Store} {row : OutboxRow}
    (rowMem : row ∈ store.outbox.rows) (due : isDue now row = true) (forward : row.updatedAt ≤ now)
    (fits : now + row.attemptDeadline ≤ maxInteger) (room : row.revision < maxInteger) :
    ∃ outbox, store.outbox.update
      (claimOutbox owner (now + row.attemptDeadline) now row.outboxId row.revision) =
        some (outbox, 1) := by
  have checked := store.outbox.checked row rowMem
  simp only [publicationOutbox, Bool.and_eq_true, decide_eq_true_eq] at checked
  rcases checked with ⟨checked, -⟩
  simp only [isDue, Bool.and_eq_true, beq_iff_eq] at due
  have named : ∀ other, (claimOutbox owner (now + row.attemptDeadline) now row.outboxId
      row.revision).selects other = true → other.outboxId = row.outboxId := by
    intro other chosen
    simp only [claimOutbox, Bool.and_eq_true, beq_iff_eq] at chosen
    exact chosen.1.1.1.1
  have grown : row.revision + 1 ≤ maxInteger := room
  have later : row.createdAt ≤ now := by omega
  have bounded : now ≤ maxInteger := by omega
  refine Table.update_of_single publicationOutbox_clash_comm (fun _ _ => rfl)
    (publicationOutbox_keyed named) rowMem ?_ ⟨?_, ?_⟩
  · simp [claimOutbox, due.1, due.2, forward]
  · simp only [publicationOutbox, claimOutbox, Bool.and_eq_true, decide_eq_true_eq]
    refine ⟨⟨checked.1, checked.2.1, checked.2.2.1, checked.2.2.2.1, checked.2.2.2.2.1,
      checked.2.2.2.2.2.1, checked.2.2.2.2.2.2.1, checked.2.2.2.2.2.2.2.1,
      checked.2.2.2.2.2.2.2.2.1, checked.2.2.2.2.2.2.2.2.2.1, checked.2.2.2.2.2.2.2.2.2.2.1,
      by omega, grown, later, bounded, checked.2.2.2.2.2.2.2.2.2.2.2.2.2.2.2⟩, ?_⟩
    have positive : 1 ≤ now + row.attemptDeadline := by omega
    simp [OutboxRow.shaped, fits, positive]
  · simp [publicationOutbox, claimOutbox, OutboxRow.SameIdentity, OutboxRow.transitionAllowed,
      due.1, forward]

theorem claimOutbox_of_behind {owner : LeaseOwner} {expires now : Nat} {store : Store}
    {row : OutboxRow} (rowMem : row ∈ store.outbox.rows) (behind : now < row.updatedAt) :
    ∃ outbox, store.outbox.update (claimOutbox owner expires now row.outboxId row.revision) =
      some (outbox, 0) := by
  refine Table.update_of_skipped ?_
  intro other otherMem
  rw [Bool.eq_false_iff]
  intro chosen
  simp only [claimOutbox, Bool.and_eq_true, beq_iff_eq, decide_eq_true_eq] at chosen
  have same := Table.eq_of_clash publicationOutbox_clash_comm otherMem rowMem
    (by simp [publicationOutbox, chosen.1.1.1.1])
  rw [same] at chosen
  exact absurd chosen.2 (Nat.not_le_of_lt behind)

variable [Sha256] {owner : LeaseOwner} {now : UnixMilliseconds} {binding : AuthorityBinding}
  {store next : Store} {row : OutboxRow}

/-- A claim leases the first outbox that is due, unless it was updated after the instant. -/
theorem claimNext_of_first (orderly : Orderly store) (first : First now.get store row)
    (leasable : Leasable binding now.get row) (forward : row.updatedAt ≤ now.get) :
    ∃ lease next, claimNext owner now binding store = .ok (some lease, next) ∧
      lease.outbox.id = row.outboxId := by
  have selected := readClaimableOutbox_iff.mpr first
  have stored := outboxRow_of_mem first.mem
  have read : snapshot row.outboxId store =
      some ⟨row, targetsOf row.outboxId store, deliveriesOf row.outboxId store⟩ :=
    snapshot_eq_some.mpr ⟨stored, rfl, rfl⟩
  have sound := orderly.sound row.outboxId _ read
  rcases decodeOutbox_of_sound sound with ⟨rowOwner, decoded⟩
  have valid := @validateTargets_of_sound _ row.outboxId store _ rowOwner read sound
  rcases @claimOutbox_of_due owner _ _ _ first.mem first.selected forward leasable.fits
    leasable.room
    with ⟨outbox, updated⟩
  have written : store.updateOutbox (claimOutbox owner (now.get + row.attemptDeadline) now.get
      row.outboxId row.revision) = .ok (1, { store with outbox }) := by
    simp only [Store.updateOutbox, updated, orError, bind, Except.bind, pure, Except.pure]
  have again := readOutbox_of_claim stored written rfl
  have bound : (row.record rowOwner).boundTo binding = true := leasable.bound
  have fits : decide (now.get + (row.record rowOwner).attemptDeadline ≤ maxInteger) = true :=
    decide_eq_true leasable.fits
  refine ⟨⟨((claimOutbox owner (now.get + row.attemptDeadline) now.get row.outboxId
    row.revision).write row).record (some owner), owner, now.get + row.attemptDeadline⟩,
    { store with outbox }, ?_, rfl⟩
  simp only [claimNext, selected, bind_eq_ok, require_eq_ok, orError_eq_ok, pure_eq_ok]
  exact ⟨_, decoded, (), bound, (), valid, (), fits, _, written, (), rfl, _, again, _, rfl, (),
    by simp [OutboxRow.record, claimOutbox], rfl⟩

/-- A claim loses the first outbox that is due when it was updated after the instant. -/
theorem claimNext_of_behind (orderly : Orderly store) (first : First now.get store row)
    (bound : Bound binding row) (fits : now.get + row.attemptDeadline ≤ maxInteger)
    (behind : now.get < row.updatedAt) : claimNext owner now binding store = .error .leaseLost := by
  have selected := readClaimableOutbox_iff.mpr first
  have read : snapshot row.outboxId store =
      some ⟨row, targetsOf row.outboxId store, deliveriesOf row.outboxId store⟩ :=
    snapshot_eq_some.mpr ⟨outboxRow_of_mem first.mem, rfl, rfl⟩
  have sound := orderly.sound row.outboxId _ read
  rcases decodeOutbox_of_sound sound with ⟨rowOwner, decoded⟩
  have valid := @validateTargets_of_sound _ row.outboxId store _ rowOwner read sound
  rcases @claimOutbox_of_behind owner (now.get + row.attemptDeadline) now.get store row first.mem
    behind with ⟨outbox, updated⟩
  have written : store.updateOutbox (claimOutbox owner (now.get + row.attemptDeadline) now.get
      row.outboxId row.revision) = .ok (0, { store with outbox }) := by
    simp only [Store.updateOutbox, updated, orError, bind, Except.bind, pure, Except.pure]
  have isBound : (row.record rowOwner).boundTo binding = true := bound
  have isFitting : decide (now.get + (row.record rowOwner).attemptDeadline ≤ maxInteger) = true :=
    decide_eq_true fits
  simp only [claimNext, selected, bind_eq_error, require_eq_error]
  exact .inr ⟨_, decoded, .inr ⟨(), require_eq_ok.mpr isBound, .inr ⟨(), valid, .inr ⟨(),
    require_eq_ok.mpr isFitting, .inr ⟨_, written, .inl ⟨rfl, trivial⟩⟩⟩⟩⟩⟩

theorem first_of_claimNext {lease : PublicationLease} (orderly : Orderly store)
    (done : claimNext owner now binding store = .ok (some lease, next)) :
    ∃ row, First now.get store row ∧ Leasable binding now.get row ∧ row.updatedAt ≤ now.get ∧
      lease.outbox.id = row.outboxId := by
  have returned := done
  rcases claimNext_spec done with ⟨current, selected, stepped, held⟩
  have first := readClaimableOutbox_iff.mp selected
  have id : lease.outbox.id = current.row.outboxId :=
    (outboxRow_spec (snapshot_eq_some.mp stepped.before).1).2.symm
  have after := next.outbox.checked _ (outboxRow_spec (snapshot_eq_some.mp stepped.after).1).1
  simp only [publicationOutbox, Snapshot.claim, Bool.and_eq_true, decide_eq_true_eq] at after
  have room : current.row.revision < maxInteger := after.1.2.2.2.2.2.2.2.2.2.2.2.2.1
  simp only [claimNext, selected, bind_eq_ok, require_eq_ok, decide_eq_true_eq, decodeOutbox,
    pure_eq_ok] at done
  rcases done with ⟨_, ⟨rowOwner, -, rfl⟩, -, bound, -, -, -, fits, -⟩
  refine ⟨current.row, first, ⟨bound, fits, room⟩, ?_, id⟩
  by_contra late
  rw [claimNext_of_behind orderly first bound fits (Nat.lt_of_not_le late)] at returned
  cases returned

theorem behind_of_claimNext (orderly : Orderly store)
    (failed : claimNext owner now binding store = .error .leaseLost) :
    ∃ row, First now.get store row ∧ Bound binding row ∧
      now.get + row.attemptDeadline ≤ maxInteger ∧ now.get < row.updatedAt := by
  cases selected : readClaimableOutbox now.get store.outbox.rows with
  | none =>
      simp only [claimNext, selected] at failed
      cases failed
  | some row =>
      have first := readClaimableOutbox_iff.mp selected
      refine ⟨row, first, ?_⟩
      have stored := outboxRow_of_mem first.mem
      have read : snapshot row.outboxId store =
          some ⟨row, targetsOf row.outboxId store, deliveriesOf row.outboxId store⟩ :=
        snapshot_eq_some.mpr ⟨stored, rfl, rfl⟩
      rcases decodeOutbox_of_sound (orderly.sound row.outboxId _ read) with ⟨rowOwner, decoded⟩
      simp only [claimNext, selected, decoded, bind_eq_error, require_eq_error, orError_eq_error,
        require_eq_ok, decide_eq_true_eq, reduceCtorEq, and_true, and_false, false_or,
        validateTargets, Except.ok.injEq, exists_eq_left', pure_ne_error, exists_false,
        or_false] at failed
      rcases failed with ⟨-, bound, -, -, -, fits, failed⟩
      refine ⟨bound, fits, ?_⟩
      rcases failed with storage | ⟨⟨affected, next⟩, updated, lost | ⟨-, single, failed⟩⟩
      · cases updateOutbox_error storage
      · by_contra forward
        have due := first.selected
        simp only [isDue, Bool.and_eq_true, beq_iff_eq] at due
        rcases updateOutbox_spec updated with ⟨outbox, result, -⟩
        have counted : affected = store.outbox.rows.countP (claimOutbox owner
            (now.get + row.attemptDeadline) now.get row.outboxId row.revision).selects :=
          (Table.update_spec result).2.1
        have selects : (claimOutbox owner (now.get + row.attemptDeadline) now.get row.outboxId
            row.revision).selects row = true := by
          simp [claimOutbox, due.1, due.2, Nat.le_of_not_lt forward]
        have named : ∀ other, (claimOutbox owner (now.get + row.attemptDeadline) now.get
            row.outboxId row.revision).selects other = true → other.outboxId = row.outboxId := by
          intro other chosen
          simp only [claimOutbox, Bool.and_eq_true, beq_iff_eq] at chosen
          exact chosen.1.1.1.1
        rw [(Table.countP_eq_one_iff (publicationOutbox_keyed named)).mpr
          ⟨row, first.mem, selects⟩] at counted
        simp [counted] at lost
      · have again := readOutbox_of_claim stored updated single
        rw [show readOutbox (row.record rowOwner).id next = _ from again] at failed
        cases failed

/-- What the clock asks of a claim: it leases a due outbox that was not updated after the instant,
and finds none only where there is none. -/
def Tolerant (now : Nat) (store : Store) :
    Except PublicationErrorKind (Option PublicationLease) → Prop
  | .ok none => ∀ row ∈ store.outbox.rows, isDue now row = true → now < row.updatedAt
  | .ok (some lease) => ∃ row ∈ store.outbox.rows, row.outboxId = lease.outbox.id ∧
      isDue now row = true ∧ row.updatedAt ≤ now
  | .error _ => False

theorem claimNext_none_iff : (∃ next, claimNext owner now binding store = .ok (none, next)) ↔
    ∀ row ∈ store.outbox.rows, isDue now.get row = false := by
  cases selected : readClaimableOutbox now.get store.outbox.rows with
  | none =>
      have missed : ∀ row ∈ store.outbox.rows, isDue now.get row = false :=
        head?_insertionSort_eq_none.mp selected
      simp only [claimNext, selected, Except.ok.injEq, Prod.mk.injEq, true_and]
      exact iff_of_true ⟨store, rfl⟩ missed
  | some row =>
      have first := readClaimableOutbox_iff.mp selected
      refine iff_of_false ?_ ?_
      · rintro ⟨next, done⟩
        simp only [claimNext, selected, bind_eq_ok, pure_eq_ok, Prod.mk.injEq, reduceCtorEq,
          false_and, and_false, exists_false] at done
      · intro missed
        exact absurd (first.selected.symm.trans (missed row first.mem)) (by decide)

/-- A claim does what the clock asks exactly when the first due outbox can be leased and was not
updated after the instant. -/
theorem claim_tolerant_iff (orderly : Orderly store) {authority : PublicationAuthority}
    (isBinding : AuthorityBinding.fromAuthority authority = some binding) :
    Tolerant now.get store
        (claimNextPublication .readWriteExisting .acknowledged owner now authority store).1 ↔
      ∀ row, First now.get store row → Leasable binding now.get row ∧ row.updatedAt ≤ now.get := by
  simp only [claimNextPublication, ne_eq, not_true_eq_false, if_false, isBinding, transaction]
  cases answer : claimNext owner now binding store with
  | error error =>
      refine iff_of_false id ?_
      intro leasable
      cases selected : readClaimableOutbox now.get store.outbox.rows with
      | none =>
          simp only [claimNext, selected] at answer
          cases answer
      | some row =>
          have first := readClaimableOutbox_iff.mp selected
          rcases leasable row first with ⟨isLeasable, forward⟩
          rcases claimNext_of_first orderly first isLeasable forward with ⟨lease, next, done, -⟩
          rw [answer] at done
          cases done
  | ok result =>
      rcases result with ⟨leased, next⟩
      cases leased with
      | none =>
          have missed := claimNext_none_iff.mp ⟨next, answer⟩
          refine iff_of_true ?_ ?_
          · intro row rowMem due
            exact absurd (due.symm.trans (missed row rowMem)) (by decide)
          · intro row first
            exact absurd (first.selected.symm.trans (missed row first.mem)) (by decide)
      | some lease =>
          rcases first_of_claimNext orderly answer with ⟨row, first, leasable, forward, sameId⟩
          refine iff_of_true ⟨row, first.mem, sameId.symm, first.selected, forward⟩ ?_
          intro other isFirst
          have same := (readClaimableOutbox_iff.mpr first).symm.trans
            (readClaimableOutbox_iff.mpr isFirst)
          cases same
          exact ⟨leasable, forward⟩

/-- A claim loses the lease of the first due outbox exactly when that outbox was updated after the
instant. -/
theorem claim_leaseLost_iff (orderly : Orderly store) {authority : PublicationAuthority}
    (isBinding : AuthorityBinding.fromAuthority authority = some binding)
    (disposition : Disposition) :
    (claimNextPublication .readWriteExisting disposition owner now authority store).1 =
        .error .leaseLost ↔
      disposition ≠ .aborted ∧ ∃ row, First now.get store row ∧ Bound binding row ∧
        now.get + row.attemptDeadline ≤ maxInteger ∧ now.get < row.updatedAt := by
  simp only [claimNextPublication, ne_eq, not_true_eq_false, if_false, isBinding]
  have distinct := mapPublicationError_distinct .leaseLost (by decide)
  refine (transaction_operation_iff distinct).trans (and_congr_right fun _ => ⟨?_, ?_⟩)
  · exact behind_of_claimNext orderly
  · rintro ⟨row, first, bound, fits, behind⟩
    exact claimNext_of_behind orderly first bound fits behind

end Claims

end Publication

namespace Presence

section Order

variable {due document : PresenceRow → Nat}

/-- What the order of outboxes compares. -/
def key (due document : PresenceRow → Nat) (row : PresenceRow) : Nat ×ₗ Nat ×ₗ Nat ×ₗ Nat :=
  toLex (due row, toLex (row.createdAt, toLex (document row, row.outboxId.toNat)))

theorem before_iff {left right : PresenceRow} :
    before due document left right ↔ key due document left ≤ key due document right := by
  simp [before, key, Prod.Lex.toLex_le_toLex, BitVec.le_def]

instance : Std.Total (before due document) :=
  total_of_key (key due document) fun _ _ => before_iff

instance : IsTrans PresenceRow (before due document) :=
  trans_of_key (key due document) fun _ _ => before_iff

/-- The outbox is pending, its instant has come, and it is current. -/
def isDue (now : Nat) (store : PresenceStore) (row : PresenceRow) : Bool :=
  row.state == .pending && row.nextAttempt.any (fun next => decide (next ≤ now)) &&
    store.desired.rows.any fun desired => desired.generation == row.generation &&
      desired.desired == row.desired

/-- The outbox is the first one that is due. -/
def First (now : Nat) (store : PresenceStore) (row : PresenceRow) : Prop :=
  Least (before (fun row => row.nextAttempt.getD 0) fun row => row.kind.tag) (isDue now store)
    store.outbox.rows row

theorem readClaimable_iff {now : Nat} {store : PresenceStore} {row : PresenceRow} :
    readClaimable now store = some row ↔ First now store row := by
  constructor
  · intro selected
    exact least_of_head? selected
  · intro first
    cases selected : readClaimable now store with
    | none =>
        have missed := head?_insertionSort_eq_none.mp selected row first.mem
        exact absurd (first.selected.symm.trans missed) (by decide)
    | some other =>
        have isFirst : First now store other := least_of_head? selected
        refine congrArg some (isFirst.unique first ?_)
        intro left right
        have same := le_antisymm (before_iff.mp left) (before_iff.mp right)
        simp only [key, EmbeddingLike.apply_eq_iff_eq, Prod.mk.injEq] at same
        have sameId : other.outboxId = row.outboxId := BitVec.eq_of_toNat_eq same.2.2.2
        exact Table.eq_of_clash presenceOutbox_clash_comm isFirst.mem first.mem
          (by simp [presenceOutbox, sameId])

end Order

section Claims

/-- An executor can lease the outbox: the expiry and the next revision can be stored. -/
structure Leasable (now : Nat) (row : PresenceRow) : Prop where
  fits : now + presenceAttemptDeadline ≤ maxInteger
  room : row.revision < maxInteger

theorem claimOutbox_named {owner : LeaseOwner} {expires now revision : Nat} {id : Digest}
    (row : PresenceRow) (chosen : (claimOutbox owner expires now id revision).selects row = true) :
    row.outboxId = id := by
  simp only [claimOutbox, Bool.and_eq_true, beq_iff_eq] at chosen
  exact chosen.1.1.1.1

/-- The lease of an outbox can be written when it was not updated after the instant. -/
theorem claimOutbox_of_due {owner : LeaseOwner} {now : Nat} {store : PresenceStore}
    {row : PresenceRow} (rowMem : row ∈ store.outbox.rows) (due : isDue now store row = true)
    (forward : row.updatedAt ≤ now) (leasable : Leasable now row) :
    ∃ outbox, store.outbox.update
      (claimOutbox owner (now + presenceAttemptDeadline) now row.outboxId row.revision) =
        some (outbox, 1) := by
  have checked := store.outbox.checked row rowMem
  simp only [presenceOutbox, Bool.and_eq_true, decide_eq_true_eq] at checked
  rcases checked with ⟨⟨generation, generationBound, bytes, bytesBound, authored, targets,
    targetsBound, required, -, -, created, -⟩, -⟩
  simp only [isDue, Bool.and_eq_true, beq_iff_eq] at due
  have grown : row.revision + 1 ≤ maxInteger := leasable.room
  have later : row.createdAt ≤ now := created.trans forward
  have fits := leasable.fits
  have bounded : now ≤ maxInteger := by omega
  have positive : 1 ≤ now + presenceAttemptDeadline := by simp [presenceAttemptDeadline]
  refine Table.update_of_single presenceOutbox_clash_comm (fun _ _ => rfl)
    (presenceOutbox_keyed claimOutbox_named) rowMem ?_ ⟨?_, ?_⟩
  · simp [claimOutbox, due.1.1, due.1.2, forward]
  · simp [presenceOutbox, claimOutbox, PresenceRow.shaped, generation, generationBound, bytes,
      bytesBound, authored, targets, targetsBound, required, later, grown, bounded, fits, positive]
  · simp [presenceOutbox, claimOutbox, PresenceRow.SameIdentity, PresenceRow.transitionAllowed,
      due.1.1, forward]

theorem claimOutbox_of_behind {owner : LeaseOwner} {expires now : Nat} {store : PresenceStore}
    {row : PresenceRow} (rowMem : row ∈ store.outbox.rows) (behind : now < row.updatedAt) :
    ∃ outbox, store.outbox.update (claimOutbox owner expires now row.outboxId row.revision) =
      some (outbox, 0) := by
  refine Table.update_of_skipped ?_
  intro other otherMem
  rw [Bool.eq_false_iff]
  intro chosen
  have same := Table.eq_of_clash presenceOutbox_clash_comm otherMem rowMem
    (by simp [presenceOutbox, claimOutbox_named other chosen])
  simp only [claimOutbox, Bool.and_eq_true, decide_eq_true_eq] at chosen
  rw [same] at chosen
  exact absurd chosen.2 (Nat.not_le_of_lt behind)

variable [Sha256] [PresenceEvents] {owner : LeaseOwner} {now : UnixMilliseconds}
  {store next : PresenceStore} {row : PresenceRow}

omit [Sha256] [PresenceEvents] in
/-- An outbox that is due belongs to the desired state. -/
theorem current_of_first (described : Described store) (first : First now.get store row) :
    validateCurrentDesired row store = .ok () := by
  have due := first.selected
  simp only [isDue, Bool.and_eq_true, List.any_eq_true, beq_iff_eq] at due
  rcases due.2 with ⟨desired, desiredMem, current, -⟩
  have read := readDesiredBinding_spec.mpr (desired_single desiredMem)
  simp only [validateCurrentDesired, read, bind_eq_ok, Except.ok.injEq, exists_eq_left',
    require_eq_ok]
  exact described row first.mem desired desiredMem current

/-- A claim leases the first outbox that is due, unless it was updated after the instant. -/
theorem claimNext_of_first (sound : Every PresenceRecord.Sound store) (described : Described store)
    (first : First now.get store row) (leasable : Leasable now.get row)
    (forward : row.updatedAt ≤ now.get) :
    ∃ lease next, claimNext owner now store = .ok (some lease, next) ∧
      lease.outbox.row.outboxId = row.outboxId := by
  have selected := readClaimable_iff.mpr first
  have present := stored_of_mem first.mem
  have valid := validateTargets_of_sound (sound _ _ present)
  rcases @claimOutbox_of_due owner _ _ _ first.mem first.selected forward leasable with
    ⟨outbox, updated⟩
  have due := first.selected
  simp only [isDue, Bool.and_eq_true, beq_iff_eq] at due
  rcases (Option.any_eq_true _ _).mp due.1.2 with ⟨instant, scheduled, reached⟩
  rcases stored_of_row updated rfl claimOutbox_named (fun _ => rfl) with
    ⟨record, isStored, chosen, after, -⟩
  have same := isStored.symm.trans present
  cases same
  have step : PresenceRecord.Step .claim ⟨row, targetsOf row.outboxId store⟩
      (PresenceRecord.claim owner (now.get + presenceAttemptDeadline) now.get
        ⟨row, targetsOf row.outboxId store⟩) :=
    .claim due.1.1 scheduled (by simpa using reached) forward
  have again := readOutbox_of_stored after ((sound _ _ present).step step)
  refine ⟨⟨PresenceRecord.claim owner (now.get + presenceAttemptDeadline) now.get
      ⟨row, targetsOf row.outboxId store⟩, owner, now.get + presenceAttemptDeadline⟩,
    { store with outbox }, ?_, rfl⟩
  simp only [claimNext, selected, bind_eq_ok, require_eq_ok, orError_eq_ok, pure_eq_ok]
  exact ⟨_, readOutbox_of_stored present (sound _ _ present), _, rfl, (),
    current_of_first described first, (), valid, (), decide_eq_true leasable.fits, _, updated,
    (), rfl, _, again, _, rfl, (), by simp [claimOutbox], rfl⟩

/-- A claim loses the first outbox that is due when it was updated after the instant. -/
theorem claimNext_of_behind (sound : Every PresenceRecord.Sound store) (described : Described store)
    (first : First now.get store row) (fits : now.get + presenceAttemptDeadline ≤ maxInteger)
    (behind : now.get < row.updatedAt) : claimNext owner now store = .error .leaseLost := by
  have selected := readClaimable_iff.mpr first
  have present := stored_of_mem first.mem
  have read := readOutbox_of_stored present (sound _ _ present)
  have current := current_of_first described first
  have valid := validateTargets_of_sound (sound _ _ present)
  rcases @claimOutbox_of_behind owner (now.get + presenceAttemptDeadline) now.get store row
    first.mem behind with ⟨outbox, updated⟩
  simp only [claimNext, selected, read, current, valid, updated, decide_eq_true fits, orError,
    require, bind, Except.bind, if_true]
  rfl

theorem first_of_claimNext {lease : PresenceLease} (sound : Every PresenceRecord.Sound store)
    (described : Described store) (done : claimNext owner now store = .ok (some lease, next)) :
    ∃ row, First now.get store row ∧ Leasable now.get row ∧ row.updatedAt ≤ now.get ∧
      lease.outbox.row.outboxId = row.outboxId := by
  have returned := done
  cases selected : readClaimable now.get store with
  | none =>
      simp only [claimNext, selected] at done
      cases done
  | some row =>
      have first := readClaimable_iff.mp selected
      have present := stored_of_mem first.mem
      simp only [claimNext, selected, readOutbox_of_stored present (sound _ _ present), bind_eq_ok,
        require_eq_ok, orError_eq_ok, pure_eq_ok, decide_eq_true_eq, Except.ok.injEq,
        exists_eq_left', Option.some.injEq] at done
      rcases done with ⟨-, -, -, -, -, fits, ⟨outbox, affected⟩, updated, -, single, -⟩
      rcases stored_of_row updated single claimOutbox_named (fun _ => rfl) with
        ⟨record, isStored, -, after, -⟩
      have same := isStored.symm.trans present
      cases same
      have written := outbox.checked _ (storedRow_spec (stored_eq_some.mp after).1).1
      simp only [presenceOutbox, claimOutbox, Bool.and_eq_true, decide_eq_true_eq] at written
      have forward : row.updatedAt ≤ now.get := by
        by_contra late
        rw [claimNext_of_behind sound described first fits (Nat.lt_of_not_le late)] at returned
        cases returned
      have leasable : Leasable now.get row := ⟨fits, written.1.2.2.2.2.2.2.2.2.2.1⟩
      refine ⟨row, first, leasable, forward, ?_⟩
      rcases @claimNext_of_first _ _ owner _ _ _ sound described first leasable forward with
        ⟨leased, last, again, sameId⟩
      rw [returned] at again
      cases again
      exact sameId

theorem readOutbox_error {id : Digest} {failure : PresenceOperationError}
    (failed : readOutbox id store = .error failure) : failure = .invariant := by
  unfold readOutbox at failed
  split at failed
  · cases failed
  · simp only [decodeRecord, readTargetRows, bind_eq_error, require_eq_error, pure_ne_error,
      and_false, exists_false, or_false] at failed
    grind

theorem behind_of_claimNext (sound : Every PresenceRecord.Sound store)
    (failed : claimNext owner now store = .error .leaseLost) :
    ∃ row, First now.get store row ∧ now.get + presenceAttemptDeadline ≤ maxInteger ∧
      now.get < row.updatedAt := by
  cases selected : readClaimable now.get store with
  | none =>
      simp only [claimNext, selected] at failed
      cases failed
  | some row =>
      have first := readClaimable_iff.mp selected
      have present := stored_of_mem first.mem
      simp only [claimNext, selected, readOutbox_of_stored present (sound _ _ present),
        validateCurrentDesired, validateTargets, bind_eq_error, bind_eq_ok, require_eq_error,
        require_eq_ok, orError_eq_error, orError_eq_ok, decide_eq_true_eq, Except.ok.injEq,
        exists_eq_left', Option.some.injEq, reduceCtorEq, and_true, and_false, false_or,
        pure_ne_error, exists_false, or_false] at failed
      rcases failed with unread | ⟨-, -, -, -, -, fits, ⟨outbox, affected⟩, updated, failed⟩
      · unfold readDesiredBinding at unread
        split at unread <;> cases unread
      refine ⟨row, first, fits, ?_⟩
      rcases failed with lost | ⟨-, -, failed⟩
      · by_contra forward
        have due := first.selected
        simp only [isDue, Bool.and_eq_true, beq_iff_eq] at due
        have counted := (Table.update_spec updated).2.1
        have selects : (claimOutbox owner (now.get + presenceAttemptDeadline) now.get row.outboxId
            row.revision).selects row = true := by
          simp [claimOutbox, due.1.1, due.1.2, Nat.le_of_not_lt forward]
        rw [(Table.countP_eq_one_iff (presenceOutbox_keyed claimOutbox_named)).mpr
          ⟨row, first.mem, selects⟩] at counted
        simp [counted] at lost
      · cases readOutbox_error failed

/-- What the clock asks of a claim: it leases a due outbox that was not updated after the instant,
and finds none only where there is none. -/
def Tolerant (now : Nat) (store : PresenceStore) :
    Except PresenceErrorKind (Option PresenceLease) → Prop
  | .ok none => ∀ row ∈ store.outbox.rows, isDue now store row = true → now < row.updatedAt
  | .ok (some lease) => ∃ row ∈ store.outbox.rows, row.outboxId = lease.outbox.row.outboxId ∧
      isDue now store row = true ∧ row.updatedAt ≤ now
  | .error _ => False

theorem missed_of_claimNext (done : claimNext owner now store = .ok (none, next)) :
    ∀ row ∈ store.outbox.rows, isDue now.get store row = false := by
  cases selected : readClaimable now.get store with
  | none => exact head?_insertionSort_eq_none.mp selected
  | some row =>
      simp only [claimNext, selected, bind_eq_ok, pure_eq_ok, Prod.mk.injEq, reduceCtorEq,
        false_and, and_false, exists_false] at done

/-- A claim does what the clock asks exactly when the first due outbox can be leased and was not
updated after the instant. -/
theorem claim_tolerant_iff (sound : Every PresenceRecord.Sound store)
    (described : Described store) :
    Tolerant now.get store
        (claimNextPresence .readWriteExisting .acknowledged owner now store).1 ↔
      ∀ row, First now.get store row → Leasable now.get row ∧ row.updatedAt ≤ now.get := by
  simp only [claimNextPresence, ne_eq, not_true_eq_false, if_false, transaction]
  cases answer : claimNext owner now store with
  | error error =>
      refine iff_of_false id ?_
      intro leasable
      cases selected : readClaimable now.get store with
      | none =>
          simp only [claimNext, selected] at answer
          cases answer
      | some row =>
          have first := readClaimable_iff.mp selected
          rcases leasable row first with ⟨isLeasable, forward⟩
          rcases claimNext_of_first sound described first isLeasable forward with
            ⟨lease, next, done, -⟩
          rw [answer] at done
          cases done
  | ok result =>
      rcases result with ⟨leased, next⟩
      cases leased with
      | none =>
          have missed := missed_of_claimNext answer
          refine iff_of_true ?_ ?_
          · intro row rowMem due
            exact absurd (due.symm.trans (missed row rowMem)) (by decide)
          · intro row first
            exact absurd (first.selected.symm.trans (missed row first.mem)) (by decide)
      | some lease =>
          rcases first_of_claimNext sound described answer with
            ⟨row, first, leasable, forward, sameId⟩
          refine iff_of_true ⟨row, first.mem, sameId.symm, first.selected, forward⟩ ?_
          intro other isFirst
          have same := (readClaimable_iff.mpr first).symm.trans (readClaimable_iff.mpr isFirst)
          cases same
          exact ⟨leasable, forward⟩

/-- A claim loses the lease of the first due outbox exactly when that outbox was updated after the
instant. -/
theorem claim_leaseLost_iff (sound : Every PresenceRecord.Sound store) (described : Described store)
    (disposition : Disposition) :
    (claimNextPresence .readWriteExisting disposition owner now store).1 = .error .leaseLost ↔
      disposition ≠ .aborted ∧ ∃ row, First now.get store row ∧
        now.get + presenceAttemptDeadline ≤ maxInteger ∧ now.get < row.updatedAt := by
  simp only [claimNextPresence, ne_eq, not_true_eq_false, if_false]
  have distinct : ∀ failure, mapPresenceError failure = mapPresenceError (.operation .leaseLost) →
      failure = .operation .leaseLost := by
    intro failure same
    cases failure with
    | operation error => cases error <;> simp [mapPresenceError] at same ⊢
    | aborted | outcomeUnknown => cases same
  refine (transaction_operation_iff distinct).trans (and_congr_right fun _ => ⟨?_, ?_⟩)
  · exact behind_of_claimNext sound
  · rintro ⟨row, first, fits, behind⟩
    exact claimNext_of_behind sound described first fits behind

end Claims

end Presence

namespace Claiming

section Clocks

variable [Sha256] [TradeEvidence] [PresenceEvents]

/-- In every run, at any clock, a claim leases a due outbox that was not updated later, or finds
that there is none, exactly when the first due outbox can be leased and was not updated later; and a
claim loses a lease exactly when the first due outbox was updated later. -/
theorem claims_follow_clock :
    (∀ (moves : List Publication.Move) (owner : LeaseOwner) (now : UnixMilliseconds)
      (authority : PublicationAuthority),
      (AuthorityBinding.fromAuthority authority = none → ∀ disposition,
        (Publication.claimNextPublication .readWriteExisting disposition owner now authority
          (Publication.exec moves .initial).store).1 = .ok none) ∧
      ∀ binding, AuthorityBinding.fromAuthority authority = some binding →
        (Publication.Tolerant now.get (Publication.exec moves .initial).store
            (Publication.claimNextPublication .readWriteExisting .acknowledged owner now authority
              (Publication.exec moves .initial).store).1 ↔
          ∀ row, Publication.First now.get (Publication.exec moves .initial).store row →
            Publication.Leasable binding now.get row ∧ row.updatedAt ≤ now.get) ∧
        ∀ disposition, (Publication.claimNextPublication .readWriteExisting disposition owner now
            authority (Publication.exec moves .initial).store).1 = .error .leaseLost ↔
          disposition ≠ .aborted ∧ ∃ row,
            Publication.First now.get (Publication.exec moves .initial).store row ∧
            Publication.Bound binding row ∧ now.get + row.attemptDeadline ≤ maxInteger ∧
            now.get < row.updatedAt) ∧
    ∀ (moves : List Presence.Move) (owner : LeaseOwner) (now : UnixMilliseconds),
      (Presence.Tolerant now.get (Presence.System.exec moves .initial).store
          (Presence.claimNextPresence .readWriteExisting .acknowledged owner now
            (Presence.System.exec moves .initial).store).1 ↔
        ∀ row, Presence.First now.get (Presence.System.exec moves .initial).store row →
          Presence.Leasable now.get row ∧ row.updatedAt ≤ now.get) ∧
      ∀ disposition, (Presence.claimNextPresence .readWriteExisting disposition owner now
          (Presence.System.exec moves .initial).store).1 = .error .leaseLost ↔
        disposition ≠ .aborted ∧ ∃ row,
          Presence.First now.get (Presence.System.exec moves .initial).store row ∧
          now.get + presenceAttemptDeadline ≤ maxInteger ∧ now.get < row.updatedAt := by
  constructor
  · intro moves owner now authority
    have orderly := Publication.orderly_exec moves
    constructor
    · intro disabled disposition
      simp only [Publication.claimNextPublication, ne_eq, not_true_eq_false, if_false, disabled]
    · intro binding isBinding
      exact ⟨Publication.claim_tolerant_iff orderly isBinding,
        fun disposition => Publication.claim_leaseLost_iff orderly isBinding disposition⟩
  · intro moves owner now
    have sound := (Presence.lawful_exec moves).sound
    have described := Presence.described_exec moves
    exact ⟨Presence.claim_tolerant_iff sound described,
      fun disposition => Presence.claim_leaseLost_iff sound described disposition⟩

end Clocks

section Exceptions

namespace Sample

open Rhi.Sample Publication.Sample

local instance : Sha256 := ⟨Hashing.sha256⟩

local instance : TradeEvidence where
  Mutation := Unit
  mutationId _ := none
  tradeId _ := trade
  acceptsSourceId _ := true
  acceptsSourceResult _ _ _ := true
  manifest _ := none
  decode _ := none
  reduce _ _ _ _ := ⟨none, none, .missing, 0, [], [], [], [], false⟩

local instance : PresenceEvents := Presence.Sample.instPresenceEvents

/-- Two required relays, with two attempts each. -/
def documentOfTwo : PublicationDocument := { document with
  relays := [⟨source, true, true⟩, ⟨Publication.Sample.backup, true, true⟩]
  publication := .required [source, Publication.Sample.backup] ⟨2, 1000, 10000, 5000⟩ }

def bothRelays : Publication.Authorized :=
  ⟨documentOfTwo, (deriveAuthority documentOfTwo).get (by decide +kernel),
    (Option.some_get _).symm⟩

def committed : List Publication.Move :=
  calls.pmap Publication.Move.service Publication.Sample.calls_publish ++
    [.finalize .acknowledged signed bothRelays finalizedAt]

def lease : Option PublicationLease :=
  (Publication.claimNextPublication host.mode .acknowledged owner publishedAt bothRelays.authority
    (Publication.exec committed .initial).store).1.toOption.join

def taken : List Publication.Move :=
  committed ++ [.claim .acknowledged owner publishedAt bothRelays]

def started : Option PreparedAttempt := lease.bind fun lease =>
  (Publication.prepareNextPublicationTarget host.mode .acknowledged lease publishedAt
    (Publication.exec taken .initial).store).1.toOption

/-- The first relay fails, while the second one has been due since the report was committed. -/
def failed : List Publication.Move := taken ++
  (lease.toList.map fun lease => .prepare .acknowledged lease publishedAt) ++
  (started.toList.map fun attempt =>
    .record .acknowledged attempt Recording.Sample.finishedAt .failed 500)

def binding : AuthorityBinding :=
  (AuthorityBinding.fromAuthority bothRelays.authority).get (by decide +kernel)

/-- What the failure leaves. -/
theorem failed_evaluated :
    ((∃ row ∈ (Publication.exec failed .initial).store.outbox.rows,
        Publication.isDue publishedAt.get row = true) ∧
      (Publication.claimNextPublication host.mode .acknowledged owner publishedAt
        bothRelays.authority (Publication.exec failed .initial).store).1 = .error .leaseLost) ∧
    ∀ row ∈ (Publication.exec failed .initial).store.outbox.rows,
      (Publication.Bound binding row ∧
        Recording.Sample.finishedAt.get + row.attemptDeadline ≤ maxInteger ∧
        row.revision < maxInteger) ∧ row.updatedAt ≤ Recording.Sample.finishedAt.get := by
  decide +kernel

/-- After the failure the clock reads the instant of the claim again: the outbox is due, because of
the second relay, and the claim loses it. -/
theorem regressed_clock_loses_lease :
    (∃ row ∈ (Publication.exec failed .initial).store.outbox.rows,
      Publication.isDue publishedAt.get row = true) ∧
    (Publication.claimNextPublication host.mode .acknowledged owner publishedAt bothRelays.authority
      (Publication.exec failed .initial).store).1 = .error .leaseLost :=
  failed_evaluated.1

/-- At the instant of the failure both claims do what the clock asks. -/
theorem steady_clock_leases :
    Publication.Tolerant Recording.Sample.finishedAt.get (Publication.exec failed .initial).store
      (Publication.claimNextPublication .readWriteExisting .acknowledged owner
        Recording.Sample.finishedAt bothRelays.authority
        (Publication.exec failed .initial).store).1 ∧
    Presence.Tolerant Presence.Sample.committedAt.get
      (Presence.System.exec Recording.Sample.presenceCommitted .initial).store
      (Presence.claimNextPresence .readWriteExisting .acknowledged owner Presence.Sample.committedAt
        (Presence.System.exec Recording.Sample.presenceCommitted .initial).store).1 := by
  constructor
  · have facts := failed_evaluated.2
    rw [((claims_follow_clock.1 failed owner Recording.Sample.finishedAt
      bothRelays.authority).2 binding (Option.some_get _).symm).1]
    intro row first
    rcases facts row first.mem with ⟨⟨bound, fits, room⟩, forward⟩
    exact ⟨⟨bound, fits, room⟩, forward⟩
  · have facts : ∀ row ∈ (Presence.System.exec Recording.Sample.presenceCommitted
        .initial).store.outbox.rows,
          (Presence.Sample.committedAt.get + presenceAttemptDeadline ≤ maxInteger ∧
            row.revision < maxInteger) ∧ row.updatedAt ≤ Presence.Sample.committedAt.get := by
      decide +kernel
    rw [(claims_follow_clock.2 Recording.Sample.presenceCommitted owner
      Presence.Sample.committedAt).1]
    intro row first
    rcases facts row first.mem with ⟨⟨fits, room⟩, forward⟩
    exact ⟨⟨fits, room⟩, forward⟩

end Sample

end Exceptions

end Claiming

end Rhi
