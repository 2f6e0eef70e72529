import Mathlib.Data.List.Forall2
import Rhi.Presence.Effects

/-!
# Commits of presence documents

A commit of signed documents supersedes the waiting outboxes of earlier generations and inserts one
outbox with its targets for each document, or finds the generation committed already.
-/

namespace Rhi

open Relational Transactional
open Publication (Sorted readTargets_eq_filter targetsValid_congr targetsValid_spec)

namespace Presence

section Inserting

/-- Every target belongs to a stored outbox. -/
def Referenced (store : PresenceStore) : Prop :=
  ∀ id, storedRow id store = none → targetsOf id store = []

theorem referenced_of_kept {before after : PresenceStore} (kept : Kept before after)
    (referenced : Referenced before) : Referenced after := by
  intro id absent
  have unknown : storedRow id before = none := by
    refine List.find?_eq_none.mpr ?_
    intro row rowMem
    rcases kept.symm.origin rowMem with ⟨next, nextMem, same⟩
    have missed := List.find?_eq_none.mp absent next nextMem
    rw [show next.outboxId = row.outboxId from congrArg (·.outboxId) same.symm] at missed
    exact missed
  have none := referenced id unknown
  refine List.filter_eq_nil_iff.mpr ?_
  intro target targetMem isOf
  have listed := List.mem_map_of_mem (f := TargetRow.slot) targetMem
  rw [kept.slots] at listed
  rcases List.mem_map.mp listed with ⟨old, oldMem, same⟩
  refine List.filter_eq_nil_iff.mp none old oldMem ?_
  rw [show old.outboxId = target.outboxId from congrArg (·.1) same]
  exact isOf

theorem insertTargets_spec {outbox : Digest} {committedAt : Nat} {list : List PublicationTarget}
    {targets next : Table presenceTargets}
    (done : insertTargets outbox committedAt list targets = some next) :
    next.rows = targets.rows ++ list.map (targetRow outbox committedAt) := by
  induction list generalizing targets with
  | nil =>
      cases done
      simp
  | cons target rest ih =>
      simp only [insertTargets, Option.bind_eq_bind, Option.bind_eq_some_iff] at done
      rcases done with ⟨inserted, isInserted, others⟩
      rw [ih others, (Table.insert_spec isInserted).1]
      simp

variable [Sha256]

/-- The outbox a document is committed as. -/
def committed (documents : SignedDocuments) (desired : DesiredRow) (committedAt : Nat)
    (document : SignedDocument) : PresenceRecord :=
  let row := outboxRow documents desired committedAt document
  ⟨row, documents.targets.map (targetRow row.outboxId committedAt)⟩

omit [Sha256] in
/-- The insertion of one outbox with its targets. -/
theorem stored_of_insert {store : PresenceStore} {row : PresenceRow} {added : List TargetRow}
    {outbox : Table presenceOutbox} {targets : Table presenceTargets}
    (referenced : Referenced store) (inserted : store.outbox.insert row = some outbox)
    (rows : targets.rows = store.targets.rows ++ added)
    (named : ∀ target ∈ added, target.outboxId = row.outboxId) :
    stored row.outboxId store = none ∧
      stored row.outboxId { store with outbox, targets } = some ⟨row, added⟩ ∧
      (∀ id, id ≠ row.outboxId → stored id { store with outbox, targets } = stored id store) ∧
      Referenced { store with outbox, targets } := by
  rcases Table.insert_spec inserted with ⟨outboxRows, -, -, apart⟩
  have absent : storedRow row.outboxId store = none := by
    refine List.find?_eq_none.mpr ?_
    intro stored storedMem same
    have clash := apart stored storedMem
    simp only [presenceOutbox, Bool.or_eq_false_iff] at clash
    rw [clash.1] at same
    cases same
  have rowOf : ∀ id, storedRow id { store with outbox, targets } =
      (storedRow id store).or (if row.outboxId = id then some row else none) := by
    intro id
    unfold storedRow
    rw [outboxRows, List.find?_append]
    congr 1
    by_cases same : row.outboxId = id
    · simp [same]
    · simp [same]
  have targetsFor : ∀ id, targetsOf id { store with outbox, targets } =
      targetsOf id store ++ if row.outboxId = id then added else [] := by
    intro id
    unfold targetsOf
    rw [rows, List.filter_append]
    congr 1
    by_cases same : row.outboxId = id
    · rw [if_pos same, List.filter_eq_self]
      intro target targetMem
      simp [named target targetMem, same]
    · rw [if_neg same, List.filter_eq_nil_iff]
      intro target targetMem
      simp [named target targetMem, same]
  refine ⟨by simp [stored, absent], ?_, ?_, ?_⟩
  · rw [stored_eq_some, rowOf, targetsFor, absent, referenced _ absent]
    simp
  · intro id different
    unfold stored
    rw [rowOf, targetsFor, if_neg (Ne.symm different), if_neg (Ne.symm different), Option.or_none,
      List.append_nil]
  · intro id unknown
    rw [rowOf, Option.or_eq_none_iff] at unknown
    have different : ¬row.outboxId = id := by
      intro same
      rw [if_pos same] at unknown
      cases unknown.2
    rw [targetsFor, if_neg different, List.append_nil]
    exact referenced id unknown.1

/-- What the insertion of documents leaves of a store. -/
structure Inserted (documents : SignedDocuments) (desired : DesiredRow) (committedAt : Nat)
    (list : List SignedDocument) (before after : PresenceStore) : Prop where
  bindings : after.configBindings = before.configBindings
  desiredState : after.desired = before.desired
  attempts : after.attempts = before.attempts
  targets : before.targets.rows <+: after.targets.rows
  rows : after.outbox.rows =
    before.outbox.rows ++ list.map (outboxRow documents desired committedAt)
  referenced : Referenced after
  fresh : ∀ document ∈ list,
    stored (outboxRow documents desired committedAt document).outboxId before = none ∧
      stored (outboxRow documents desired committedAt document).outboxId after =
        some (committed documents desired committedAt document)
  others : ∀ id, (∀ document ∈ list,
      id ≠ (outboxRow documents desired committedAt document).outboxId) →
    stored id after = stored id before

theorem insertDocuments_spec {documents : SignedDocuments} {desired : DesiredRow}
    {committedAt : Nat} {list : List SignedDocument} {store next : PresenceStore}
    (referenced : Referenced store)
    (done : insertDocuments documents desired committedAt list store = some next) :
    Inserted documents desired committedAt list store next := by
  induction list generalizing store with
  | nil =>
      cases done
      exact ⟨rfl, rfl, rfl, List.prefix_rfl, by simp, referenced, by simp, fun _ _ => rfl⟩
  | cons document rest ih =>
      simp only [insertDocuments, Option.bind_eq_bind, Option.bind_eq_some_iff] at done
      rcases done with ⟨outbox, inserted, targets, targetsInserted, others⟩
      have named : ∀ target ∈ documents.targets.map (targetRow (outboxRow documents desired
          committedAt document).outboxId committedAt),
          target.outboxId = (outboxRow documents desired committedAt document).outboxId := by
        intro target targetMem
        rcases List.mem_map.mp targetMem with ⟨_, -, rfl⟩
        rfl
      rcases stored_of_insert referenced inserted (insertTargets_spec targetsInserted) named with
        ⟨absent, present, unchanged, stillReferenced⟩
      have later := ih stillReferenced others
      have headApart : ∀ other ∈ rest, (outboxRow documents desired committedAt document).outboxId ≠
          (outboxRow documents desired committedAt other).outboxId := by
        intro other otherMem same
        have unknown := (later.fresh other otherMem).1
        rw [← same, present] at unknown
        cases unknown
      refine ⟨later.bindings, later.desiredState, later.attempts, ?_, ?_, later.referenced, ?_, ?_⟩
      · refine List.IsPrefix.trans ?_ later.targets
        exact ⟨_, (insertTargets_spec targetsInserted).symm⟩
      · rw [later.rows, (Table.insert_spec inserted).1]
        simp
      · intro other otherMem
        rcases List.mem_cons.mp otherMem with rfl | otherMem
        · refine ⟨absent, ?_⟩
          rw [later.others _ headApart]
          exact present
        · rcases later.fresh other otherMem with ⟨unknown, isStored⟩
          rw [unchanged _ (headApart other otherMem).symm] at unknown
          exact ⟨unknown, isStored⟩
      · intro id apart
        rw [later.others id fun other otherMem => apart other (List.mem_cons_of_mem _ otherMem)]
        exact unchanged id (apart document List.mem_cons_self)

end Inserting

section Matching

theorem exists_of_forall₂ {Left Right : Type} {related : Left → Right → Prop} {left : List Left}
    {right : List Right} (all : List.Forall₂ related left right) {value : Right}
    (valueMem : value ∈ right) : ∃ other ∈ left, related other value := by
  induction all with
  | nil => cases valueMem
  | cons head _ ih =>
      rcases List.mem_cons.mp valueMem with rfl | valueMem
      · exact ⟨_, List.mem_cons_self, head⟩
      · rcases ih valueMem with ⟨other, otherMem, isRelated⟩
        exact ⟨other, List.mem_cons_of_mem _ otherMem, isRelated⟩

theorem presenceOutbox_kinds (store : PresenceStore) (generation : Nat) :
    ((store.outbox.rows.filter fun row => row.generation == generation).map (·.kind)).Nodup := by
  rw [List.Nodup, List.pairwise_map, List.pairwise_filter]
  refine store.outbox.distinct.imp ?_
  intro left right apart leftOf rightOf same
  simp only [beq_iff_eq] at leftOf rightOf
  simp [presenceOutbox, leftOf, rightOf, same] at apart

/-- A generation has at most one outbox for each kind of document. -/
theorem generation_length_le (store : PresenceStore) (generation : Nat) :
    (store.outbox.rows.filter fun row => row.generation == generation).length ≤ 2 := by
  have listed : ((store.outbox.rows.filter fun row => row.generation == generation).map
      (·.kind)) ⊆ [DocumentKind.serviceProfile, DocumentKind.applicationHandler] := by
    intro kind _
    cases kind <;> simp
  have bounded := List.Subperm.length_le
    (List.subperm_of_subset (presenceOutbox_kinds store generation) listed)
  simpa using bounded

theorem generationRows_perm (generation : Nat) (store : PresenceStore) :
    (generationRows generation store).Perm
      (store.outbox.rows.filter fun row => row.generation == generation) := by
  have few := generation_length_le store generation
  unfold generationRows
  rw [List.take_of_length_le]
  · exact List.perm_insertionSort _ _
  · rw [List.length_insertionSort]
    omega

theorem mem_generationRows {generation : Nat} {store : PresenceStore} {row : PresenceRow} :
    row ∈ generationRows generation store ↔
      row ∈ store.outbox.rows ∧ row.generation = generation := by
  rw [(generationRows_perm generation store).mem_iff, List.mem_filter, beq_iff_eq]

variable [Sha256] [PresenceEvents]

theorem mapM_decodeRecord {store : PresenceStore} {rows : List PresenceRow}
    {records : List PresenceRecord} (read : rows.mapM (decodeRecord store) = .ok records) :
    records = rows.map fun row => ⟨row, readTargets row.outboxId store.targets.rows⟩ := by
  induction rows generalizing records with
  | nil =>
      cases read
      rfl
  | cons row rest ih =>
      simp only [List.mapM_cons, decodeRecord, readTargetRows, bind_eq_ok, pure_eq_ok,
        require_eq_ok] at read
      rcases read with ⟨_, ⟨-, -, _, ⟨-, -, rfl⟩, rfl⟩, others, isRead, rfl⟩
      rw [ih isRead, List.map_cons]

/-- The outboxes of a generation, as they are read. -/
theorem readGenerationOutboxes_spec {generation : Nat} {store : PresenceStore}
    {records : List PresenceRecord}
    (read : readGenerationOutboxes generation store = .ok records) :
    records = (generationRows generation store).map fun row =>
      ⟨row, readTargets row.outboxId store.targets.rows⟩ := by
  simp only [readGenerationOutboxes, bind_eq_ok, require_eq_ok] at read
  rcases read with ⟨_, -, read⟩
  exact mapM_decodeRecord read

theorem readGenerationOutboxes_of_sound {store : PresenceStore}
    (sound : Every PresenceRecord.Sound store) (generation : Nat) :
    readGenerationOutboxes generation store = .ok ((generationRows generation store).map fun row =>
      ⟨row, targetsOf row.outboxId store⟩) := by
  have few : (generationRows generation store).length ≤ 2 := by
    rw [(generationRows_perm generation store).length_eq]
    exact generation_length_le store generation
  have decodes : ∀ rows : List PresenceRow, (∀ row ∈ rows, row ∈ store.outbox.rows) →
      rows.mapM (decodeRecord store) = .ok (rows.map fun row =>
        ⟨row, targetsOf row.outboxId store⟩) := by
    intro rows members
    induction rows with
    | nil => rfl
    | cons row rest ih =>
        have isSound := sound _ _ (stored_of_mem (members row List.mem_cons_self))
        have decoded : decodeRecord store row = .ok ⟨row, targetsOf row.outboxId store⟩ := by
          simp [decodeRecord, isSound.decodable, readTargetRows_of_sorted isSound.sorted, require,
            bind, Except.bind, pure, Except.pure]
        simp [List.mapM_cons, decoded, ih fun other otherMem =>
          members other (List.mem_cons_of_mem _ otherMem), bind, Except.bind, pure, Except.pure]
  simp only [readGenerationOutboxes, require, few, decide_true, if_true, bind, Except.bind]
  exact decodes _ fun row rowMem => (mem_generationRows.mp rowMem).1

/-- A document set is one of verified documents of the desired kinds. -/
structure Verified (documents : SignedDocuments) (desired : DesiredRow) : Prop where
  state : documents.desiredState = desired
  count : documents.targets.length = desired.targetCount
  key : PresenceEvents.validPublicKey documents.servicePublicKey = true
  listed : List.Forall₂ (fun document kind => document.kind = kind ∧
    Sha256.digest document.signedEvent = document.eventDigest ∧
    validateSignedDocument document.kind documents.servicePublicKey document.createdAt
      document.signedEvent = some document.eventId) documents.documents desired.documentKinds

theorem validateDocumentSet_spec {documents : SignedDocuments} {desired : DesiredRow} {done : Unit}
    (valid : validateDocumentSet documents desired = .ok done) : Verified documents desired := by
  simp only [validateDocumentSet, bind_eq_ok, require_eq_ok, Bool.and_eq_true, beq_iff_eq,
    List.all_eq_true, Prod.forall, decide_eq_true_eq] at valid
  rcases valid with ⟨-, ⟨⟨⟨⟨state, count⟩, lengths⟩, -⟩, key⟩, documentsValid⟩
  refine ⟨state, count, key, List.forall₂_iff_zip.mpr ⟨lengths, ?_⟩⟩
  intro document kind paired
  have checked := documentsValid document kind paired
  exact ⟨checked.1.1.1.1, checked.1.2, checked.2⟩

theorem Verified.of_mem {documents : SignedDocuments} {desired : DesiredRow}
    (verified : Verified documents desired) {document : SignedDocument}
    (documentMem : document ∈ documents.documents) :
    document.kind ∈ desired.documentKinds ∧
      Sha256.digest document.signedEvent = document.eventDigest ∧
      validateSignedDocument document.kind documents.servicePublicKey document.createdAt
        document.signedEvent = some document.eventId := by
  rcases exists_of_forall₂ verified.listed.flip documentMem with
    ⟨kind, kindMem, rfl, digest, isSigned⟩
  exact ⟨kindMem, digest, isSigned⟩

/-- The outbox was committed with the document. -/
structure Matched (documents : SignedDocuments) (document : SignedDocument)
    (record : PresenceRecord) : Prop where
  generation : record.row.generation = documents.desiredState.generation
  desired : record.row.desired = documents.desiredState.desired
  targetSet : record.row.targetSet = documents.desiredState.targetSet
  count : record.row.targetCount = documents.desiredState.targetCount
  required : record.row.requiredTargetCount = documents.desiredState.requiredTargetCount
  outbox : record.row.outboxId = deriveOutboxId record.row.generation document.kind
    record.row.desired document.eventDigest
  kind : document.kind = record.row.kind
  event : document.eventId = record.row.eventId
  digest : document.eventDigest = record.row.eventDigest
  bytes : document.signedEvent = record.row.signedEvent
  authored : document.createdAt = record.row.authoredAt
  key : documents.servicePublicKey = record.row.servicePublicKey
  targets : ∀ expected actual, (expected, actual) ∈ documents.targets.zip record.targets →
    expected = actual.target

omit [PresenceEvents] in
theorem documentMatches_iff {documents : SignedDocuments} {document : SignedDocument}
    {record : PresenceRecord} :
    documentMatches documents document record = true ↔ Matched documents document record := by
  simp only [documentMatches, Bool.and_eq_true, beq_iff_eq, List.all_eq_true, Prod.forall]
  constructor
  · rintro ⟨⟨⟨⟨⟨⟨⟨⟨⟨⟨⟨⟨generation, desired⟩, targetSet⟩, count⟩, required⟩, outbox⟩, kind⟩, event⟩,
      digest⟩, bytes⟩, authored⟩, key⟩, targets⟩
    exact ⟨generation, desired, targetSet, count, required, outbox, kind, event, digest, bytes,
      authored, key, targets⟩
  · intro matched
    exact ⟨⟨⟨⟨⟨⟨⟨⟨⟨⟨⟨⟨matched.generation, matched.desired⟩, matched.targetSet⟩, matched.count⟩,
      matched.required⟩, matched.outbox⟩, matched.kind⟩, matched.event⟩, matched.digest⟩,
      matched.bytes⟩, matched.authored⟩, matched.key⟩, matched.targets⟩

omit [PresenceEvents] in
theorem documentsMatch_spec {documents : SignedDocuments} {list : List SignedDocument}
    {records : List PresenceRecord} (lengths : list.length = records.length) :
    documentsMatch documents (list.zip records) = .ok true ↔
      List.Forall₂ (fun document record => Matched documents document record ∧
        validateTargets record.row record.targets = .ok ()) list records := by
  induction list generalizing records with
  | nil =>
      cases records with
      | nil => simp [documentsMatch]
      | cons => cases lengths
  | cons document rest ih =>
      cases records with
      | nil => cases lengths
      | cons record others =>
          simp only [List.length_cons, Nat.add_right_cancel_iff] at lengths
          simp only [List.zip_cons_cons, documentsMatch, List.forall₂_cons, ← documentMatches_iff]
          by_cases isMatch : documentMatches documents document record = true
          · rw [if_pos isMatch, bind_eq_ok]
            simp only [isMatch, ih lengths, true_and, documentMatches_iff]
            exact ⟨fun ⟨_, valid, others⟩ => ⟨valid, others⟩, fun ⟨valid, others⟩ =>
              ⟨(), valid, others⟩⟩
          · rw [if_neg isMatch]
            simp [isMatch]

omit [PresenceEvents] in
theorem generationMatches_spec {documents : SignedDocuments} {records : List PresenceRecord} :
    generationMatches documents records = .ok true ↔
      List.Forall₂ (fun document record => Matched documents document record ∧
        validateTargets record.row record.targets = .ok ()) documents.documents records := by
  unfold generationMatches
  by_cases lengths : documents.documents.length = records.length
  · rw [if_neg (by simpa using lengths)]
    exact documentsMatch_spec lengths
  · rw [if_pos lengths]
    constructor
    · intro impossible
      cases impossible
    · intro related
      exact absurd related.length_eq lengths

end Matching

section Committing

variable [Sha256] [PresenceEvents]

omit [Sha256] [PresenceEvents] in
/-- Targets that wait for their first attempt. -/
theorem tracked_of_pending {leased : Bool} {targets : List TargetRow}
    (pending : ∀ target ∈ targets, target.state = .pending ∧ target.attemptCount = 0 ∧
      target.nextAttempt.isSome = true) : Tracked presenceMaxAttempts leased targets := by
  have idle : ∀ target ∈ targets, target.state ≠ .submitted := by
    intro target targetMem submitted
    rw [(pending target targetMem).1] at submitted
    cases submitted
  refine ⟨?_, ?_, ?_, ?_, ?_, ?_⟩
  · intro left leftMem _ _ submitted
    exact absurd submitted (idle left leftMem)
  · intro target targetMem submitted
    exact absurd submitted (idle target targetMem)
  · intro target targetMem submitted
    exact absurd submitted (idle target targetMem)
  · intro target targetMem _
    rw [(pending target targetMem).1]
    rfl
  · intro target targetMem _ _
    exact (pending target targetMem).2.2
  · intro target targetMem
    rw [(pending target targetMem).2.1]
    exact Nat.zero_le _

omit [Sha256] [PresenceEvents] in
theorem map_target_targetRow (outbox : Digest) (committedAt : Nat)
    (targets : List PublicationTarget) :
    (targets.map (targetRow outbox committedAt)).map TargetRow.target = targets := by
  rw [List.map_map]
  exact List.map_id targets

/-- The outbox of a verified document with a valid inventory is coherent, and has a due target. -/
theorem committed_coherent {documents : SignedDocuments} {desired : DesiredRow} {committedAt : Nat}
    {document : SignedDocument} (verified : Verified documents desired)
    (documentMem : document ∈ documents.documents)
    (valid : targetsValid presenceTargetSet desired.targetCount desired.requiredTargetCount
      desired.targetSet (committed documents desired committedAt document).targets = true)
    (nonempty : documents.targets ≠ []) :
    (committed documents desired committedAt document).Coherent ∧
      (committed documents desired committedAt document).Startable := by
  rcases verified.of_mem documentMem with ⟨-, digest, isSigned⟩
  have pending : ∀ target ∈ (committed documents desired committedAt document).targets,
      target.state = .pending ∧ target.attemptCount = 0 ∧
        target.nextAttempt = some committedAt ∧ target.updatedAt = committedAt := by
    intro target targetMem
    rcases List.mem_map.mp targetMem with ⟨_, -, rfl⟩
    exact ⟨rfl, rfl, rfl, rfl⟩
  refine ⟨⟨⟨?_, valid, ?_, ?_, ?_⟩, ⟨tracked_of_pending ?_, ?_, ?_, ?_⟩⟩, ⟨?_, ?_⟩⟩
  · intro target targetMem
    rcases List.mem_map.mp targetMem with ⟨_, -, rfl⟩
    rfl
  · intro empty
    exact nonempty (List.map_eq_nil_iff.mp empty)
  · simp [committed, decodable, outboxRow, digest, verified.key]
  · simp [committed, outboxRow, isSigned]
  · intro target targetMem
    rcases pending target targetMem with ⟨state, count, scheduled, -⟩
    exact ⟨state, count, by simp [scheduled]⟩
  · intro target targetMem submitted
    rw [(pending target targetMem).1] at submitted
    cases submitted
  · intro target targetMem _
    exact Nat.le_of_eq (pending target targetMem).2.2.2
  · intro impossible
    cases impossible
  · intro target targetMem _ _
    rw [(pending target targetMem).2.1]
    decide
  · intro _
    rcases List.exists_mem_of_ne_nil _ nonempty with ⟨target, targetMem⟩
    refine ⟨committedAt, rfl, targetRow _ committedAt target, List.mem_map_of_mem targetMem, ?_⟩
    simp [targetRow, TargetRow.isDue, TargetState.retryable, presenceMaxAttempts]

/-- A matched record has the targets of its documents. -/
theorem Matched.targets_eq {documents : SignedDocuments} {document : SignedDocument}
    {desired : DesiredRow} {record : PresenceRecord} (matched : Matched documents document record)
    (verified : Verified documents desired)
    (valid : validateTargets record.row record.targets = .ok ()) :
    documents.targets = record.targets.map TargetRow.target := by
  have lengths : documents.targets.length = record.targets.length := by
    rw [(targetsValid_spec (validateTargets_of_valid.mp valid).1).2.2.1, matched.count,
      verified.state, verified.count]
  have related : List.Forall₂ (fun expected actual => expected = actual.target)
      documents.targets record.targets :=
    List.forall₂_iff_zip.mpr
      ⟨lengths, fun {expected actual} paired => matched.targets expected actual paired⟩
  rw [← List.forall₂_eq_eq_eq, List.forall₂_map_right_iff]
  exact related

/-- A commit that inserts a generation. -/
structure Opened (documents : SignedDocuments) (desired : DesiredRow) (committedAt : Nat)
    (before after : PresenceStore) : Prop where
  absent : generationRows desired.generation before = []
  later : ∀ document ∈ documents.documents, ∀ row ∈ before.outbox.rows,
    row.kind = document.kind → row.authoredAt < document.createdAt
  superseded : ∃ outbox affected, before.outbox.update (supersedeOutbox desired.generation
      committedAt) = some (outbox, affected) ∧
    Inserted documents desired committedAt documents.documents { before with outbox } after
  fresh : ∀ document ∈ documents.documents,
    (committed documents desired committedAt document).Coherent ∧
      (committed documents desired committedAt document).Startable

/-- What the store of a generation was committed with. -/
def Recorded (documents : SignedDocuments) (generation : Nat) (store : PresenceStore) : Prop :=
  List.Forall₂ (fun document record => Matched documents document record ∧
    validateTargets record.row record.targets = .ok ()) documents.documents
    ((generationRows generation store).map fun row =>
      ⟨row, readTargets row.outboxId store.targets.rows⟩)

omit [Sha256] [PresenceEvents] in
theorem enabled_of_kinds {desired : DesiredRow} {store : PresenceStore}
    (read : readDesiredBinding store = .ok desired) (listed : desired.documentKinds ≠ []) :
    desired.enabled = true := by
  have checked := store.desired.checked desired (by rw [readDesiredBinding_spec.mp read]; simp)
  cases enabled : desired.enabled with
  | true => rfl
  | false =>
      simp only [presenceDesiredState, enabled, Bool.false_eq_true, if_false, Bool.and_eq_true,
        Bool.not_eq_true'] at checked
      refine absurd ?_ listed
      simp [DesiredRow.documentKinds, checked.2.1.1, checked.2.1.2]

/-- The final comparison of a commit validates every inserted outbox. -/
theorem Recorded.committed {documents : SignedDocuments} {desired : DesiredRow} {committedAt : Nat}
    {before after : PresenceStore} {document : SignedDocument}
    (recorded : Recorded documents desired.generation after) (verified : Verified documents desired)
    (inserted : Inserted documents desired committedAt documents.documents before after)
    (documentMem : document ∈ documents.documents) :
    (committed documents desired committedAt document).Coherent ∧
      (committed documents desired committedAt document).Startable := by
  have rowMem : outboxRow documents desired committedAt document ∈
      generationRows desired.generation after := by
    refine mem_generationRows.mpr ⟨?_, rfl⟩
    rw [inserted.rows]
    exact List.mem_append_right _ (List.mem_map_of_mem documentMem)
  rcases exists_of_forall₂ recorded (List.mem_map_of_mem rowMem) with ⟨other, -, matched, valid⟩
  rcases validateTargets_of_valid.mp valid with ⟨inventory, nonempty⟩
  have targets := matched.targets_eq verified valid
  refine committed_coherent verified documentMem ?_ ?_
  · exact (targetsValid_congr ((map_target_targetRow _ _ documents.targets).trans targets)).trans
      inventory
  · rw [targets]
    simpa using nonempty

/-- A commit finds its generation with these documents, or inserts it. -/
theorem commitSigned_spec {documents : SignedDocuments} {committedAt : UnixMilliseconds}
    {store next : PresenceStore} {outcome : PresenceCommit} (referenced : Referenced store)
    (done : commitSigned documents committedAt store = .ok (outcome, next)) :
    ∃ desired, readDesiredBinding store = .ok desired ∧ Verified documents desired ∧
      Recorded documents desired.generation next ∧
      ((generationRows desired.generation store ≠ [] ∧ next = store ∧ outcome.changed = false) ∨
        Opened documents desired committedAt.get store next) := by
  simp only [commitSigned, bind_eq_ok] at done
  rcases done with ⟨desired, isDesired, _, valid, current, isCurrent, done⟩
  have verified := validateDocumentSet_spec valid
  refine ⟨desired, isDesired, verified, ?_⟩
  have records := readGenerationOutboxes_spec isCurrent
  have emptiness : current.isEmpty = (generationRows desired.generation store).isEmpty := by
    rw [records]
    cases generationRows desired.generation store <;> rfl
  have listed : ∀ document ∈ documents.documents, desired.enabled = true := by
    intro document documentMem
    refine enabled_of_kinds isDesired ?_
    exact List.ne_nil_of_mem (verified.of_mem documentMem).1
  split at done
  · rename_i empty
    rw [emptiness, List.isEmpty_iff] at empty
    simp only [bind_eq_ok, pure_eq_ok, exists_eq_left', Bool.false_eq_true, if_false,
      require_eq_ok, orError_eq_ok, Prod.mk.injEq] at done
    rcases done with ⟨-, -, -, ordered, -, -, ⟨outbox, affected⟩, updated, last, insertion, read,
      isRead, _, isSame, -, rfl, -, rfl⟩
    have inserted := insertDocuments_spec
      (referenced_of_kept (kept_of_outbox updated) referenced) insertion
    have recorded : Recorded documents desired.generation last := by
      have same := generationMatches_spec.mp isSame
      rw [readGenerationOutboxes_spec isRead] at same
      exact same
    refine ⟨recorded, .inr ⟨empty, ?_, ⟨outbox, affected, updated, inserted⟩, ?_⟩⟩
    · intro document documentMem row rowMem sameKind
      rw [verified.state, listed document documentMem, Bool.not_true, Bool.false_or,
        List.all_eq_true] at ordered
      have unreached := ordered document documentMem
      simp only [Bool.not_eq_true', List.any_eq_false, Bool.and_eq_true, beq_iff_eq,
        decide_eq_true_eq, not_and, Nat.not_le] at unreached
      exact unreached row rowMem sameKind
    · intro document documentMem
      exact recorded.committed verified inserted documentMem
  · rename_i present
    rw [emptiness, List.isEmpty_iff] at present
    simp only [bind_eq_ok] at done
    rcases done with ⟨same, isSame, done⟩
    split at done
    · rename_i isTrue
      subst isTrue
      cases done
      have recorded := generationMatches_spec.mp isSame
      rw [records] at recorded
      exact ⟨recorded, .inl ⟨present, rfl, rfl⟩⟩
    · simp only [bind_eq_ok, require_eq_ok, emptiness, List.isEmpty_iff, present, false_and,
        exists_false] at done

end Committing

section Desiring

variable [PresenceEvents]

/-- A commit of a desired state finds it stored, or stores it as the next generation. -/
theorem commitDesired_spec {authority : DesiredAuthority} {store next : PresenceStore}
    {outcome : DesiredCommit} (done : commitDesired authority store = .ok (outcome, next)) :
    next = { store with desired := next.desired } ∧ next.desired.rows = [outcome.state] ∧
      outcome.state.matchesAuthority authority = true ∧
      ((outcome.changed = false ∧ next = store) ∨
        (outcome.changed = true ∧
          ((store.desired.rows = [] ∧ outcome.state.generation = 1) ∨
            ∃ old, store.desired.rows = [old] ∧ old.matchesAuthority authority = false ∧
              outcome.state.generation = old.generation + 1))) := by
  have single : ∀ {store : PresenceStore} {row : DesiredRow},
      readDesired store = .ok (some row) → store.desired.rows = [row] := by
    intro store row read
    unfold readDesired at read
    split at read
    · cases read
    · rename_i stored rows
      cases read
      exact rows
    · cases read
  simp only [commitDesired, bind_eq_ok] at done
  rcases done with ⟨_, -, current, read, done⟩
  cases current with
  | some current =>
      have rows := single read
      simp only at done
      split at done
      · rename_i same
        cases done
        exact ⟨rfl, rows, same, .inl ⟨rfl, rfl⟩⟩
      · rename_i different
        simp only [bind_eq_ok, pure_eq_ok, require_eq_ok, orError_eq_ok, Prod.mk.injEq,
          Option.filter_eq_some_iff] at done
        rcases done with ⟨-, -, ⟨desired, affected⟩, updated, -, -, _, again, state,
          ⟨rfl, isMatch⟩, rfl, rfl⟩
        have last := single again
        refine ⟨rfl, last, isMatch, .inr ⟨rfl, .inr ⟨current, rows, by simpa using different, ?_⟩⟩⟩
        have rewritten := (Table.update_spec updated).1
        have selected : (updateDesired authority current).selects current = true := by
          simp [updateDesired]
        simp only at last
        rw [rows, List.map_singleton, Table.rewrite_of_selects selected, last] at rewritten
        rw [List.singleton_inj.mp rewritten]
        rfl
  | none =>
      have rows : store.desired.rows = [] := by
        unfold readDesired at read
        split at read
        · assumption
        · cases read
        · cases read
      simp only [bind_eq_ok, pure_eq_ok, orError_eq_ok, Prod.mk.injEq,
        Option.filter_eq_some_iff] at done
      rcases done with ⟨desired, inserted, _, again, state, ⟨rfl, isMatch⟩, rfl, rfl⟩
      have last := single again
      refine ⟨rfl, last, isMatch, .inr ⟨rfl, .inl ⟨rows, ?_⟩⟩⟩
      have appended := (Table.insert_spec inserted).1
      simp only at last
      rw [rows, List.nil_append, last] at appended
      rw [List.singleton_inj.mp appended]
      rfl

end Desiring

section Refreshing

/-- A refresh reopens every blocked outbox of the current generation. -/
theorem refresh_spec {expected : Nat} {now : UnixMilliseconds} {store next : PresenceStore}
    {done : Unit} (refreshed : refresh expected now store = .ok (done, next)) :
    Kept store next ∧ (Logged store → Logged next) ∧ ∀ id record, stored id store = some record →
      (stored id next = some record ∧
        ¬(record.row.generation = expected ∧ record.row.state = .blocked)) ∨
      (record.row.generation = expected ∧ record.row.state = .blocked ∧
        record.row.updatedAt ≤ now.get ∧ stored id next = some (record.refresh now.get)) := by
  have updates : ∃ outbox affected, store.outbox.update (refreshOutbox expected now.get) =
      some (outbox, affected) ∧ next = { store with outbox } := by
    unfold refresh at refreshed
    split at refreshed
    · simp only [bind_eq_ok, pure_eq_ok, require_eq_ok, orError_eq_ok, Prod.mk.injEq] at refreshed
      rcases refreshed with ⟨_, -, -, -, -, -, -, -, ⟨outbox, affected⟩, updated, -, -, -, rfl⟩
      exact ⟨outbox, affected, updated, rfl⟩
    · cases refreshed
  rcases updates with ⟨outbox, affected, updated, rfl⟩
  refine ⟨kept_of_outbox updated, id, ?_⟩
  intro id record found
  have after := stored_of_outbox updated (fun _ => rfl) id
  rw [found, Option.map_some] at after
  rcases Table.update_spec updated with ⟨-, -, accepted⟩
  by_cases selected : (refreshOutbox expected now.get).selects record.row = true
  · have guarded := (accepted record.row
      (storedRow_spec (stored_eq_some.mp found).1).1 selected).2
    rw [Table.rewrite_of_selects selected] at after
    simp only [refreshOutbox, Bool.and_eq_true, beq_iff_eq] at selected
    simp only [presenceOutbox, refreshOutbox, Bool.and_eq_true, decide_eq_true_eq] at guarded
    exact .inr ⟨selected.1, selected.2, guarded.1.2, after⟩
  · rw [Table.rewrite_of_not_selects (by simpa using selected)] at after
    refine .inl ⟨after, ?_⟩
    simpa [refreshOutbox] using selected

/-- A supersession ends the waiting outboxes of the other generations. -/
theorem supersede_spec {generation now : Nat} {store : PresenceStore}
    {outbox : Table presenceOutbox} {affected : Nat}
    (updated : store.outbox.update (supersedeOutbox generation now) = some (outbox, affected))
    {id : Digest} {record : PresenceRecord} (found : stored id store = some record) :
    stored id { store with outbox } = some record ∨
      ((record.row.state = .pending ∨ record.row.state = .blocked) ∧
        record.row.generation ≠ generation ∧ record.row.updatedAt ≤ now ∧
        stored id { store with outbox } = some (record.release .superseded none now)) := by
  have after := stored_of_outbox updated (fun _ => rfl) id
  rw [found, Option.map_some] at after
  by_cases selected : (supersedeOutbox generation now).selects record.row = true
  · rw [Table.rewrite_of_selects selected] at after
    simp only [supersedeOutbox, Bool.and_eq_true, Bool.or_eq_true, beq_iff_eq, bne_iff_ne,
      decide_eq_true_eq] at selected
    exact .inr ⟨selected.1.2, selected.1.1, selected.2, after⟩
  · rw [Table.rewrite_of_not_selects (by simpa using selected)] at after
    exact .inl after

end Refreshing

section Announcing

/-- The outboxes of a generation, without what deliveries write. -/
def announced (generation : Nat) (store : PresenceStore) :
    List (PresenceRow × List PublicationTarget) :=
  (generationRows generation store).map fun row =>
    (row.identity, (targetsOf row.outboxId store).map TargetRow.target)

theorem announced_eq (generation : Nat) (store : PresenceStore) :
    announced generation store =
      ((((store.outbox.rows.map PresenceRow.identity).filter fun row =>
        row.generation == generation).insertionSort fun left right =>
          left.kind.tag ≤ right.kind.tag).take 3).map fun row =>
            (row, ((store.targets.rows.map TargetRow.slot).filter fun slot =>
              slot.1 == row.outboxId).map Prod.snd) := by
  unfold announced generationRows targetsOf
  rw [List.filter_map, ← List.map_insertionSort (fun left right : PresenceRow =>
    left.kind.tag ≤ right.kind.tag), ← List.map_take, List.map_map]
  · apply List.map_congr_left
    intro row rowMem
    simp only [Function.comp_apply, List.filter_map, List.map_map]
    rfl
  · intro left _ right _
    exact Iff.rfl

theorem announced_of_kept {before after : PresenceStore} (kept : Kept before after)
    (generation : Nat) : announced generation after = announced generation before := by
  rw [announced_eq, announced_eq, kept.rows, kept.slots]

variable [Sha256] [PresenceEvents]

/-- The insertion of another generation leaves the announced outboxes alone. -/
theorem announced_of_opened {documents : SignedDocuments} {desired : DesiredRow} {committedAt : Nat}
    {before after : PresenceStore} (opened : Opened documents desired committedAt before after)
    {generation : Nat} (other : generation ≠ desired.generation) :
    announced generation after = announced generation before := by
  rcases opened.superseded with ⟨outbox, affected, updated, inserted⟩
  rw [← announced_of_kept (kept_of_outbox updated) generation]
  have rows : generationRows generation after =
      generationRows generation { before with outbox } := by
    unfold generationRows
    have skipped : ((documents.documents.map (outboxRow documents desired committedAt)).filter
        fun row => row.generation == generation) = [] := by
      refine List.filter_eq_nil_iff.mpr ?_
      intro row rowMem
      rcases List.mem_map.mp rowMem with ⟨document, -, rfl⟩
      simpa [outboxRow] using Ne.symm other
    rw [inserted.rows, List.filter_append, skipped, List.append_nil]
  unfold announced
  rw [rows]
  apply List.map_congr_left
  intro row rowMem
  have present := stored_of_mem (mem_generationRows.mp rowMem).1
  have same := inserted.others row.outboxId ?_
  · rw [present, stored_eq_some] at same
    rw [same.2]
  · rintro document documentMem sameId
    have absent := (inserted.fresh document documentMem).1
    rw [← sameId, present] at absent
    cases absent

end Announcing

end Presence

end Rhi
