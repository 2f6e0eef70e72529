import Rhi.Lib.Hashing
import Rhi.Presence.Outcomes

/-!
# Generations of presence documents

The outboxes of a generation are announced once, with documents that never change, and only while
the generation is the current one are they handed to the sink.  A lease of an earlier generation is
recovered to a superseded outbox.
-/

namespace Rhi

open Relational Transactional
open Publication (Sorted readTargets_eq_filter targetsValid_congr targetsValid_spec)

namespace Presence

section Announcing

variable [Sha256] [PresenceEvents]

/-- The documents are those the generation was announced with. -/
def Announces (documents : SignedDocuments) (generation : Nat) (store : PresenceStore) : Prop :=
  List.Forall₂ (fun document entry => Matched documents document ⟨entry.1, []⟩ ∧
    entry.2 = documents.targets) documents.documents (announced generation store)

omit [PresenceEvents] in
/-- What a document is compared with does not depend on its deliveries. -/
theorem matched_iff {documents : SignedDocuments} {document : SignedDocument} {row : PresenceRow}
    {targets : List TargetRow} :
    Matched documents document ⟨row, targets⟩ ↔
      Matched documents document ⟨row.identity, []⟩ ∧
        ∀ expected actual, (expected, actual) ∈ documents.targets.zip targets →
          expected = actual.target := by
  constructor
  · intro matched
    exact ⟨⟨matched.generation, matched.desired, matched.targetSet, matched.count,
      matched.required, matched.outbox, matched.kind, matched.event, matched.digest, matched.bytes,
      matched.authored, matched.key, by simp⟩, matched.targets⟩
  · rintro ⟨matched, targets⟩
    exact ⟨matched.generation, matched.desired, matched.targetSet, matched.count, matched.required,
      matched.outbox, matched.kind, matched.event, matched.digest, matched.bytes, matched.authored,
      matched.key, targets⟩

omit [Sha256] [PresenceEvents] in
theorem eq_target_of_zip {targets : List TargetRow} {expected : PublicationTarget}
    {actual : TargetRow}
    (paired : (expected, actual) ∈ (targets.map TargetRow.target).zip targets) :
    expected = actual.target := by
  induction targets with
  | nil => cases paired
  | cons target rest ih =>
      rw [List.map_cons, List.zip_cons_cons, List.mem_cons] at paired
      rcases paired with head | tail
      · cases head
        rfl
      · exact ih tail

/-- In a sound store the comparison of a commit is one with the announced outboxes. -/
theorem recorded_iff {documents : SignedDocuments} {desired : DesiredRow} {store : PresenceStore}
    (sound : Every PresenceRecord.Sound store) (verified : Verified documents desired)
    (generation : Nat) :
    Recorded documents generation store ↔ Announces documents generation store := by
  have reads : (generationRows generation store).map (fun row =>
        (⟨row, readTargets row.outboxId store.targets.rows⟩ : PresenceRecord)) =
      (generationRows generation store).map fun row => ⟨row, targetsOf row.outboxId store⟩ := by
    apply List.map_congr_left
    intro row rowMem
    have isSound := sound _ _ (stored_of_mem (mem_generationRows.mp rowMem).1)
    rw [show readTargets row.outboxId store.targets.rows = targetsOf row.outboxId store from
      readTargets_eq_filter isSound.sorted]
  unfold Recorded Announces announced
  rw [reads, List.forall₂_map_right_iff, List.forall₂_map_right_iff]
  constructor
  · intro recorded
    refine recorded.imp ?_
    rintro document row ⟨matched, valid⟩
    exact ⟨(matched_iff.mp matched).1, (matched.targets_eq verified valid).symm⟩
  · intro announces
    rw [List.forall₂_iff_zip] at announces ⊢
    refine ⟨announces.1, ?_⟩
    intro document row paired
    rcases announces.2 paired with ⟨matched, targets⟩
    have rowMem := (List.of_mem_zip paired).2
    have isSound := sound _ _ (stored_of_mem (mem_generationRows.mp rowMem).1)
    refine ⟨matched_iff.mpr ⟨matched, ?_⟩, validateTargets_of_sound isSound⟩
    intro expected actual isPaired
    rw [← targets] at isPaired
    exact eq_target_of_zip isPaired

end Announcing

section Recovering

theorem desired_single {store : PresenceStore} {desired : DesiredRow}
    (desiredMem : desired ∈ store.desired.rows) : store.desired.rows = [desired] := by
  have distinct := store.desired.distinct
  match listed : store.desired.rows with
  | [] =>
      rw [listed] at desiredMem
      cases desiredMem
  | [row] =>
      rw [listed, List.mem_singleton] at desiredMem
      rw [desiredMem]
  | first :: second :: rest =>
      rw [listed] at distinct
      have apart := (List.pairwise_cons.mp distinct).1 second List.mem_cons_self
      cases apart

/-- A stored attempt carries the identity of an attempt under way. -/
def Collides (id : Digest) (store : PresenceStore) : Prop :=
  ∃ target ∈ targetsOf id store, target.state = .submitted ∧
    ∃ row ∈ store.attempts.rows, target.lastAttemptId = some row.attemptId

/-- What an unknown outcome leaves of a target, without a delay. -/
theorem outcomeOf_unknown {input : PresenceInput} (outcome : input.outcome = .unknown)
    (delay : input.retryDelay = 0) (bounded : input.finishedAt ≤ maxInteger) :
    outcomeOf input = .ok (.unknown,
      if input.attemptNumber < presenceMaxAttempts then some input.finishedAt else none) := by
  unfold outcomeOf outcomeSchedule
  rw [outcome, delay]
  by_cases spare : input.attemptNumber < presenceMaxAttempts
  · simp [AttemptOutcome.retryable, AttemptOutcome.targetState, spare, bounded, orError]
  · simp [AttemptOutcome.retryable, AttemptOutcome.targetState, spare, orError]

variable [Sha256] [PresenceEvents]

omit [Sha256] [PresenceEvents] in
theorem recoverTargets_outbox {row : PresenceRow} {owner : LeaseOwner} {expires now delay : Nat}
    {list : List TargetRow} {store next : PresenceStore}
    (done : recoverTargets row owner expires now delay list store = .ok next) :
    next.outbox = store.outbox := by
  induction list generalizing store with
  | nil =>
      cases done
      rfl
  | cons target rest ih =>
      simp only [recoverTargets, writeOutcome, insertAttempt, bind_eq_ok, require_eq_ok,
        orError_eq_ok, pure_eq_ok] at done
      rcases done with ⟨attemptId, -, -, -, _, ⟨_, ⟨-, -, attempts, -, rfl⟩, _, -, _, -, -, -, rfl⟩,
        others⟩
      exact (ih others).trans rfl

/-- A recovery of an outdated lease succeeds, unless the clock is behind the outbox, a revision is
used up, or the identity of its attempt is taken. -/
theorem recoverExpired_total {candidate : PresenceCandidate} {now : UnixMilliseconds}
    {store : PresenceStore} {expires : Nat} (coherent : Every PresenceRecord.Coherent store)
    (logged : Logged store)
    (found : stored candidate.outbox.row.outboxId store = some candidate.outbox)
    (leased : candidate.outbox.row.state = .leased)
    (expiry : candidate.outbox.row.leaseExpires = some expires) (expired : expires ≤ now.get)
    (outdated : candidate.currentDesired = false)
    (forward : candidate.outbox.row.updatedAt ≤ now.get)
    (room : candidate.outbox.row.revision < maxInteger)
    (targetRoom : ∀ target ∈ candidate.outbox.targets, target.revision < maxInteger)
    (apart : ¬Collides candidate.outbox.row.outboxId store) :
    ∃ next, recoverExpired candidate now 0 store = .ok ((), next) := by
  have isCoherent := coherent _ _ found
  rcases stored_eq_some.mp found with ⟨storedRow, listed⟩
  rcases storedRow_spec storedRow with ⟨rowMem, -⟩
  have checked := store.outbox.checked _ rowMem
  simp only [presenceOutbox, PresenceRow.shaped, leased, Bool.and_eq_true] at checked
  rcases Option.isSome_iff_exists.mp checked.2.1.2 with ⟨bytes, owned⟩
  have nonzero : bytes ≠ 0 := by
    rintro rfl
    exact isCoherent.sound.owner owned
  have owner : LeaseOwner.fromBytes bytes = some ⟨bytes, nonzero⟩ := by
    simp only [LeaseOwner.fromBytes, ne_eq, nonzero, not_false_eq_true, dif_pos]
  -- the loop over the submitted targets, of which there is at most one
  have settles : ∃ settled, recoverTargets candidate.outbox.row ⟨bytes, nonzero⟩ expires now.get 0
      (candidate.outbox.targets.filter fun target => target.state == .submitted) store =
        .ok settled := by
    rcases isCoherent.submitted with none | ⟨target, targetMem, submitted, single⟩
    · rw [none]
      exact ⟨store, rfl⟩
    · rw [single]
      have targetOf : target ∈ targetsOf candidate.outbox.row.outboxId store := by
        rw [listed]
        exact targetMem
      rcases isCoherent.attended.begun target targetMem submitted with ⟨until_, isExpiry, begun⟩
      rw [expiry] at isExpiry
      cases isExpiry
      have shaped := store.targets.checked target (List.mem_filter.mp targetOf).1
      simp only [presenceTargets, TargetRow.shaped, submitted, Bool.and_eq_true] at shaped
      rcases Option.isSome_iff_exists.mp shaped.2.2 with ⟨attemptId, identity⟩
      have fresh : ∀ attempt ∈ store.attempts.rows, attempt.attemptId ≠ attemptId := by
        intro attempt attemptMem same
        exact apart ⟨target, targetOf, submitted, attempt, attemptMem, by rw [identity, same]⟩
      have unlogged : (store.attempts.rows.any fun attempt => attempt.attemptId == attemptId) =
          false := by
        simpa using fresh
      have addresses :
          Addresses (recoveryInput candidate.outbox.row ⟨bytes, nonzero⟩ expires now.get 0
          target attemptId) target store :=
        ⟨targetOf, rfl, submitted, rfl, rfl, identity, rfl, fresh⟩
      have forward : target.updatedAt ≤ now.get := by omega
      rcases writeOutcome_of_addressed addresses logged (outcomeOf_unknown rfl rfl now.bounded)
        AttemptOutcome.noConfusion forward now.bounded (targetRoom target targetMem) with
          ⟨next, written⟩
      exact ⟨next, by simp [recoverTargets, identity, unlogged, written, orError, require, bind,
        Except.bind]⟩
  rcases settles with ⟨settledStore, settles⟩
  rcases recoverTargets_spec isCoherent.submitted found settles with
    ⟨settled, settlement, -, -, settledStored, -, -⟩
  have sorted := (isCoherent.sound.settlement settlement).sorted
  rw [← (stored_eq_some.mp settledStored).2] at sorted
  rw [← recoverTargets_outbox settles] at rowMem
  rcases release_of_leased rowMem leased owned expiry (decide_eq_true expired) forward now.bounded
    room (.inr ⟨.inr (.inr rfl), rfl⟩) with ⟨next, released⟩
  refine ⟨next, ?_⟩
  have read := readOutbox_of_stored found isCoherent.sound
  simp only [recoverExpired, read, require, beq_self_eq_true, if_true, leased, expiry, expired,
    Option.any_some, decide_true, Bool.and_self, owned, owner, Option.bind_some, orError, settles,
    readTargetRows_of_sorted sorted, outdated, Bool.false_eq_true, if_false, released, bind,
    Except.bind, pure, Except.pure]

/-- An expired lease is found by the search, with whether its outbox is current. -/
theorem readExpiredCandidate_total {now : UnixMilliseconds} {store : PresenceStore}
    {desired : DesiredRow} (coherent : Every PresenceRecord.Coherent store)
    (single : store.desired.rows = [desired])
    (expired : ∃ row ∈ store.outbox.rows, row.state = .leased ∧
      ∃ expires, row.leaseExpires = some expires ∧ expires ≤ now.get) :
    ∃ candidate, readExpiredCandidate now store = .ok (some candidate) ∧
      stored candidate.outbox.row.outboxId store = some candidate.outbox ∧
      candidate.outbox.row.state = .leased ∧
      (∃ expires, candidate.outbox.row.leaseExpires = some expires ∧ expires ≤ now.get) ∧
      candidate.currentDesired = desiredMatchesOutbox desired candidate.outbox.row ∧
      (candidate.currentDesired = false → candidate.retryUpperBound = 0) := by
  have sound : Every PresenceRecord.Sound store :=
    fun id record found => (coherent id record found).sound
  have isSearched : ∃ row, readExpired now.get store = some row := by
    rcases expired with ⟨row, rowMem, leased, expires, expiry, reached⟩
    have listed : row ∈ (store.outbox.rows.filter fun row => row.state == .leased &&
        row.leaseExpires.any fun expires => decide (expires ≤ now.get)).insertionSort
          (before (fun row => row.leaseExpires.getD 0) (fun row => 1 - row.kind.tag)) := by
      rw [List.mem_insertionSort, List.mem_filter]
      exact ⟨rowMem, by simp [leased, expiry, reached]⟩
    cases head : readExpired now.get store with
    | none =>
        have empty := List.head?_eq_none_iff.mp head
        rw [empty] at listed
        cases listed
    | some found => exact ⟨found, rfl⟩
  rcases isSearched with ⟨row, selected⟩
  rcases readExpired_spec selected with ⟨rowMem, leased, reached⟩
  have found := stored_of_mem rowMem
  have isCoherent := coherent _ _ found
  have valid := validateTargets_of_sound isCoherent.sound
  have few : (((targetsOf row.outboxId store).filter fun target =>
      target.state == .submitted).map (·.attemptCount)).length ≤ 1 := by
    rw [List.length_map]
    rcases isCoherent.submitted with none | ⟨target, -, -, one⟩
    · simp only [none, List.length_nil, Nat.zero_le]
    · simp only [one, List.length_singleton, Nat.le_refl]
  have read := readOutbox_of_sound sound row.outboxId
  rw [found] at read
  simp only [readExpiredCandidate, selected, read, orError, readDesiredBinding, single, valid,
    require, few, decide_true, if_true, bind, Except.bind, pure, Except.pure, Except.ok.injEq,
    Option.some.injEq, exists_eq_left']
  refine ⟨found, leased, reached, trivial, ?_⟩
  intro outdated
  simp only [outdated, Bool.false_eq_true, if_false]

end Recovering

section Safety

variable [Sha256] [PresenceEvents]

theorem validateDocumentSet_of_commit {documents : SignedDocuments} {committedAt : UnixMilliseconds}
    {store next : PresenceStore} {outcome : PresenceCommit}
    (done : commitSigned documents committedAt store = .ok (outcome, next)) :
    validateDocumentSet documents documents.desiredState = .ok () := by
  simp only [commitSigned, bind_eq_ok] at done
  rcases done with ⟨desired, -, _, valid, -⟩
  rw [(validateDocumentSet_spec valid).state]
  exact valid

/-- A commit of the documents a generation was announced with changes nothing. -/
theorem commitSigned_of_announces {documents : SignedDocuments} {again : UnixMilliseconds}
    {store : PresenceStore} (sound : Every PresenceRecord.Sound store)
    (single : store.desired.rows = [documents.desiredState])
    (valid : validateDocumentSet documents documents.desiredState = .ok ())
    (announces : Announces documents documents.desiredState.generation store)
    (nonempty : documents.documents ≠ []) :
    commitSigned documents again store =
      .ok (⟨documents.desiredState, documents.documents.length, false⟩, store) := by
  have verified := validateDocumentSet_spec valid
  have recorded := (recorded_iff sound verified _).mpr announces
  have read := readGenerationOutboxes_of_sound sound documents.desiredState.generation
  have records := readGenerationOutboxes_spec read
  have same : generationMatches documents ((generationRows documents.desiredState.generation
      store).map fun row => ⟨row, targetsOf row.outboxId store⟩) = .ok true := by
    rw [records]
    exact generationMatches_spec.mpr recorded
  have present : ((generationRows documents.desiredState.generation store).map fun row =>
      (⟨row, targetsOf row.outboxId store⟩ : PresenceRecord)).isEmpty = false := by
    have lengths := announces.length_eq
    rw [List.isEmpty_eq_false_iff]
    intro empty
    rw [announced, List.map_eq_nil_iff.mp empty] at lengths
    exact nonempty (List.length_eq_zero_iff.mp lengths)
  have isDesired := readDesiredBinding_spec.mpr single
  simp only [commitSigned, isDesired, valid, read, present, Bool.false_eq_true, if_false, same,
    if_true, bind, Except.bind, pure, Except.pure]

/-- What was announced of a generation stays announced. -/
theorem announced_exec {system : System} (lawful : Lawful system) {generation : Nat}
    (present : announced generation system.store ≠ []) (moves : List Move) :
    announced generation (system.exec moves).store = announced generation system.store := by
  have kept := @Transition.exec_invariant _ _ System.apply
    (fun later => Lawful later ∧
      announced generation later.store = announced generation system.store)
    (fun move later ⟨isLawful, same⟩ => ⟨lawful_apply move later isLawful,
      ((advance_apply move isLawful).stays generation (same ▸ present)).trans same⟩)
    moves system ⟨lawful, rfl⟩
  exact kept.2

/-- The safety of the generations of presence documents in a run. -/
structure GenerationSafe (moves : List Move) : Prop where
  /-- The sink is handed the stored bytes of an outbox that is current when they are prepared. -/
  handed :
    ∀ prepared ∈ (System.exec moves .initial).attempts, ∃ earlier disposition startedAt later,
    moves = earlier ++ .prepare disposition prepared.lease startedAt :: later ∧
    ∃ desired row, (System.exec earlier .initial).store.desired.rows = [desired] ∧
      row ∈ (System.exec earlier .initial).store.outbox.rows ∧
      row.outboxId = prepared.lease.outbox.row.outboxId ∧
      desiredMatchesOutbox desired row = true ∧ prepared.signedEvent = row.signedEvent
  /-- The documents of a kind are authored later in every later generation. -/
  authored : ∀ earlier ∈ (System.exec moves .initial).store.outbox.rows,
    ∀ later ∈ (System.exec moves .initial).store.outbox.rows, earlier.kind = later.kind →
      earlier.generation < later.generation → earlier.authoredAt < later.authoredAt
  /-- Documents that were committed can be committed again while their generation is current. -/
  repeated : ∀ earlier disposition documents committedAt later outcome,
    moves = earlier ++ .commit disposition documents committedAt :: later →
    (commitSignedPresence .readWriteExisting disposition documents committedAt
      (System.exec earlier .initial).store).1 = .ok outcome →
    documents.documents ≠ [] →
    (System.exec moves .initial).store.desired.rows = [documents.desiredState] →
    ∀ again, commitSignedPresence .readWriteExisting .acknowledged documents again
      (System.exec moves .initial).store =
        (.ok ⟨documents.desiredState, documents.documents.length, false⟩,
          (System.exec moves .initial).store)
  /-- A commit for a generation with outboxes is one of the documents it was announced with, and
  changes nothing. -/
  different : ∀ disposition documents committedAt outcome,
    (commitSignedPresence .readWriteExisting disposition documents committedAt
      (System.exec moves .initial).store).1 = .ok outcome →
    (∃ row ∈ (System.exec moves .initial).store.outbox.rows,
      row.generation = documents.desiredState.generation) →
    Announces documents documents.desiredState.generation (System.exec moves .initial).store ∧
      outcome.changed = false ∧
      (commitSignedPresence .readWriteExisting disposition documents committedAt
        (System.exec moves .initial).store).2 = (System.exec moves .initial).store
  /-- A commit that failed, and did not lose its acknowledgement, changed nothing. -/
  failed : ∀ disposition documents committedAt error,
    (commitSignedPresence .readWriteExisting disposition documents committedAt
      (System.exec moves .initial).store).1 = .error error → error ≠ .commitOutcomeUnknown →
    (commitSignedPresence .readWriteExisting disposition documents committedAt
      (System.exec moves .initial).store).2 = (System.exec moves .initial).store
  /-- An expired lease is found, with whether its outbox is current; one that is not is recovered,
  unless the clock is behind, a revision is used up, or two attempts have one identity. -/
  found : ∀ now : UnixMilliseconds,
    (∃ row ∈ (System.exec moves .initial).store.outbox.rows, row.state = .leased ∧
      ∃ expires, row.leaseExpires = some expires ∧ expires ≤ now.get) →
    ∃ candidate desired, (System.exec moves .initial).store.desired.rows = [desired] ∧
      readExpiredPresence .readWriteExisting .acknowledged now
        (System.exec moves .initial).store = .ok (some candidate) ∧
      stored candidate.outbox.row.outboxId (System.exec moves .initial).store =
        some candidate.outbox ∧
      candidate.outbox.row.state = .leased ∧
      (∃ expires, candidate.outbox.row.leaseExpires = some expires ∧ expires ≤ now.get) ∧
      candidate.currentDesired = desiredMatchesOutbox desired candidate.outbox.row ∧
      (candidate.currentDesired = false → candidate.retryUpperBound = 0 ∧
        (candidate.outbox.row.updatedAt ≤ now.get →
          candidate.outbox.row.revision < maxInteger →
          (∀ target ∈ candidate.outbox.targets, target.revision < maxInteger) →
          ¬Collides candidate.outbox.row.outboxId (System.exec moves .initial).store →
          (recoverExpiredPresence .acknowledged candidate now 0
            (System.exec moves .initial).store).1 = .ok ()))
  /-- A recovered lease that was found outdated leaves a superseded outbox, and its submitted target
  with an unknown outcome. -/
  recovered : ∀ disposition candidate now delay, candidate.currentDesired = false →
    (recoverExpiredPresence disposition candidate now delay
      (System.exec moves .initial).store).1 = .ok () →
    ∃ record, stored candidate.outbox.row.outboxId (recoverExpiredPresence disposition candidate now
        delay (System.exec moves .initial).store).2 = some record ∧
      record.row.state = .superseded ∧
      ∀ target ∈ candidate.outbox.targets, target.state = .submitted →
        (∃ written ∈ record.targets, written.targetOrdinal = target.targetOrdinal ∧
          written.state = .unknown ∧ written.attemptCount = target.attemptCount) ∧
        ∃ attempt ∈ (recoverExpiredPresence disposition candidate now delay
            (System.exec moves .initial).store).2.attempts.rows,
          attempt.outboxId = candidate.outbox.row.outboxId ∧
            attempt.targetOrdinal = target.targetOrdinal ∧
            attempt.attemptNumber = target.attemptCount ∧ attempt.outcome = .unknown

/-- The generations of presence documents are safe in every run, at any clocks and with any answers
of the database. -/
theorem generation_safety (moves : List Move) : GenerationSafe moves := by
  have lawful := lawful_exec moves
  refine ⟨?_, lawful.historic.authored, ?_, ?_, ?_, ?_, ?_⟩
  · intro prepared preparedMem
    rcases @Transition.exec_appears _ _ System.apply (fun system => prepared ∈ system.attempts)
      moves
      .initial (by simp [System.initial]) preparedMem with
      ⟨earlier, move, later, rfl, unprepared, appears⟩
    rcases mem_attempts_of_apply appears with
      old | ⟨disposition, lease, startedAt, rfl, leaseMem, done⟩
    · exact absurd old unprepared
    · have before := lawful_exec earlier
      rcases prepareNext_spec before.sound (before.quiet lease leaseMem) done with
        ⟨old, -, valid, rfl, bytes, -, -, -, stepped⟩
      have current := (validateLease_spec before.sound valid).2.1
      rcases validateCurrentDesired_spec current with ⟨desired, single, isMatch⟩
      exact ⟨earlier, disposition, startedAt, later, rfl, desired, prepared.lease.outbox.row,
        single, (storedRow_spec (stored_eq_some.mp stepped.before).1).1, rfl, isMatch, bytes⟩
  · rintro earlier disposition documents committedAt later outcome rfl committed nonempty
      single again
    simp only [commitSignedPresence, ne_eq, not_true_eq_false, if_false] at committed
    have done := transaction_ok committed
    have before := lawful_exec earlier
    rcases commitSigned_spec before.historic.referenced done with
      ⟨desired, -, verified, recorded, -⟩
    have after := lawful_apply (.commit disposition documents committedAt) _ before
    have isNext : (System.apply (.commit disposition documents committedAt)
        (System.exec earlier .initial)).store = (transaction mapPresenceError disposition
          (commitSigned documents committedAt) (System.exec earlier .initial).store).2 := by
      simp [System.apply, commitSignedPresence]
    rw [← isNext] at recorded
    have announces := (recorded_iff after.sound verified _).mp recorded
    have present : announced desired.generation (System.apply (.commit disposition documents
        committedAt) (System.exec earlier .initial)).store ≠ [] := by
      intro empty
      have lengths := announces.length_eq
      rw [empty] at lengths
      exact nonempty (List.length_eq_zero_iff.mp lengths)
    have same := announced_exec after present later
    have split : System.exec (earlier ++ .commit disposition documents committedAt :: later)
        .initial = System.exec later (System.apply (.commit disposition documents committedAt)
          (System.exec earlier .initial)) := by
      simp [System.exec]
    rw [split] at lawful single ⊢
    unfold Announces at announces
    rw [← same, ← verified.state] at announces
    have repeats := @commitSigned_of_announces _ _ documents again _ lawful.sound single
      (validateDocumentSet_of_commit done) announces nonempty
    simp only [commitSignedPresence, ne_eq, not_true_eq_false, if_false,
      transaction_acknowledged repeats]
  · intro disposition documents committedAt outcome committed present
    simp only [commitSignedPresence, ne_eq, not_true_eq_false, if_false] at committed ⊢
    have done := transaction_ok committed
    rcases commitSigned_spec lawful.historic.referenced done with
      ⟨desired, -, verified, recorded, ⟨-, unchanged, same⟩ | opened⟩
    · rw [unchanged] at recorded ⊢
      rw [verified.state]
      exact ⟨(recorded_iff lawful.sound verified _).mp recorded, same, rfl⟩
    · rcases present with ⟨row, rowMem, current⟩
      rw [verified.state] at current
      have listed := mem_generationRows.mpr ⟨rowMem, current⟩
      rw [opened.absent] at listed
      cases listed
  · intro disposition documents committedAt error returned known
    simp only [commitSignedPresence, ne_eq, not_true_eq_false, if_false] at returned ⊢
    exact transaction_store_of_error returned known
  · intro now expired
    have isDesired : ∃ desired, (System.exec moves .initial).store.desired.rows = [desired] := by
      rcases expired with ⟨row, rowMem, -⟩
      rcases lawful.historic.bounded row rowMem with ⟨desired, desiredMem, -⟩
      exact ⟨desired, desired_single desiredMem⟩
    rcases isDesired with ⟨desired, single⟩
    rcases readExpiredCandidate_total lawful.coherent single expired with
      ⟨candidate, read, isStored, leased, reached, current, bound⟩
    refine ⟨candidate, desired, single, ?_, isStored, leased, reached, current, ?_⟩
    · simp [readExpiredPresence, transaction, read, bind, Except.bind, pure, Except.pure]
    · intro outdated
      refine ⟨bound outdated, ?_⟩
      intro forward room targetRoom apart
      rcases reached with ⟨expires, expiry, reached⟩
      rcases recoverExpired_total lawful.coherent lawful.logged isStored leased expiry reached
        outdated
        forward room targetRoom apart with ⟨next, done⟩
      rw [recoverExpiredPresence, transaction_acknowledged done]
  · intro disposition candidate now delay outdated returned
    have done := transaction_ok returned
    rcases recoverExpired_spec lawful.coherent done with
      ⟨settled, state, schedule, stepped, superseded, unknown⟩
    exact ⟨_, stepped.after, superseded outdated, unknown⟩

end Safety

section Exceptions

namespace Sample

local instance : Sha256 := ⟨Hashing.sha256⟩

def eventBytes (kind : DocumentKind) (key : PublicKey) (createdAt : Nat) : List UInt8 :=
  toBeBytes 1 kind.tag ++ toBeBytes 8 createdAt ++ toBeBytes 32 key.toNat

def fromBeBytes (bytes : List UInt8) : Nat :=
  bytes.foldl (fun value byte => 256 * value + byte.toNat) 0

def eventKind : Nat → Nat
  | 0 => 0
  | _ => 31990

/-- Events in a binary form; the library signs what it has planned for one of a few instants. -/
local instance : PresenceEvents where
  validPublicKey key := key != 0
  plan kind key createdAt :=
    some ⟨Sha256.digest (eventBytes kind key createdAt), eventKind kind.tag, [], ""⟩
  sign key plan _ :=
    ([(DocumentKind.serviceProfile, 1700000000), (.serviceProfile, 1700000100)].map
      fun (kind, createdAt) => eventBytes kind key createdAt).find? fun bytes =>
        Sha256.digest bytes == plan.expectedEventId
  verify bytes := do
    guard (bytes.length = 41)
    some ⟨Sha256.digest bytes, BitVec.ofNat 256 (fromBeBytes (bytes.drop 9)),
      fromBeBytes ((bytes.drop 1).take 8), eventKind (fromBeBytes (bytes.take 1)), [], ""⟩

theorem relay_valid : validSourceText "trade-primary" = true := by decide

def relay : SourceId := ⟨"trade-primary", relay_valid⟩

/-- A profile for one required relay. -/
def document : PresenceDocument where
  configuration := 0x99#256
  servicePublicKey := 0x33#256
  enabled := true
  profile := true
  applicationHandler := false
  targetRelayIds := some [relay]
  relays := [⟨relay, true, true⟩]
  queueCapacity := 4

def authority : DesiredAuthority := (deriveDesired document).get (by decide +kernel)

def bindings : Table configBindings :=
  (Table.empty.insert ⟨1, ⟨0x99#256, 0x22#256, 0x33#256, 1, 11, 1, 1, 1⟩, 1000⟩).get (by decide)

def documents : SignedDocuments :=
  ((buildSignedDocuments (authority.row 1) authority authority.servicePublicKey 1700000000
    [[0]]).toOption).get (by decide +kernel)

def committedAt : UnixMilliseconds := ⟨1700000000000, by decide⟩

/-- A start up to its desired state. -/
def desired : List Move := [.configure bindings, .desire .acknowledged authority]

/-- A commit whose acknowledgement is lost returns an error, and took effect. -/
theorem unacknowledged_commit_changes :
    (commitSignedPresence .readWriteExisting (.unacknowledged true) documents committedAt
      (System.exec desired .initial).store).1 = .error .commitOutcomeUnknown ∧
    (commitSignedPresence .readWriteExisting (.unacknowledged true) documents committedAt
      (System.exec desired .initial).store).2 ≠ (System.exec desired .initial).store := by
  decide +kernel

end Sample

end Exceptions

end Presence

end Rhi
