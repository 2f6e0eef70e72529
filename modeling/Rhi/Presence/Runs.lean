import Rhi.Lib.Transition
import Rhi.Presence.Commits

/-!
# Runs of the presence store

Any sequence of configuration changes, commits, deliveries, recoveries and refreshes, at any clocks
and with any answers of the database.  A preparation is made with a lease that a claim handed out,
and a record with an attempt that a preparation handed out; nobody else can build one.
-/

namespace Rhi

open Relational Transactional

namespace Presence

section Systems

/-- The store, with the leases and the attempts that were handed out. -/
structure System where
  store : PresenceStore
  leases : List PresenceLease
  attempts : List PreparedPresence
deriving DecidableEq

def System.initial : System :=
  ⟨.initial, [], []⟩

/-- One call of the presence repositories or of the operator. -/
inductive Move where
  | configure (bindings : Table configBindings)
  | desire (disposition : Disposition) (authority : DesiredAuthority)
  | commit (disposition : Disposition) (documents : SignedDocuments)
      (committedAt : UnixMilliseconds)
  | claim (disposition : Disposition) (owner : LeaseOwner) (now : UnixMilliseconds)
  | prepare (disposition : Disposition) (lease : PresenceLease) (startedAt : UnixMilliseconds)
  | record (disposition : Disposition) (prepared : PreparedPresence)
      (finishedAt : UnixMilliseconds) (outcome : AttemptOutcome) (delay : Nat)
  | recover (disposition : Disposition) (candidate : PresenceCandidate) (now : UnixMilliseconds)
      (delay : Nat)
  | refresh (disposition : Disposition) (expected : Nat) (now : UnixMilliseconds)

variable [Sha256] [PresenceEvents]

def System.apply (move : Move) (system : System) : System :=
  match move with
  | .configure bindings =>
      { system with store := { system.store with configBindings := bindings } }
  | .desire disposition authority =>
      { system with
        store := (commitDesiredPresence .readWriteExisting disposition authority system.store).2 }
  | .commit disposition documents committedAt =>
      { system with store := (commitSignedPresence .readWriteExisting disposition documents
          committedAt system.store).2 }
  | .claim disposition owner now =>
      let (result, store) :=
        claimNextPresence .readWriteExisting disposition owner now system.store
      { system with store, leases := system.leases ++ result.toOption.join.toList }
  | .prepare disposition lease startedAt =>
      if lease ∈ system.leases then
        let (result, store) := prepareNextPresenceTarget .readWriteExisting disposition lease
          startedAt system.store
        { system with store, attempts := system.attempts ++ result.toOption.toList }
      else
        system
  | .record disposition prepared finishedAt outcome delay =>
      if prepared ∈ system.attempts then
        { system with store := (recordPresenceOutcome .readWriteExisting disposition prepared
            finishedAt outcome delay system.store).2 }
      else
        system
  | .recover disposition candidate now delay =>
      { system with
        store := (recoverExpiredPresence disposition candidate now delay system.store).2 }
  | .refresh disposition expected now =>
      { system with store := (presenceRefresh disposition expected now system.store).2 }

def System.exec (moves : List Move) (system : System) : System :=
  Transition.exec System.apply moves system

omit [Sha256] [PresenceEvents] in
/-- Every outbox that the refresh reopens has a target that is due at its instant. -/
def Move.Reopens (system : System) : Move → Prop
  | .refresh _ expected now => ∀ id record, stored id system.store = some record →
      record.row.generation = expected → record.row.state = .blocked →
      ∃ target ∈ record.targets, target.isDue presenceMaxAttempts now.get = true
  | _ => True

end Systems

section Effects

variable [Sha256] [PresenceEvents]

/-- What a transaction did to an outbox; `allowed` says that its reopening was. -/
inductive Effect (allowed : Prop) : Option PresenceRecord → Option PresenceRecord → Prop where
  | same (record : Option PresenceRecord) : Effect allowed record record
  | step {action : PresenceRecord.Action} {record next : PresenceRecord}
      (step : PresenceRecord.Step action record next)
      (reopens : allowed → record.Reopens next action) : Effect allowed (some record) (some next)
  | fresh {record : PresenceRecord} (coherent : record.Coherent) (startable : record.Startable) :
      Effect allowed none (some record)

/-- What a transaction did to every outbox. -/
def Effects (allowed : Prop) (before after : PresenceStore) : Prop :=
  ∀ id, Effect allowed (stored id before) (stored id after)

variable {allowed : Prop} {before after : PresenceStore}

theorem Effects.refl (store : PresenceStore) : Effects allowed store store :=
  fun id => .same (stored id store)

theorem Effects.coherent (effects : Effects allowed before after)
    (coherent : Every PresenceRecord.Coherent before) : Every PresenceRecord.Coherent after := by
  intro id record found
  have effect := effects id
  rw [found] at effect
  cases previous : stored id before with
  | none =>
      rw [previous] at effect
      cases effect with
      | fresh isCoherent startable => exact isCoherent
  | some old =>
      rw [previous] at effect
      cases effect with
      | same => exact coherent id record previous
      | step step reopens => exact (coherent id old previous).step step

theorem Effects.startable (effects : Effects allowed before after) (isAllowed : allowed)
    (coherent : Every PresenceRecord.Coherent before)
    (startable : Every PresenceRecord.Startable before) : Every PresenceRecord.Startable after := by
  intro id record found
  have effect := effects id
  rw [found] at effect
  cases previous : stored id before with
  | none =>
      rw [previous] at effect
      cases effect with
      | fresh isCoherent isStartable => exact isStartable
  | some old =>
      rw [previous] at effect
      cases effect with
      | same => exact startable id record previous
      | step step reopens =>
          exact (startable id old previous).step (coherent id old previous) (reopens isAllowed) step

theorem Stepped.effects {action : PresenceRecord.Action} {id : Digest}
    {record next : PresenceRecord} (stepped : Stepped action id before after record next)
    (reopens : allowed → record.Reopens next action) : Effects allowed before after := by
  intro other
  by_cases same : other = id
  · rw [same, stepped.before, stepped.after]
    exact .step stepped.step reopens
  · rw [stepped.others other same]
    exact .same _

omit [Sha256] [PresenceEvents] in
theorem Stepped.claimed {id : Digest} {record next : PresenceRecord}
    (stepped : Stepped .claim id before after record next) :
    record.row.state = .pending ∧
      ∃ instant, record.row.nextAttempt = some instant ∧ instant ≤ next.row.updatedAt := by
  rcases stepped with ⟨-, -, -, -, -, step⟩
  cases step with
  | claim pending scheduled due forward => exact ⟨pending, _, scheduled, due⟩

omit [Sha256] [PresenceEvents] in
/-- What a body establishes, and what holds of the store before, holds after a transaction. -/
theorem transaction_kept {Error Value Report : Type} {report : Failure Error → Report}
    {disposition : Disposition} {body : PresenceStore → Except Error (Value × PresenceStore)}
    {property : PresenceStore → Prop} {store : PresenceStore} (unchanged : property store)
    (done : ∀ value next, body store = .ok (value, next) → property next) :
    property (transaction report disposition body store).2 := by
  rcases transaction_store report disposition body store with same | ⟨value, next, result, same⟩
  · rw [same]
    exact unchanged
  · rw [same]
    exact done value next result

theorem effects_of_refresh {expected : Nat} {now : UnixMilliseconds} {done : Unit}
    (refreshed : refresh expected now before = .ok (done, after))
    (reopens : allowed → ∀ id record, stored id before = some record →
      record.row.generation = expected → record.row.state = .blocked →
      ∃ target ∈ record.targets, target.isDue presenceMaxAttempts now.get = true) :
    Effects allowed before after := by
  rcases refresh_spec refreshed with ⟨kept, -, spec⟩
  intro id
  cases found : stored id before with
  | none =>
      have absent : stored id after = none := by
        cases present : stored id after with
        | none => rfl
        | some record =>
            rcases storedRow_spec (stored_eq_some.mp present).1 with ⟨rowMem, named⟩
            rcases kept.origin rowMem with ⟨old, oldMem, same⟩
            have isStored := stored_of_mem oldMem
            rw [show old.outboxId = id from
              (congrArg (·.outboxId) same.symm).trans named] at isStored
            rw [found] at isStored
            cases isStored
      rw [absent]
      exact .same none
  | some record =>
      rcases spec id record found with ⟨unchanged, -⟩ | ⟨generation, blocked, forward, isAfter⟩
      · rw [unchanged]
        exact .same _
      · rw [isAfter]
        exact .step (.refresh blocked forward) fun isAllowed =>
          reopens isAllowed id record found generation blocked

theorem effects_of_opened {documents : SignedDocuments} {desired : DesiredRow} {committedAt : Nat}
    (opened : Opened documents desired committedAt before after) :
    Effects allowed before after := by
  rcases opened.superseded with ⟨outbox, affected, updated, inserted⟩
  have superseded : Effects allowed before { before with outbox } := by
    intro id
    cases found : stored id before with
    | none =>
        have absent := stored_of_outbox updated (fun _ => rfl) id
        rw [found] at absent
        rw [absent]
        exact .same none
    | some record =>
        rcases supersede_spec updated found with unchanged | ⟨waiting, -, forward, isAfter⟩
        · rw [unchanged]
          exact .same _
        · rw [isAfter]
          exact .step (.supersede waiting forward) fun _ => trivial
  intro id
  by_cases isNew : ∃ document ∈ documents.documents,
      id = (outboxRow documents desired committedAt document).outboxId
  · rcases isNew with ⟨document, documentMem, rfl⟩
    rcases inserted.fresh document documentMem with ⟨absent, present⟩
    have unknown : stored (outboxRow documents desired committedAt document).outboxId before =
        none := by
      rw [stored_of_outbox updated (fun _ => rfl)] at absent
      exact Option.map_eq_none_iff.mp absent
    rw [unknown, present]
    exact .fresh (opened.fresh document documentMem).1 (opened.fresh document documentMem).2
  · rw [inserted.others id fun document documentMem same => isNew ⟨document, documentMem, same⟩]
    exact superseded id

theorem logged_of_opened {documents : SignedDocuments} {desired : DesiredRow} {committedAt : Nat}
    (opened : Opened documents desired committedAt before after) (logged : Logged before) :
    Logged after := by
  rcases opened.superseded with ⟨outbox, affected, -, inserted⟩
  intro attempt attemptMem
  rw [inserted.attempts] at attemptMem
  rcases logged attempt attemptMem with ⟨target, targetMem, behind⟩
  exact ⟨target, inserted.targets.subset targetMem, behind⟩

end Effects

section Histories

/-- What the generations of the desired state say about the outboxes. -/
structure Historic (store : PresenceStore) : Prop where
  referenced : Referenced store
  bounded : ∀ row ∈ store.outbox.rows, ∃ desired ∈ store.desired.rows,
    row.generation ≤ desired.generation
  authored : ∀ earlier ∈ store.outbox.rows, ∀ later ∈ store.outbox.rows,
    earlier.kind = later.kind → earlier.generation < later.generation →
      earlier.authoredAt < later.authoredAt

theorem Historic.kept {before after : PresenceStore} (historic : Historic before)
    (kept : Kept before after) : Historic after := by
  refine ⟨referenced_of_kept kept historic.referenced, ?_, ?_⟩
  · intro row rowMem
    rcases kept.origin rowMem with ⟨old, oldMem, same⟩
    rcases historic.bounded old oldMem with ⟨desired, desiredMem, reached⟩
    refine ⟨desired, kept.desired ▸ desiredMem, ?_⟩
    rw [show row.generation = old.generation from congrArg (·.generation) same]
    exact reached
  · intro earlier earlierMem later laterMem
    rcases kept.origin earlierMem with ⟨oldEarlier, oldEarlierMem, sameEarlier⟩
    rcases kept.origin laterMem with ⟨oldLater, oldLaterMem, sameLater⟩
    rw [show earlier.kind = oldEarlier.kind from congrArg (·.kind) sameEarlier,
      show earlier.generation = oldEarlier.generation from congrArg (·.generation) sameEarlier,
      show earlier.authoredAt = oldEarlier.authoredAt from congrArg (·.authoredAt) sameEarlier,
      show later.kind = oldLater.kind from congrArg (·.kind) sameLater,
      show later.generation = oldLater.generation from congrArg (·.generation) sameLater,
      show later.authoredAt = oldLater.authoredAt from congrArg (·.authoredAt) sameLater]
    exact historic.authored oldEarlier oldEarlierMem oldLater oldLaterMem

variable [Sha256] [PresenceEvents]

theorem Historic.opened {documents : SignedDocuments} {desired : DesiredRow} {committedAt : Nat}
    {before after : PresenceStore} (historic : Historic before)
    (isDesired : readDesiredBinding before = .ok desired)
    (opened : Opened documents desired committedAt before after) : Historic after := by
  rcases opened.superseded with ⟨outbox, affected, updated, inserted⟩
  have waiting := historic.kept (kept_of_outbox updated)
  have single := readDesiredBinding_spec.mp isDesired
  -- the rows of the earlier generations, with the authored instants of the state before
  have earlierRows : ∀ row ∈ outbox.rows, row.generation < desired.generation ∧
      ∀ document ∈ documents.documents, row.kind = document.kind →
        row.authoredAt < document.createdAt := by
    intro row rowMem
    rcases (kept_of_outbox updated).origin rowMem with ⟨old, oldMem, same⟩
    rcases historic.bounded old oldMem with ⟨stored, storedMem, reached⟩
    rw [single, List.mem_singleton] at storedMem
    subst storedMem
    have other : old.generation ≠ stored.generation := by
      intro current
      have listed := mem_generationRows.mpr ⟨oldMem, current⟩
      rw [opened.absent] at listed
      cases listed
    rw [show row.generation = old.generation from congrArg (·.generation) same,
      show row.kind = old.kind from congrArg (·.kind) same,
      show row.authoredAt = old.authoredAt from congrArg (·.authoredAt) same]
    refine ⟨by omega, ?_⟩
    intro document documentMem sameKind
    exact opened.later document documentMem old oldMem sameKind
  have split : ∀ row ∈ after.outbox.rows, row ∈ outbox.rows ∨
      ∃ document ∈ documents.documents, row = outboxRow documents desired committedAt document := by
    intro row rowMem
    rw [inserted.rows] at rowMem
    rcases List.mem_append.mp rowMem with old | new
    · exact .inl old
    · rcases List.mem_map.mp new with ⟨document, documentMem, rfl⟩
      exact .inr ⟨document, documentMem, rfl⟩
  refine ⟨inserted.referenced, ?_, ?_⟩
  · intro row rowMem
    refine ⟨desired, ?_, ?_⟩
    · rw [inserted.desiredState]
      change desired ∈ before.desired.rows
      rw [single]
      simp
    · rcases split row rowMem with old | ⟨document, -, rfl⟩
      · exact Nat.le_of_lt (earlierRows row old).1
      · exact Nat.le_refl _
  · intro earlier earlierMem later laterMem sameKind before
    rcases split earlier earlierMem with oldEarlier | ⟨first, -, rfl⟩
    · rcases split later laterMem with oldLater | ⟨document, documentMem, rfl⟩
      · exact waiting.authored earlier oldEarlier later oldLater sameKind before
      · exact (earlierRows earlier oldEarlier).2 document documentMem sameKind
    · rcases split later laterMem with oldLater | ⟨document, -, rfl⟩
      · have older := (earlierRows later oldLater).1
        change desired.generation < later.generation at before
        omega
      · exact absurd before (Nat.lt_irrefl _)

omit [Sha256] in
theorem Historic.desire {authority : DesiredAuthority} {before after : PresenceStore}
    {outcome : DesiredCommit} (historic : Historic before)
    (done : commitDesired authority before = .ok (outcome, after)) : Historic after := by
  rcases commitDesired_spec done with ⟨only, rows, -, ⟨-, rfl⟩ | ⟨-, changes⟩⟩
  · exact historic
  · have sameOutbox : after.outbox = before.outbox := by rw [only]
    refine ⟨?_, ?_, ?_⟩
    · rw [only]
      exact historic.referenced
    · intro row rowMem
      rw [sameOutbox] at rowMem
      refine ⟨outcome.state, by simp [rows], ?_⟩
      rcases historic.bounded row rowMem with ⟨desired, desiredMem, reached⟩
      rcases changes with ⟨none, -⟩ | ⟨old, single, -, next⟩
      · rw [none] at desiredMem
        cases desiredMem
      · rw [single, List.mem_singleton] at desiredMem
        subst desiredMem
        omega
    · rw [sameOutbox]
      exact historic.authored

end Histories

section Descriptions

variable [Sha256] [PresenceEvents]

omit [Sha256] [PresenceEvents] in
/-- The outboxes of the current generation are those of the desired state. -/
def Described (store : PresenceStore) : Prop :=
  ∀ row ∈ store.outbox.rows, ∀ desired ∈ store.desired.rows,
    desired.generation = row.generation → desiredMatchesOutbox desired row = true

omit [Sha256] [PresenceEvents] in
theorem desiredMatchesOutbox_congr {desired : DesiredRow} {old new : PresenceRow}
    (same : new.identity = old.identity) :
    desiredMatchesOutbox desired new = desiredMatchesOutbox desired old := by
  have columns := PresenceRow.mk.inj same
  simp only [desiredMatchesOutbox, columns]

omit [Sha256] [PresenceEvents] in
theorem Described.kept {before after : PresenceStore} (described : Described before)
    (kept : Kept before after) : Described after := by
  intro row rowMem desired desiredMem current
  rcases kept.origin rowMem with ⟨old, oldMem, same⟩
  rw [desiredMatchesOutbox_congr same]
  rw [show row.generation = old.generation from congrArg (·.generation) same] at current
  exact described old oldMem desired (kept.desired ▸ desiredMem) current

theorem Described.opened {documents : SignedDocuments} {desired : DesiredRow} {committedAt : Nat}
    {before after : PresenceStore} (described : Described before)
    (isDesired : readDesiredBinding before = .ok desired) (verified : Verified documents desired)
    (opened : Opened documents desired committedAt before after) : Described after := by
  rcases opened.superseded with ⟨outbox, affected, updated, inserted⟩
  have waiting := described.kept (kept_of_outbox updated)
  have single := readDesiredBinding_spec.mp isDesired
  intro row rowMem stored storedMem current
  rw [inserted.desiredState] at storedMem
  rw [inserted.rows] at rowMem
  rcases List.mem_append.mp rowMem with old | new
  · exact waiting row old stored storedMem current
  · rcases List.mem_map.mp new with ⟨document, documentMem, rfl⟩
    change stored ∈ before.desired.rows at storedMem
    rw [single, List.mem_singleton] at storedMem
    subst storedMem
    have listed : document.kind ∈ stored.documentKinds := by
      rcases List.forall₂_iff_get.mp verified.listed with ⟨lengths, each⟩
      rcases List.mem_iff_get.mp documentMem with ⟨⟨index, inside⟩, rfl⟩
      rw [(each index inside (lengths ▸ inside)).1]
      exact List.get_mem _ _
    have enabled := enabled_of_kinds isDesired (List.ne_nil_of_mem listed)
    simp [desiredMatchesOutbox, outboxRow, enabled, listed]

omit [Sha256] in
/-- A change of the desired state leaves every outbox behind. -/
theorem Described.desire {authority : DesiredAuthority} {before after : PresenceStore}
    {outcome : DesiredCommit} (described : Described before) (historic : Historic before)
    (done : commitDesired authority before = .ok (outcome, after)) : Described after := by
  rcases commitDesired_spec done with ⟨only, rows, -, ⟨-, rfl⟩ | ⟨-, changes⟩⟩
  · exact described
  · intro row rowMem desired desiredMem current
    rw [only] at rowMem
    rw [rows, List.mem_singleton] at desiredMem
    subst desiredMem
    rcases historic.bounded row rowMem with ⟨older, olderMem, reached⟩
    rcases changes with ⟨none, -⟩ | ⟨old, single, -, next⟩
    · rw [none] at olderMem
      cases olderMem
    · rw [single, List.mem_singleton] at olderMem
      subst olderMem
      omega

end Descriptions

section Lawfulness

variable [Sha256] [PresenceEvents]

/-- What every run keeps. -/
structure Lawful (system : System) : Prop where
  coherent : Every PresenceRecord.Coherent system.store
  historic : Historic system.store
  logged : Logged system.store
  quiet : ∀ lease ∈ system.leases, Quiet lease.outbox.targets

theorem Lawful.sound {system : System} (lawful : Lawful system) :
    Every PresenceRecord.Sound system.store :=
  fun id record found => (lawful.coherent id record found).sound

theorem lawful_initial : Lawful System.initial := by
  refine ⟨?_, ⟨?_, ?_, ?_⟩, ?_, ?_⟩
  · intro id record found
    cases found
  · intro id _
    rfl
  · intro row rowMem
    cases rowMem
  · intro earlier earlierMem
    cases earlierMem
  · intro attempt attemptMem
    cases attemptMem
  · intro lease leaseMem
    cases leaseMem

theorem mem_leases_of_apply {move : Move} {system : System} {lease : PresenceLease}
    (leaseMem : lease ∈ (system.apply move).leases) :
    lease ∈ system.leases ∨ ∃ disposition owner now, move = .claim disposition owner now ∧
      claimNext owner now system.store = .ok (some lease, (system.apply move).store) := by
  cases move with
  | claim disposition owner now =>
      simp only [System.apply, List.mem_append] at leaseMem
      rcases leaseMem with old | new
      · exact .inl old
      · refine .inr ⟨disposition, owner, now, rfl, ?_⟩
        simp only [claimNextPresence, ne_eq, not_true_eq_false, if_false] at new
        cases returned : (transaction mapPresenceError disposition (claimNext owner now)
          system.store).1 with
        | error error => simp [returned, Except.toOption] at new
        | ok value =>
            have result := transaction_ok returned
            simp only [returned, Except.toOption, Option.join_some, Option.mem_toList] at new
            rw [new] at result
            simpa [System.apply, claimNextPresence] using result
  | prepare disposition other startedAt =>
      left
      simp only [System.apply] at leaseMem
      split at leaseMem <;> exact leaseMem
  | record disposition prepared finishedAt outcome delay =>
      left
      simp only [System.apply] at leaseMem
      split at leaseMem <;> exact leaseMem
  | configure | desire | commit | recover | refresh => exact .inl leaseMem

theorem mem_attempts_of_apply {move : Move} {system : System} {prepared : PreparedPresence}
    (preparedMem : prepared ∈ (system.apply move).attempts) :
    prepared ∈ system.attempts ∨ ∃ disposition lease startedAt,
      move = .prepare disposition lease startedAt ∧ lease ∈ system.leases ∧
      prepareNext lease startedAt system.store = .ok (prepared, (system.apply move).store) := by
  cases move with
  | prepare disposition lease startedAt =>
      by_cases leaseMem : lease ∈ system.leases
      · simp only [System.apply, if_pos leaseMem, List.mem_append] at preparedMem
        rcases preparedMem with old | new
        · exact .inl old
        · refine .inr ⟨disposition, lease, startedAt, rfl, leaseMem, ?_⟩
          simp only [prepareNextPresenceTarget, ne_eq, not_true_eq_false, if_false] at new
          cases returned : (transaction mapPresenceError disposition (prepareNext lease startedAt)
            system.store).1 with
          | error error => simp [returned, Except.toOption] at new
          | ok value =>
              have result := transaction_ok returned
              simp only [returned, Except.toOption, Option.toList_some, List.mem_singleton] at new
              rw [← new] at result
              simpa [System.apply, prepareNextPresenceTarget, leaseMem] using result
      · left
        simpa only [System.apply, if_neg leaseMem] using preparedMem
  | record disposition other finishedAt outcome delay =>
      left
      simp only [System.apply] at preparedMem
      split at preparedMem <;> exact preparedMem
  | configure | desire | commit | claim | recover | refresh => exact .inl preparedMem

/-- Every outbox took a step, and the history goes on. -/
structure Advance (allowed : Prop) (before after : PresenceStore) : Prop where
  effects : Effects allowed before after
  historic : Historic after
  logged : Logged after
  stays : ∀ generation, announced generation before ≠ [] →
    announced generation after = announced generation before
  described : Described before → Described after

theorem advance_apply (move : Move) {system : System} (lawful : Lawful system) :
    Advance (move.Reopens system) system.store (system.apply move).store := by
  have sound := lawful.sound
  have unchanged : Advance (move.Reopens system) system.store system.store :=
    ⟨.refl _, lawful.historic, lawful.logged, fun _ _ => rfl, id⟩
  cases move with
  | configure bindings =>
      exact ⟨.refl _, ⟨lawful.historic.referenced, lawful.historic.bounded,
        lawful.historic.authored⟩, lawful.logged, fun _ _ => rfl, id⟩
  | desire disposition authority =>
      simp only [System.apply, commitDesiredPresence, ne_eq, not_true_eq_false, if_false]
      refine transaction_kept unchanged ?_
      intro outcome next done
      have only := (commitDesired_spec done).1
      refine ⟨?_, lawful.historic.desire done, ?_, ?_, fun described =>
        described.desire lawful.historic done⟩
      · rw [only]
        exact .refl _
      · rw [only]
        exact lawful.logged
      · rw [only]
        exact fun _ _ => rfl
  | commit disposition documents committedAt =>
      simp only [System.apply, commitSignedPresence, ne_eq, not_true_eq_false, if_false]
      refine transaction_kept unchanged ?_
      intro outcome next done
      rcases commitSigned_spec lawful.historic.referenced done with
        ⟨desired, isDesired, verified, -, ⟨-, rfl, -⟩ | opened⟩
      · exact unchanged
      · refine ⟨effects_of_opened opened, lawful.historic.opened isDesired opened,
          logged_of_opened opened lawful.logged, ?_, fun described =>
            described.opened isDesired verified opened⟩
        intro generation present
        refine announced_of_opened opened ?_
        rintro rfl
        exact present (by simp [announced, opened.absent])
  | claim disposition owner now =>
      simp only [System.apply, claimNextPresence, ne_eq, not_true_eq_false, if_false]
      refine transaction_kept unchanged ?_
      intro outcome next done
      cases outcome with
      | none =>
          rw [claimNext_none done]
          exact unchanged
      | some lease =>
          rcases claimNext_spec sound done with ⟨record, -, -, stepped⟩
          exact ⟨stepped.effects fun _ => trivial, lawful.historic.kept stepped.kept,
            stepped.logged lawful.logged, fun generation _ => announced_of_kept stepped.kept _,
            fun described => described.kept stepped.kept⟩
  | prepare disposition lease startedAt =>
      simp only [System.apply]
      split
      · rename_i leaseMem
        simp only [prepareNextPresenceTarget, ne_eq, not_true_eq_false, if_false]
        refine transaction_kept unchanged ?_
        intro prepared next done
        rcases prepareNext_spec sound (lawful.quiet lease leaseMem) done with
          ⟨old, -, -, -, -, -, -, -, stepped⟩
        exact ⟨stepped.effects fun _ => trivial, lawful.historic.kept stepped.kept,
            stepped.logged lawful.logged, fun generation _ => announced_of_kept stepped.kept _,
            fun described => described.kept stepped.kept⟩
      · exact unchanged
  | record disposition prepared finishedAt outcome delay =>
      simp only [System.apply]
      split
      · simp only [recordPresenceOutcome, ne_eq, not_true_eq_false, if_false]
        split
        · exact unchanged
        · refine transaction_kept unchanged ?_
          intro committed next done
          rcases recordOutcome_spec sound done with rfl | ⟨record, released, stepped, -⟩
          · exact unchanged
          · exact ⟨stepped.effects fun _ => trivial, lawful.historic.kept stepped.kept,
            stepped.logged lawful.logged, fun generation _ => announced_of_kept stepped.kept _,
            fun described => described.kept stepped.kept⟩
      · exact unchanged
  | recover disposition candidate now delay =>
      refine transaction_kept unchanged ?_
      intro done next recovered
      rcases recoverExpired_spec lawful.coherent recovered with
        ⟨settled, state, schedule, stepped, -, -⟩
      exact ⟨stepped.effects fun _ => trivial, lawful.historic.kept stepped.kept,
            stepped.logged lawful.logged, fun generation _ => announced_of_kept stepped.kept _,
            fun described => described.kept stepped.kept⟩
  | refresh disposition expected now =>
      refine transaction_kept unchanged ?_
      intro done next refreshed
      exact ⟨effects_of_refresh refreshed fun reopens => reopens,
        lawful.historic.kept (refresh_spec refreshed).1, (refresh_spec refreshed).2.1 lawful.logged,
        fun generation _ => announced_of_kept (refresh_spec refreshed).1 _,
        fun described => described.kept (refresh_spec refreshed).1⟩

theorem lawful_apply (move : Move) (system : System) (lawful : Lawful system) :
    Lawful (system.apply move) := by
  rcases advance_apply move lawful with ⟨effects, historic, logged, -, -⟩
  refine ⟨effects.coherent lawful.coherent, historic, logged, ?_⟩
  intro lease leaseMem
  rcases mem_leases_of_apply leaseMem with old | ⟨disposition, owner, now, rfl, done⟩
  · exact lawful.quiet lease old
  · rcases claimNext_spec lawful.sound done with ⟨record, rfl, -, stepped⟩
    refine (lawful.coherent _ _ stepped.before).attended.quiet ?_
    rw [stepped.claimed.1]
    decide

theorem lawful_exec (moves : List Move) : Lawful (System.exec moves .initial) :=
  Transition.exec_invariant Lawful lawful_apply moves lawful_initial

theorem described_exec (moves : List Move) : Described (System.exec moves .initial).store := by
  have kept := Transition.exec_invariant
    (fun system : System => Lawful system ∧ Described system.store)
    (fun move system invariant => ⟨lawful_apply move system invariant.1,
      (advance_apply move invariant.1).described invariant.2⟩) moves
    ⟨lawful_initial, by
      intro row rowMem
      cases rowMem⟩
  exact kept.2

end Lawfulness

end Presence

end Rhi
