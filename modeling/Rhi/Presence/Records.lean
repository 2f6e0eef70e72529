import Rhi.Presence.Operations
import Rhi.Publication.Coherence

/-!
# Presence records

Everything that can happen to an outbox and its targets, and what this keeps: the inventory, the
signed document, one attempt at a time and only under a lease, and completion by acceptance.
-/

namespace Rhi

open Relational Transactional
open Publication (Sorted targetsValid_congr targetsValid_spec)

namespace PresenceRecord

section Steps

def claim (owner : LeaseOwner) (expires now : Nat) (record : PresenceRecord) : PresenceRecord :=
  { record with
    row := (Presence.claimOutbox owner expires now record.row.outboxId record.row.revision).write
      record.row }

def submit (attemptId : Digest) (now : Nat) (old : TargetRow) (record : PresenceRecord) :
    PresenceRecord :=
  { record with
    targets := exchange old ((prepareTarget attemptId now old.outboxId old.targetOrdinal
      old.revision presenceMaxAttempts).write old) record.targets }

def settle (input : PresenceInput) (state : TargetState) (next : Option Nat) (old : TargetRow)
    (record : PresenceRecord) : PresenceRecord :=
  { record with
    targets := exchange old ((Presence.recordTarget state next input).write old) record.targets }

/-- The end of a lease, and of the outbox of an earlier generation. -/
def release (state : PresenceState) (next : Option Nat) (now : Nat) (record : PresenceRecord) :
    PresenceRecord :=
  { record with
    row := { record.row with
      state, revision := record.row.revision + 1, nextAttempt := next, leaseOwner := none
      leaseExpires := none, updatedAt := now } }

def refresh (now : Nat) (record : PresenceRecord) : PresenceRecord :=
  { record with row := (Presence.refreshOutbox record.row.generation now).write record.row }

/-- An outcome is recorded for the submitted target it belongs to. -/
structure Settles (input : PresenceInput) (state : TargetState) (next : Option Nat)
    (old : TargetRow) (record : PresenceRecord) : Prop where
  mem : old ∈ record.targets
  submitted : old.state = .submitted
  number : old.attemptCount = input.attemptNumber
  identity : old.lastAttemptId = some input.attemptId
  scheduled : ∃ bound, outcomeSchedule presenceMaxAttempts bound input.attemptNumber
    input.finishedAt input.retryDelay input.outcome = some (state, next)

/-- The outcome of the attempt under way is written, or there is none under way. -/
inductive Settlement (now : Nat) (record : PresenceRecord) : PresenceRecord → Prop where
  | none (quiet : Quiet record.targets) : Settlement now record record
  | one {input : PresenceInput} {state : TargetState} {schedule : Option Nat} {old : TargetRow}
      (finished : input.finishedAt = now) (settles : record.Settles input state schedule old) :
      Settlement now record (record.settle input state schedule old)

/-- A released outbox has the state its targets give it, or is superseded. -/
def Decides (targets : List TargetRow) (state : PresenceState) (next : Option Nat) : Prop :=
  (state = .superseded ∧ next = none) ∨
    ∃ decided, verdict presenceMaxAttempts targets = some decided ∧
      decided.presenceState = (state, next)

/-- What the presence transactions do to an outbox. -/
inductive Action where
  | claim
  | submit
  | conclude
  | supersede
  | refresh
deriving DecidableEq, Repr

/-- Everything an action can do to an outbox. -/
inductive Step : Action → PresenceRecord → PresenceRecord → Prop where
  | claim {record : PresenceRecord} {owner : LeaseOwner} {expires now next : Nat}
      (pending : record.row.state = .pending) (scheduled : record.row.nextAttempt = some next)
      (due : next ≤ now) (forward : record.row.updatedAt ≤ now) :
      Step .claim record (record.claim owner expires now)
  | submit {record : PresenceRecord} {attemptId : Digest} {now expires : Nat} {old : TargetRow}
      (leased : record.row.state = .leased) (expiry : record.row.leaseExpires = some expires)
      (early : now < expires) (oldMem : old ∈ record.targets)
      (due : old.isDue presenceMaxAttempts now = true) (quiet : Quiet record.targets) :
      Step .submit record (record.submit attemptId now old)
  | conclude {record settled : PresenceRecord} {now : Nat} {state : PresenceState}
      {next : Option Nat} (leased : record.row.state = .leased)
      (forward : record.row.updatedAt ≤ now) (settlement : Settlement now record settled)
      (decides : Decides settled.targets state next) :
      Step .conclude record (settled.release state next now)
  | supersede {record : PresenceRecord} {now : Nat}
      (waiting : record.row.state = .pending ∨ record.row.state = .blocked)
      (forward : record.row.updatedAt ≤ now) :
      Step .supersede record (record.release .superseded none now)
  | refresh {record : PresenceRecord} {now : Nat} (blocked : record.row.state = .blocked)
      (forward : record.row.updatedAt ≤ now) : Step .refresh record (record.refresh now)

end Steps

section Soundness

variable [Sha256] [PresenceEvents]

/-- The inventory is the committed one, and the row carries a verified document. -/
structure Sound (record : PresenceRecord) : Prop where
  named : ∀ target ∈ record.targets, target.outboxId = record.row.outboxId
  inventory : targetsValid presenceTargetSet record.row.targetCount record.row.requiredTargetCount
    record.row.targetSet record.targets = true
  nonempty : record.targets ≠ []
  decodable : Presence.decodable record.row = true
  isSigned : (validateSignedDocument record.row.kind record.row.servicePublicKey
    record.row.authoredAt record.row.signedEvent).isSome = true

variable {record next : PresenceRecord} {action : Action}

theorem Sound.ordinals (sound : record.Sound) :
    record.targets.map (·.targetOrdinal) = List.range record.targets.length :=
  (targetsValid_spec sound.inventory).1

theorem Sound.sorted (sound : record.Sound) : Sorted record.targets := by
  refine ⟨?_, (targetsValid_spec sound.inventory).2.1⟩
  have increasing : (List.range record.targets.length).Pairwise (· ≤ ·) :=
    List.pairwise_lt_range.imp Nat.le_of_lt
  rw [← sound.ordinals, List.pairwise_map] at increasing
  exact increasing

theorem Sound.distinct (sound : record.Sound) {left right : TargetRow}
    (leftMem : left ∈ record.targets) (rightMem : right ∈ record.targets)
    (same : left.targetOrdinal = right.targetOrdinal) : left = right := by
  have nodup : (record.targets.map (·.targetOrdinal)).Nodup := by
    rw [sound.ordinals]
    exact List.nodup_range
  exact List.inj_on_of_nodup_map nodup leftMem rightMem same

/-- The targets keep what their authority fixed, and the row its document. -/
theorem Sound.of_kept (sound : record.Sound)
    (named : ∀ target ∈ next.targets, target.outboxId = record.row.outboxId)
    (targets : next.targets.map TargetRow.target = record.targets.map TargetRow.target)
    (row : PresenceRow.SameIdentity record.row next.row) (owner : next.row.leaseOwner ≠ some 0) :
    next.Sound := by
  rcases row with ⟨outboxId, -, kind, -, targetSet, -, eventDigest, signedEvent, authoredAt, key,
    count, required, -⟩
  have readable := sound.decodable
  simp only [Presence.decodable, Bool.and_eq_true] at readable
  refine ⟨?_, ?_, ?_, ?_, ?_⟩
  · rw [outboxId]
    exact named
  · rw [count, required, targetSet, targetsValid_congr targets]
    exact sound.inventory
  · intro empty
    rw [empty] at targets
    exact sound.nonempty (List.map_eq_nil_iff.mp targets.symm)
  · simp only [Presence.decodable, eventDigest, signedEvent, key, readable.1, Bool.and_self,
      Bool.true_and, bne_iff_ne]
    exact owner
  · rw [kind, key, authoredAt, signedEvent]
    exact sound.isSigned

omit [Sha256] [PresenceEvents] in
theorem Settlement.row_eq {now : Nat} {settled : PresenceRecord}
    (settlement : Settlement now record settled) : settled.row = record.row := by
  cases settlement <;> rfl

omit [Sha256] [PresenceEvents] in
theorem Settlement.target_eq {now : Nat} {settled : PresenceRecord}
    (settlement : Settlement now record settled) :
    settled.targets.map TargetRow.target = record.targets.map TargetRow.target := by
  cases settlement with
  | none => rfl
  | one => exact map_exchange _ _ rfl

omit [Sha256] [PresenceEvents] in
theorem Settlement.named {now : Nat} {settled : PresenceRecord} {outbox : Digest}
    (settlement : Settlement now record settled)
    (named : ∀ target ∈ record.targets, target.outboxId = outbox) :
    ∀ target ∈ settled.targets, target.outboxId = outbox := by
  cases settlement with
  | none => exact named
  | one finished settles => exact Publication.Snapshot.named_exchange named settles.mem rfl

omit [Sha256] [PresenceEvents] in
theorem sameIdentity_refl (row : PresenceRow) : PresenceRow.SameIdentity row row :=
  ⟨rfl, rfl, rfl, rfl, rfl, rfl, rfl, rfl, rfl, rfl, rfl, rfl, rfl⟩

theorem Sound.owner (sound : record.Sound) : record.row.leaseOwner ≠ some 0 := by
  have readable := sound.decodable
  simp only [Presence.decodable, Bool.and_eq_true, bne_iff_ne] at readable
  exact readable.2

theorem Sound.settlement {now : Nat} {settled : PresenceRecord} (sound : record.Sound)
    (settlement : Settlement now record settled) : settled.Sound := by
  have row := settlement.row_eq
  refine sound.of_kept (settlement.named sound.named) settlement.target_eq ?_ ?_
  · rw [row]
    exact sameIdentity_refl record.row
  · rw [row]
    exact sound.owner

theorem Sound.release {state : PresenceState} {schedule : Option Nat} {now : Nat}
    (sound : record.Sound) : (record.release state schedule now).Sound :=
  sound.of_kept sound.named rfl (sameIdentity_refl record.row) (by simp [PresenceRecord.release])

omit [Sha256] [PresenceEvents] in
/-- Every step keeps what the authority fixed of the targets. -/
theorem Step.target_eq (step : Step action record next) :
    next.targets.map TargetRow.target = record.targets.map TargetRow.target := by
  cases step with
  | submit => exact map_exchange _ _ rfl
  | conclude leased forward settlement => exact settlement.target_eq
  | claim | supersede | refresh => rfl

omit [Sha256] [PresenceEvents] in
/-- A submission leaves the row alone; every other step raises its revision. -/
theorem Step.revision (step : Step action record next) :
    (action = .submit ∧ next.row = record.row) ∨
      next.row.revision = record.row.revision + 1 := by
  cases step with
  | submit => exact .inl ⟨rfl, rfl⟩
  | conclude leased forward settlement =>
      right
      simp [PresenceRecord.release, settlement.row_eq]
  | claim | supersede | refresh => exact .inr rfl

theorem Sound.step (sound : record.Sound) (step : Step action record next) : next.Sound := by
  cases step with
  | claim pending =>
      refine sound.of_kept sound.named rfl (sameIdentity_refl record.row) ?_
      intro zero
      exact LeaseOwner.nonzero _ (Option.some.inj zero)
  | submit leased expiry early oldMem =>
      exact sound.of_kept (Publication.Snapshot.named_exchange sound.named oldMem rfl)
        (map_exchange _ _ rfl) (sameIdentity_refl record.row) sound.owner
  | conclude leased forward settlement decides => exact (sound.settlement settlement).release
  | supersede => exact sound.release
  | refresh =>
      exact sound.of_kept sound.named rfl (sameIdentity_refl record.row) sound.owner

end Soundness

section Attending

variable {record next : PresenceRecord} {action : Action}

/-- Attempts are made one at a time and under a lease, and completion is acceptance by every
required target. -/
structure Attended (record : PresenceRecord) : Prop where
  tracked : Tracked presenceMaxAttempts (record.row.state == .leased) record.targets
  begun : ∀ target ∈ record.targets, target.state = .submitted →
    ∃ expires, record.row.leaseExpires = some expires ∧ target.updatedAt < expires
  written : ∀ target ∈ record.targets, target.state ≠ .submitted →
    target.updatedAt ≤ record.row.updatedAt
  complete : record.row.state = .complete → ∀ target ∈ record.targets, target.required = true →
    target.state = .accepted

theorem Settles.settledFrom {input : PresenceInput} {state : TargetState} {schedule : Option Nat}
    {old : TargetRow} (settles : record.Settles input state schedule old) :
    old.SettledFrom presenceMaxAttempts
      ((Presence.recordTarget state schedule input).write old) := by
  rcases settles.scheduled with ⟨bound, scheduled⟩
  rcases outcomeSchedule_spec scheduled with ⟨decided, retryable, renewed⟩
  refine ⟨rfl, rfl, rfl, decided, retryable, ?_⟩
  intro again
  rw [show ((Presence.recordTarget state schedule input).write old).attemptCount =
    input.attemptNumber from settles.number]
  exact renewed again

variable [Sha256] [PresenceEvents]

theorem Settlement.quiet {now : Nat} {settled : PresenceRecord} (sound : record.Sound)
    (attended : record.Attended) (settlement : Settlement now record settled) :
    Quiet settled.targets := by
  cases settlement with
  | none quiet => exact quiet
  | one finished settles =>
      exact attended.tracked.quiet_of_settle
        (fun target targetMem same => sound.distinct targetMem settles.mem same) settles.mem
        settles.submitted settles.settledFrom

theorem Settlement.tracked {now : Nat} {settled : PresenceRecord} (sound : record.Sound)
    (attended : record.Attended) (settlement : Settlement now record settled) :
    Tracked presenceMaxAttempts (record.row.state == .leased) settled.targets := by
  cases settlement with
  | none quiet => exact attended.tracked
  | one finished settles =>
      exact attended.tracked.settle
        (fun target targetMem same => sound.distinct targetMem settles.mem same) settles.mem
        settles.submitted settles.settledFrom

omit [Sha256] [PresenceEvents] in
/-- A change of the row alone, while no attempt is under way. -/
theorem Attended.of_quiet (attended : record.Attended) (quiet : Quiet record.targets)
    (targets : next.targets = record.targets) (forward : record.row.updatedAt ≤ next.row.updatedAt)
    (complete : next.row.state = .complete → ∀ target ∈ record.targets, target.required = true →
      target.state = .accepted) : next.Attended := by
  refine ⟨?_, ?_, ?_, ?_⟩
  all_goals rw [targets]
  · exact attended.tracked.of_quiet quiet
  · intro target targetMem isSubmitted
    exact absurd isSubmitted (quiet target targetMem)
  · intro target targetMem notSubmitted
    exact (attended.written target targetMem notSubmitted).trans forward
  · exact complete

omit [Sha256] [PresenceEvents] in
theorem Attended.quiet (attended : record.Attended) (unleased : record.row.state ≠ .leased) :
    Quiet record.targets := by
  have tracked := attended.tracked
  rw [beq_eq_false_iff_ne.mpr unleased] at tracked
  exact tracked.quiet

/-- The outbox after its attempt was settled. -/
theorem Attended.conclude {now : Nat} {settled : PresenceRecord} {state : PresenceState}
    {schedule : Option Nat} (sound : record.Sound) (attended : record.Attended)
    (settlement : Settlement now record settled) (forward : record.row.updatedAt ≤ now)
    (decides : Decides settled.targets state schedule) :
    (settled.release state schedule now).Attended := by
  have quiet := settlement.quiet sound attended
  refine ⟨(settlement.tracked sound attended).of_quiet quiet, ?_, ?_, ?_⟩
  · intro target targetMem isSubmitted
    exact absurd isSubmitted (quiet target targetMem)
  · intro target targetMem notSubmitted
    change target.updatedAt ≤ now
    cases settlement with
    | none =>
        have earlier := attended.written target targetMem notSubmitted
        omega
    | one finished settles =>
        rcases mem_exchange targetMem with rfl | ⟨stored, -⟩
        · exact Nat.le_of_eq finished
        · have earlier := attended.written target stored notSubmitted
          omega
  · intro isComplete
    rcases decides with ⟨rfl, -⟩ | ⟨decided, decides, given⟩
    · cases isComplete
    · cases decided with
      | complete => exact verdict_eq_complete.mp decides
      | blocked =>
          cases given
          cases isComplete
      | pending =>
          cases given
          cases isComplete

theorem Attended.step (sound : record.Sound) (attended : record.Attended)
    (step : Step action record next) : next.Attended := by
  cases step with
  | claim pending scheduled due forward =>
      refine attended.of_quiet (attended.quiet ?_) rfl forward ?_
      · rw [pending]
        decide
      · intro impossible
        cases impossible
  | @submit _ attemptId now expires old leased expiry early oldMem due quiet =>
      have tracked : Tracked presenceMaxAttempts true record.targets := by
        have held := attended.tracked
        rw [leased] at held
        exact held
      refine ⟨?_, ?_, ?_, ?_⟩
      · change Tracked presenceMaxAttempts (record.row.state == .leased) _
        rw [leased]
        exact tracked.submit quiet due
          (Publication.Snapshot.submittedFrom_prepare attemptId now presenceMaxAttempts old)
      · intro target targetMem isSubmitted
        rcases mem_exchange targetMem with rfl | ⟨stored, -⟩
        · exact ⟨expires, expiry, early⟩
        · exact absurd isSubmitted (quiet target stored)
      · intro target targetMem notSubmitted
        rcases mem_exchange targetMem with rfl | ⟨stored, -⟩
        · exact absurd rfl notSubmitted
        · exact attended.written target stored notSubmitted
      · intro impossible
        rw [show (record.submit attemptId now old).row.state = .leased from leased] at impossible
        cases impossible
  | conclude leased forward settlement decides =>
      exact attended.conclude sound settlement forward decides
  | supersede waiting forward =>
      refine attended.of_quiet (attended.quiet ?_) rfl forward ?_
      · rcases waiting with pending | blocked
        · rw [pending]
          decide
        · rw [blocked]
          decide
      · intro impossible
        cases impossible
  | refresh blocked forward =>
      refine attended.of_quiet (attended.quiet ?_) rfl forward ?_
      · rw [blocked]
        decide
      · intro impossible
        cases impossible

/-- An outbox whose document, inventory and attempts agree. -/
structure Coherent (record : PresenceRecord) : Prop where
  sound : record.Sound
  attended : record.Attended

theorem Coherent.step (coherent : record.Coherent) (step : Step action record next) :
    next.Coherent where
  sound := coherent.sound.step step
  attended := coherent.attended.step coherent.sound step

theorem Coherent.submitted (coherent : record.Coherent) :
    (record.targets.filter fun target => target.state == .submitted) = [] ∨
      ∃ target ∈ record.targets, target.state = .submitted ∧
        (record.targets.filter fun target => target.state == .submitted) = [target] := by
  refine coherent.attended.tracked.submitted ?_
  rw [coherent.sound.ordinals]
  exact List.nodup_range

end Attending

section Starting

variable {record next : PresenceRecord} {action : Action}

/-- A pending outbox has a target that is due when the outbox is. -/
structure Startable (record : PresenceRecord) : Prop where
  isOpen : Open presenceMaxAttempts record.targets
  due : record.row.state = .pending → ∃ instant, record.row.nextAttempt = some instant ∧
    ∃ target ∈ record.targets, target.isDue presenceMaxAttempts instant = true

/-- A refresh finds a target that is due at its instant. -/
def Reopens (record next : PresenceRecord) : Action → Prop
  | .refresh => ∃ target ∈ record.targets,
      target.isDue presenceMaxAttempts next.row.updatedAt = true
  | _ => True

variable [Sha256] [PresenceEvents]

theorem Startable.conclude {now : Nat} {settled : PresenceRecord} {state : PresenceState}
    {schedule : Option Nat} (coherent : record.Coherent) (startable : record.Startable)
    (settlement : Settlement now record settled)
    (decides : Decides settled.targets state schedule) :
    (settled.release state schedule now).Startable := by
  have isOpen : Open presenceMaxAttempts settled.targets := by
    cases settlement with
    | none => exact startable.isOpen
    | one finished settles => exact startable.isOpen.settle settles.settledFrom
  refine ⟨isOpen, ?_⟩
  intro pending
  rcases decides with ⟨rfl, -⟩ | ⟨decided, decides, given⟩
  · cases pending
  · cases decided with
    | complete =>
        cases given
        cases pending
    | blocked =>
        cases given
        cases pending
    | pending instant =>
        cases given
        exact ⟨instant, rfl,
          (settlement.tracked coherent.sound coherent.attended).exists_due isOpen decides⟩

theorem Startable.step (coherent : record.Coherent) (startable : record.Startable)
    (reopens : record.Reopens next action) (step : Step action record next) : next.Startable := by
  cases step with
  | claim =>
      refine ⟨startable.isOpen, ?_⟩
      intro impossible
      cases impossible
  | @submit _ attemptId now expires old leased expiry early oldMem due quiet =>
      refine ⟨startable.isOpen.submit
        (Publication.Snapshot.submittedFrom_prepare attemptId now presenceMaxAttempts old), ?_⟩
      intro impossible
      rw [show (record.submit attemptId now old).row.state = .leased from leased] at impossible
      cases impossible
  | conclude leased forward settlement decides =>
      exact startable.conclude coherent settlement decides
  | supersede =>
      refine ⟨startable.isOpen, ?_⟩
      intro impossible
      cases impossible
  | @refresh _ now blocked forward => exact ⟨startable.isOpen, fun _ => ⟨now, rfl, reopens⟩⟩

end Starting

end PresenceRecord

end Rhi
