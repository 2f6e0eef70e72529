import Mathlib.Data.List.Range
import Rhi.Publication.Effects

/-!
# Coherence of an outbox with its targets

What every step of an outbox keeps: its inventory, at most one attempt under way and only under a
lease, a state that is the verdict of the required targets, and a log of attempts without a gap.
-/

namespace Rhi

open Relational Transactional

namespace Publication

section Inventories

variable [Sha256]

/-- The inventory of an outbox is decided by what its authority fixed of the targets. -/
theorem targetsValid_congr {domain : String} {targetCount requiredCount : Nat} {targetSet : Digest}
    {left right : List TargetRow} (same : left.map TargetRow.target = right.map TargetRow.target) :
    targetsValid domain targetCount requiredCount targetSet left =
      targetsValid domain targetCount requiredCount targetSet right := by
  have lengths : left.length = right.length := by
    simpa using congrArg List.length same
  have columns : ∀ {Value : Type} (column : PublicationTarget → Value),
      left.map (fun row => column row.target) = right.map (fun row => column row.target) := by
    intro Value column
    simpa [Function.comp_def] using congrArg (List.map column) same
  have ordinals := columns PublicationTarget.ordinal
  have relays := columns PublicationTarget.relayId
  have required : left.countP (·.required) = right.countP (·.required) := by
    have counted := congrArg (List.countP id) (columns PublicationTarget.required)
    simpa [List.countP_map, Function.comp_def, TargetRow.target] using counted
  simp only [TargetRow.target] at ordinals relays
  unfold targetsValid
  rw [lengths, ordinals, relays, required, same]

theorem targetsValid_spec {domain : String} {targetCount requiredCount : Nat} {targetSet : Digest}
    {targets : List TargetRow}
    (valid : targetsValid domain targetCount requiredCount targetSet targets = true) :
    targets.map (·.targetOrdinal) = List.range targets.length ∧
      targets.length ≤ publicationMaxTargets ∧ targets.length = targetCount ∧
      targets.countP (·.required) = requiredCount := by
  simp only [targetsValid, Bool.and_eq_true, beq_iff_eq, decide_eq_true_eq] at valid
  rcases valid with ⟨⟨⟨⟨⟨length, bounded⟩, ordinals⟩, required⟩, -⟩, -⟩
  exact ⟨ordinals, bounded, length, required⟩

end Inventories

namespace Snapshot

section Soundness

variable [Sha256]

/-- The inventory is the committed one, and the lease owner can be read. -/
structure Sound (current : Snapshot) : Prop where
  named : ∀ target ∈ current.targets, target.outboxId = current.row.outboxId
  inventory : targetsValid publicationTargetSet current.row.targetCount
    current.row.requiredTargetCount current.row.targetSet current.targets = true
  owner : ∃ owner, decodeOwner current.row.leaseOwner = .ok owner

variable {current next : Snapshot} {action : Action}

theorem Sound.ordinals (sound : current.Sound) :
    current.targets.map (·.targetOrdinal) = List.range current.targets.length :=
  (targetsValid_spec sound.inventory).1

theorem Sound.sorted (sound : current.Sound) : Sorted current.targets := by
  refine ⟨?_, (targetsValid_spec sound.inventory).2.1⟩
  have increasing : (List.range current.targets.length).Pairwise (· ≤ ·) :=
    List.pairwise_lt_range.imp Nat.le_of_lt
  rw [← sound.ordinals, List.pairwise_map] at increasing
  exact increasing

theorem Sound.distinct (sound : current.Sound) {left right : TargetRow}
    (leftMem : left ∈ current.targets) (rightMem : right ∈ current.targets)
    (same : left.targetOrdinal = right.targetOrdinal) : left = right := by
  have nodup : (current.targets.map (·.targetOrdinal)).Nodup := by
    rw [sound.ordinals]
    exact List.nodup_range
  exact List.inj_on_of_nodup_map nodup leftMem rightMem same

omit [Sha256] in
theorem decodeOwner_bytes (owner : LeaseOwner) :
    decodeOwner (some owner.bytes) = .ok (some owner) := by
  have made : LeaseOwner.fromBytes owner.bytes = some owner := by
    have nonzero := owner.nonzero
    simp only [LeaseOwner.fromBytes, ne_eq, nonzero, not_false_eq_true, dif_pos]
  simp [decodeOwner, made, orError, bind, Except.bind, pure, Except.pure]

omit [Sha256] in
theorem retry_target (current : Snapshot) (now : Nat) :
    (current.retry now).targets.map TargetRow.target = current.targets.map TargetRow.target := by
  simp only [retry, List.map_map]
  apply List.map_congr_left
  intro target targetMem
  simp only [Function.comp_apply, Table.rewrite]
  split <;> rfl

omit [Sha256] in
theorem Recovers.target_eq {now : Nat} {submitted : List TargetRow} {last : Snapshot}
    (recovers : Recovers now submitted current last) :
    last.targets.map TargetRow.target = current.targets.map TargetRow.target := by
  induction recovers with
  | nil current => rfl
  | cons same outcome finished settles others ih =>
      rw [ih]
      exact map_exchange _ _ rfl

omit [Sha256] in
theorem named_exchange {old new : TargetRow} {outbox : Digest} {targets : List TargetRow}
    (named : ∀ target ∈ targets, target.outboxId = outbox) (oldMem : old ∈ targets)
    (same : new.outboxId = old.outboxId) :
    ∀ target ∈ exchange old new targets, target.outboxId = outbox := by
  intro target targetMem
  rcases mem_exchange targetMem with rfl | ⟨stored, -⟩
  · exact same.trans (named old oldMem)
  · exact named target stored

omit [Sha256] in
theorem Recovers.named {now : Nat} {submitted : List TargetRow} {last : Snapshot} {outbox : Digest}
    (recovers : Recovers now submitted current last)
    (named : ∀ target ∈ current.targets, target.outboxId = outbox) :
    ∀ target ∈ last.targets, target.outboxId = outbox := by
  induction recovers with
  | nil current => exact named
  | cons same outcome finished settles others ih => exact ih (named_exchange named settles.mem rfl)

theorem Sound.of_target (sound : current.Sound)
    (named : ∀ target ∈ next.targets, target.outboxId = next.row.outboxId)
    (targets : next.targets.map TargetRow.target = current.targets.map TargetRow.target)
    (count : next.row.targetCount = current.row.targetCount)
    (required : next.row.requiredTargetCount = current.row.requiredTargetCount)
    (targetSet : next.row.targetSet = current.row.targetSet)
    (owner : ∃ owner, decodeOwner next.row.leaseOwner = .ok owner) : next.Sound := by
  refine ⟨named, ?_, owner⟩
  rw [count, required, targetSet, targetsValid_congr targets]
  exact sound.inventory

theorem Sound.step (sound : current.Sound) (step : Step action current next) : next.Sound := by
  cases step with
  | claim => exact sound.of_target sound.named rfl rfl rfl rfl ⟨_, decodeOwner_bytes _⟩
  | prepare leased expiry early oldMem =>
      exact sound.of_target (named_exchange sound.named oldMem rfl) (map_exchange _ _ rfl) rfl
        rfl rfl
        sound.owner
  | record leased forward settles decides =>
      exact sound.of_target (named_exchange sound.named settles.mem rfl) (map_exchange _ _ rfl) rfl
        rfl rfl ⟨none, rfl⟩
  | @recover _ last now decided leased forward recovers decides =>
      refine sound.of_target ?_ recovers.target_eq ?_ ?_ ?_ ⟨none, rfl⟩
      · simp only [release, recovers.row_eq]
        exact recovers.named sound.named
      all_goals simp only [release, recovers.row_eq]
  | retry =>
      refine sound.of_target ?_ (retry_target current _) rfl rfl rfl sound.owner
      intro target targetMem
      rcases List.mem_map.mp targetMem with ⟨old, oldMem, rfl⟩
      refine Eq.trans ?_ (sound.named old oldMem)
      simp only [Table.rewrite]
      split <;> rfl

end Soundness

section Attending

variable [Sha256] {current next : Snapshot} {action : Action}

omit [Sha256] in
theorem Settles.settledFrom {input : RecordInput} {state : TargetState} {schedule : Option Nat}
    {old : TargetRow} (settles : current.Settles input state schedule old) :
    old.SettledFrom current.row.maxAttempts
      ((recordTarget state schedule input.finishedAt input).write old) := by
  rcases settles.scheduled with ⟨bound, scheduled⟩
  rcases outcomeSchedule_spec scheduled with ⟨decided, retryable, renewed⟩
  refine ⟨rfl, rfl, rfl, decided, retryable, ?_⟩
  intro again
  rw [show ((recordTarget state schedule input.finishedAt input).write old).attemptCount =
    input.attemptNumber from settles.number]
  exact renewed again

omit [Sha256] in
theorem submittedFrom_prepare (attemptId : Digest) (now maxAttempts : Nat) (old : TargetRow) :
    old.SubmittedFrom ((prepareTarget attemptId now old.outboxId old.targetOrdinal old.revision
      maxAttempts).write old) :=
  ⟨rfl, rfl, rfl, rfl, rfl⟩

/-- The attempts of an outbox are made one at a time and under its lease; each is known by its
identity, and what is not under way was written no later than the outbox. -/
structure Attended (current : Snapshot) : Prop where
  tracked : Tracked current.row.maxAttempts (current.row.state == .leased) current.targets
  identified : ∀ target ∈ current.targets, target.state = .submitted →
    target.lastAttemptId = some (deriveAttemptId current.row.outboxId current.row.eventDigest
      target.targetOrdinal target.attemptCount)
  begun : ∀ target ∈ current.targets, target.state = .submitted →
    ∃ expires, current.row.leaseExpires = some expires ∧ target.updatedAt < expires
  written : ∀ target ∈ current.targets, target.state ≠ .submitted →
    target.updatedAt ≤ current.row.updatedAt

/-- An attempt is only begun when none is under way. -/
def Once (action : Action) (current : Snapshot) : Prop :=
  action = .prepare → Quiet current.targets

/-- The outcome of the attempt under way is written, or there is none under way. -/
inductive Settlement (now : Nat) (current : Snapshot) : Snapshot → Prop where
  | none (quiet : Quiet current.targets) : Settlement now current current
  | one {input : RecordInput} {state : TargetState} {schedule : Option Nat} {old : TargetRow}
      (finished : input.finishedAt = now) (settles : current.Settles input state schedule old) :
      Settlement now current (current.settle input state schedule old)

omit [Sha256] in
theorem Settlement.row_eq {now : Nat} {settled : Snapshot}
    (settlement : Settlement now current settled) : settled.row = current.row := by
  cases settlement <;> rfl

theorem Settlement.quiet {now : Nat} {settled : Snapshot} (sound : current.Sound)
    (attended : current.Attended) (settlement : Settlement now current settled) :
    Quiet settled.targets := by
  cases settlement with
  | none quiet => exact quiet
  | one finished settles =>
      exact attended.tracked.quiet_of_settle
        (fun target targetMem same => sound.distinct targetMem settles.mem same) settles.mem
        settles.submitted settles.settledFrom

theorem Settlement.tracked {now : Nat} {settled : Snapshot} (sound : current.Sound)
    (attended : current.Attended) (settlement : Settlement now current settled) :
    Tracked settled.row.maxAttempts (settled.row.state == .leased) settled.targets := by
  cases settlement with
  | none quiet => exact attended.tracked
  | one finished settles =>
      exact attended.tracked.settle
        (fun target targetMem same => sound.distinct targetMem settles.mem same) settles.mem
        settles.submitted settles.settledFrom

/-- A recovery finds at most one attempt under way. -/
theorem Recovers.settlement {now : Nat} {last : Snapshot} (sound : current.Sound)
    (attended : current.Attended)
    (recovers : Recovers now (current.targets.filter fun target => target.state == .submitted)
      current last) : Settlement now current last := by
  generalize listed : (current.targets.filter fun target => target.state == .submitted) =
    submitted at recovers
  cases recovers with
  | nil =>
      refine .none ?_
      intro target targetMem isSubmitted
      have selected : target ∈ current.targets.filter fun target => target.state == .submitted :=
        List.mem_filter.mpr ⟨targetMem, by simp [isSubmitted]⟩
      rw [listed] at selected
      cases selected
  | cons same outcome finished settles others =>
      have quiet := (Settlement.one finished settles).quiet sound attended
      cases others with
      | nil => exact .one finished settles
      | cons _ _ _ again _ => exact absurd again.submitted (quiet _ again.mem)

/-- The outbox after its attempt was settled. -/
theorem Attended.conclude {now : Nat} {settled : Snapshot} {decided : Verdict}
    (sound : current.Sound) (attended : current.Attended)
    (settlement : Settlement now current settled) (forward : current.row.updatedAt ≤ now) :
    (settled.release decided now).Attended := by
  have quiet := settlement.quiet sound attended
  refine ⟨(settlement.tracked sound attended).of_quiet quiet, ?_, ?_, ?_⟩
  · intro target targetMem isSubmitted
    exact absurd isSubmitted (quiet target targetMem)
  · intro target targetMem isSubmitted
    exact absurd isSubmitted (quiet target targetMem)
  · intro target targetMem notSubmitted
    change target.updatedAt ≤ now
    cases settlement with
    | none =>
        have earlier := attended.written target targetMem notSubmitted
        omega
    | one finished settles =>
        rcases mem_exchange targetMem with rfl | ⟨stored, -⟩
        · exact Nat.le_of_eq finished
        · have earlier := attended.written target stored notSubmitted
          omega

theorem Sound.mem_retry {now : Nat} {target : TargetRow} (sound : current.Sound)
    (targetMem : target ∈ (current.retry now).targets) :
    ∃ old ∈ current.targets, (target = old ∧ old.state = .accepted) ∨
      (old.state ≠ .accepted ∧ target = (retryTargets current.row.outboxId now).write old) := by
  rcases List.mem_map.mp targetMem with ⟨old, oldMem, rfl⟩
  refine ⟨old, oldMem, ?_⟩
  have named := sound.named old oldMem
  by_cases accepted : old.state = .accepted
  · refine .inl ⟨Table.rewrite_of_not_selects ?_, accepted⟩
    simp [retryTargets, accepted]
  · refine .inr ⟨accepted, Table.rewrite_of_selects ?_⟩
    simp [retryTargets, accepted, named]

theorem Sound.retried_mem (now : Nat) {old : TargetRow} (sound : current.Sound)
    (oldMem : old ∈ current.targets) (unaccepted : old.state ≠ .accepted) :
    (retryTargets current.row.outboxId now).write old ∈ (current.retry now).targets := by
  refine List.mem_map.mpr ⟨old, oldMem, Table.rewrite_of_selects ?_⟩
  simp [retryTargets, unaccepted, sound.named old oldMem]

theorem Attended.retry {now : Nat} (sound : current.Sound) (attended : current.Attended)
    (blocked : current.row.state = .blocked) (forward : current.row.updatedAt ≤ now) :
    (current.retry now).Attended := by
  have tracked : Tracked current.row.maxAttempts false current.targets := by
    have held := attended.tracked
    rw [blocked] at held
    exact held
  have quiet : Quiet (current.retry now).targets := by
    intro target targetMem isSubmitted
    rcases sound.mem_retry targetMem with ⟨old, oldMem, ⟨rfl, -⟩ | ⟨-, rfl⟩⟩
    · exact tracked.quiet target oldMem isSubmitted
    · cases isSubmitted
  refine ⟨⟨?_, ?_, ?_, ?_, ?_, ?_⟩, ?_, ?_, ?_⟩
  · intro left leftMem _ _ isSubmitted
    exact absurd isSubmitted (quiet left leftMem)
  · intro target targetMem isSubmitted
    exact absurd isSubmitted (quiet target targetMem)
  · intro target targetMem isSubmitted
    exact absurd isSubmitted (quiet target targetMem)
  · intro target targetMem isScheduled
    rcases sound.mem_retry targetMem with ⟨old, oldMem, ⟨rfl, -⟩ | ⟨-, rfl⟩⟩
    · exact tracked.scheduled target oldMem isScheduled
    · rfl
  · intro target targetMem retryable spare
    rcases sound.mem_retry targetMem with ⟨old, oldMem, ⟨rfl, -⟩ | ⟨-, rfl⟩⟩
    · exact tracked.renewed target oldMem retryable spare
    · rfl
  · intro target targetMem
    rcases sound.mem_retry targetMem with ⟨old, oldMem, ⟨rfl, -⟩ | ⟨-, rfl⟩⟩
    · exact tracked.counted target oldMem
    · exact tracked.counted old oldMem
  · intro target targetMem isSubmitted
    exact absurd isSubmitted (quiet target targetMem)
  · intro target targetMem isSubmitted
    exact absurd isSubmitted (quiet target targetMem)
  · intro target targetMem notSubmitted
    change target.updatedAt ≤ now
    rcases sound.mem_retry targetMem with ⟨old, oldMem, ⟨rfl, -⟩ | ⟨-, rfl⟩⟩
    · have earlier := attended.written target oldMem notSubmitted
      omega
    · exact Nat.le_refl now

theorem Attended.step (sound : current.Sound) (attended : current.Attended)
    (once : current.Once action) (step : Step action current next) : next.Attended := by
  cases step with
  | claim pending scheduled due forward =>
      have tracked : Tracked current.row.maxAttempts false current.targets := by
        have held := attended.tracked
        rw [pending] at held
        exact held
      have quiet := tracked.quiet
      refine ⟨tracked.of_quiet quiet, ?_, ?_, ?_⟩
      · intro target targetMem isSubmitted
        exact absurd isSubmitted (quiet target targetMem)
      · intro target targetMem isSubmitted
        exact absurd isSubmitted (quiet target targetMem)
      · intro target targetMem notSubmitted
        exact (attended.written target targetMem notSubmitted).trans forward
  | @prepare _ attemptId now expires old leased expiry early oldMem due identity =>
      have quiet := once rfl
      have tracked : Tracked current.row.maxAttempts true current.targets := by
        have held := attended.tracked
        rw [leased] at held
        exact held
      have submits := tracked.submit quiet due
        (submittedFrom_prepare attemptId now current.row.maxAttempts old)
      refine ⟨?_, ?_, ?_, ?_⟩
      · change Tracked current.row.maxAttempts (current.row.state == .leased) _
        rw [leased]
        exact submits
      · intro target targetMem isSubmitted
        rcases mem_exchange targetMem with rfl | ⟨stored, -⟩
        · exact congrArg some identity
        · exact absurd isSubmitted (quiet target stored)
      · intro target targetMem isSubmitted
        rcases mem_exchange targetMem with rfl | ⟨stored, -⟩
        · exact ⟨expires, expiry, early⟩
        · exact absurd isSubmitted (quiet target stored)
      · intro target targetMem notSubmitted
        rcases mem_exchange targetMem with rfl | ⟨stored, -⟩
        · exact absurd rfl notSubmitted
        · exact attended.written target stored notSubmitted
  | record leased forward settles decides =>
      exact attended.conclude sound (.one rfl settles) forward
  | recover leased forward recovers decides =>
      exact attended.conclude sound (recovers.settlement sound attended) forward
  | retry blocked forward => exact attended.retry sound blocked forward

end Attending

section Deciding

variable [Sha256] {current next : Snapshot} {action : Action}

def RequiresSome (current : Snapshot) : Prop :=
  ∃ target ∈ current.targets, target.required = true

/-- The state of an outbox is what its required targets say. -/
structure Decided (current : Snapshot) : Prop where
  undecided : current.row.state = .pending ∨ current.row.state = .leased → current.RequiresSome →
    Undecided current.row.maxAttempts current.targets
  least : current.row.state = .pending → current.RequiresSome → current.row.nextAttempt =
    ((current.targets.filter (·.required)).filterMap (·.nextAttempt)).min?
  blocked : current.row.state = .blocked → ∃ target ∈ current.targets, target.required = true ∧
    target.isBlocking current.row.maxAttempts = true
  complete : current.row.state = .complete → ∀ target ∈ current.targets, target.required = true →
    target.state = .accepted

omit [Sha256] in
theorem Decided.conclude {now : Nat} {decided : Verdict}
    (decides : verdict current.row.maxAttempts current.targets = some decided) :
    (current.release decided now).Decided := by
  cases decided with
  | complete =>
      refine ⟨?_, ?_, ?_, fun _ => verdict_eq_complete.mp decides⟩
      · rintro (impossible | impossible) <;> cases impossible
      · intro impossible
        cases impossible
      · intro impossible
        cases impossible
  | blocked =>
      refine ⟨?_, ?_, fun _ => verdict_eq_blocked decides, ?_⟩
      · rintro (impossible | impossible) <;> cases impossible
      · intro impossible
        cases impossible
      · intro impossible
        cases impossible
  | pending next =>
      rcases verdict_eq_pending.mp decides with ⟨undecided, least⟩
      refine ⟨fun _ _ => undecided, fun _ _ => least.symm, ?_, ?_⟩
      · intro impossible
        cases impossible
      · intro impossible
        cases impossible

omit [Sha256] in
theorem isBlocking_spec {maxAttempts : Nat} {target : TargetRow}
    (blocking : target.isBlocking maxAttempts = true) :
    target.state ≠ .accepted ∧ target.state ≠ .submitted := by
  constructor <;> intro state <;>
    simp [TargetRow.isBlocking, state, TargetState.retryable] at blocking

omit [Sha256] in
theorem requiresSome_of_target
    (same : next.targets.map TargetRow.target = current.targets.map TargetRow.target)
    (requires : next.RequiresSome) : current.RequiresSome := by
  rcases requires with ⟨target, targetMem, required⟩
  have listed : target.target ∈ next.targets.map TargetRow.target :=
    List.mem_map.mpr ⟨target, targetMem, rfl⟩
  rw [same] at listed
  rcases List.mem_map.mp listed with ⟨old, oldMem, identical⟩
  refine ⟨old, oldMem, ?_⟩
  rw [← required]
  exact congrArg PublicationTarget.required identical

omit [Sha256] in
/-- The submission of a target decides nothing. -/
theorem undecided_submit {maxAttempts now : Nat} {targets : List TargetRow} {old new : TargetRow}
    (undecided : Undecided maxAttempts targets) (oldMem : old ∈ targets)
    (due : old.isDue maxAttempts now = true) (submitted : old.SubmittedFrom new) :
    Undecided maxAttempts (exchange old new targets) := by
  rcases undecided with ⟨⟨target, targetMem, required, unaccepted⟩, unblocked⟩
  constructor
  · by_cases same : target = old
    · subst same
      refine ⟨new, exchanged_mem oldMem, submitted.required.trans required, ?_⟩
      rw [submitted.state]
      decide
    · exact ⟨target, mem_exchange_of_ne targetMem same, required, unaccepted⟩
  · intro other otherMem otherRequired
    rcases mem_exchange otherMem with rfl | ⟨stored, -⟩
    · simp [TargetRow.isBlocking, submitted.state, TargetState.retryable]
    · exact unblocked other stored otherRequired

theorem Decided.retry {now : Nat} (sound : current.Sound) (attended : current.Attended)
    (decided : current.Decided) (blocked : current.row.state = .blocked) :
    (current.retry now).Decided := by
  rcases decided.blocked blocked with ⟨target, targetMem, required, blocking⟩
  have unaccepted := (isBlocking_spec blocking).1
  have retriedMem := sound.retried_mem now targetMem unaccepted
  have scheduledNow : ∀ other ∈ (current.retry now).targets, other.nextAttempt.isSome = true →
      other.nextAttempt = some now := by
    intro other otherMem scheduled
    rcases sound.mem_retry otherMem with ⟨old, oldMem, ⟨rfl, accepted⟩ | ⟨-, rfl⟩⟩
    · have retryable := attended.tracked.scheduled other oldMem scheduled
      rw [accepted] at retryable
      cases retryable
    · rfl
  refine ⟨fun _ _ => ⟨⟨_, retriedMem, required, by simp [retryTargets]⟩, ?_⟩, fun _ _ => ?_, ?_, ?_⟩
  · intro other otherMem _
    rcases sound.mem_retry otherMem with ⟨old, oldMem, ⟨rfl, accepted⟩ | ⟨-, rfl⟩⟩
    · simp [TargetRow.isBlocking, accepted, TargetState.retryable]
    · simp [TargetRow.isBlocking, retryTargets, TargetState.retryable]
  · symm
    change List.min? _ = some now
    rw [List.min?_eq_some_iff]
    constructor
    · exact List.mem_filterMap.mpr ⟨_, List.mem_filter.mpr ⟨retriedMem, required⟩, rfl⟩
    · intro instant instantMem
      rcases List.mem_filterMap.mp instantMem with ⟨other, otherMem, scheduled⟩
      have same := scheduledNow other (List.mem_filter.mp otherMem).1 (by rw [scheduled]; rfl)
      rw [scheduled] at same
      exact Nat.le_of_eq (Option.some.inj same).symm
  · intro impossible
    cases impossible
  · intro impossible
    cases impossible

theorem Decided.step (sound : current.Sound) (attended : current.Attended)
    (decided : current.Decided) (step : Step action current next) : next.Decided := by
  cases step with
  | claim pending =>
      refine ⟨fun _ requires => decided.undecided (.inl pending) requires, ?_, ?_, ?_⟩
      · intro impossible
        cases impossible
      · intro impossible
        cases impossible
      · intro impossible
        cases impossible
  | @prepare _ attemptId now expires old leased expiry early oldMem due identity =>
      have stays : (current.prepare attemptId now old).row.state = .leased := leased
      refine ⟨?_, ?_, ?_, ?_⟩
      · intro _ requires
        have same : (current.prepare attemptId now old).targets.map TargetRow.target =
            current.targets.map TargetRow.target := map_exchange _ _ rfl
        have undecided := decided.undecided (.inr leased) (requiresSome_of_target same requires)
        exact undecided_submit undecided oldMem due
          (submittedFrom_prepare attemptId now current.row.maxAttempts old)
      · intro impossible
        rw [stays] at impossible
        cases impossible
      · intro impossible
        rw [stays] at impossible
        cases impossible
      · intro impossible
        rw [stays] at impossible
        cases impossible
  | record leased forward settles decides => exact .conclude decides
  | recover leased forward recovers decides =>
      rw [← recovers.row_eq] at decides
      exact .conclude decides
  | retry blocked forward => exact decided.retry sound attended blocked

end Deciding

section Identity

variable [Sha256] {current next : Snapshot} {action : Action}

/-- What of an outbox every step keeps. -/
theorem Step.identity (step : Step action current next) :
    current.row.SameIdentity next.row := by
  cases step with
  | claim => exact OutboxRow.SameIdentity.refl current.row
  | prepare => exact OutboxRow.SameIdentity.refl current.row
  | record => exact OutboxRow.SameIdentity.refl current.row
  | recover leased forward recovers decides =>
      simp only [release, recovers.row_eq]
      exact OutboxRow.SameIdentity.refl current.row
  | retry => exact OutboxRow.SameIdentity.refl current.row

/-- An outbox whose state, attempts and log agree. -/
structure Coherent (current : Snapshot) : Prop where
  sound : current.Sound
  attended : current.Attended
  decided : current.Decided

theorem Coherent.step (coherent : current.Coherent) (once : current.Once action)
    (step : Step action current next) : next.Coherent where
  sound := coherent.sound.step step
  attended := coherent.attended.step coherent.sound once step
  decided := coherent.decided.step coherent.sound coherent.attended step

end Identity

section Starting

variable [Sha256] {current next : Snapshot} {action : Action}

/-- A retry finds an attempt left at every required target that is not accepted. -/
def Reopens (action : Action) (current : Snapshot) : Prop :=
  action = .retry → ∀ target ∈ current.targets, target.required = true →
    target.state ≠ .accepted → target.attemptCount < current.row.maxAttempts

/-- A pending outbox has a target that is due when the outbox is. -/
structure Startable (current : Snapshot) : Prop where
  isOpen : Open current.row.maxAttempts current.targets
  due : current.row.state = .pending → ∃ instant, current.row.nextAttempt = some instant ∧
    ∃ target ∈ current.targets, target.isDue current.row.maxAttempts instant = true

theorem Startable.conclude {now : Nat} {settled : Snapshot} {decided : Verdict}
    (sound : current.Sound) (attended : current.Attended) (startable : current.Startable)
    (settlement : Settlement now current settled)
    (decides : verdict settled.row.maxAttempts settled.targets = some decided) :
    (settled.release decided now).Startable := by
  have isOpen : Open settled.row.maxAttempts settled.targets := by
    cases settlement with
    | none => exact startable.isOpen
    | one finished settles => exact startable.isOpen.settle settles.settledFrom
  refine ⟨isOpen, ?_⟩
  intro pending
  cases decided with
  | complete => cases pending
  | blocked => cases pending
  | pending instant =>
      exact ⟨instant, rfl, (settlement.tracked sound attended).exists_due isOpen decides⟩

theorem Startable.retry {now : Nat} (sound : current.Sound) (attended : current.Attended)
    (decided : current.Decided) (blocked : current.row.state = .blocked)
    (reopens : current.Reopens .retry) : (current.retry now).Startable := by
  constructor
  · intro target targetMem required scheduled
    rcases sound.mem_retry targetMem with ⟨old, oldMem, ⟨rfl, accepted⟩ | ⟨unaccepted, rfl⟩⟩
    · have retryable := attended.tracked.scheduled target oldMem scheduled
      rw [accepted] at retryable
      cases retryable
    · exact reopens rfl old oldMem required unaccepted
  · intro pending
    rcases decided.blocked blocked with ⟨target, targetMem, required, blocking⟩
    have unaccepted := (isBlocking_spec blocking).1
    have left := reopens rfl target targetMem required unaccepted
    refine ⟨now, rfl, _, sound.retried_mem now targetMem unaccepted, ?_⟩
    simp only [TargetRow.isDue, Snapshot.retry, retryOutbox, retryTargets, TargetState.retryable,
      left, decide_true, Bool.true_and, Option.any_some, Nat.le_refl]

theorem Startable.step (sound : current.Sound) (attended : current.Attended)
    (decided : current.Decided) (startable : current.Startable) (reopens : current.Reopens action)
    (step : Step action current next) : next.Startable := by
  cases step with
  | claim pending =>
      refine ⟨startable.isOpen, ?_⟩
      intro impossible
      cases impossible
  | @prepare _ attemptId now expires old leased expiry early oldMem due identity =>
      refine ⟨startable.isOpen.submit
        (submittedFrom_prepare attemptId now current.row.maxAttempts old), ?_⟩
      intro impossible
      rw [show (current.prepare attemptId now old).row.state = .leased from leased] at impossible
      cases impossible
  | record leased forward settles decides =>
      exact startable.conclude sound attended (.one rfl settles) decides
  | recover leased forward recovers decides =>
      rw [← recovers.row_eq] at decides
      exact startable.conclude sound attended (recovers.settlement sound attended) decides
  | retry blocked forward => exact Startable.retry sound attended decided blocked reopens

end Starting

section Logging

variable [Sha256] {current next : Snapshot} {action : Action}

/-- The numbers of the attempts recorded for a target, in the order of their recording. -/
def recorded (ordinal : Nat) (current : Snapshot) : List Nat :=
  (current.deliveries.filter fun row => row.targetOrdinal == ordinal).map (·.attemptNumber)

/-- How many attempts at a target have their outcome. -/
def concluded (target : TargetRow) : Nat :=
  if target.state = .submitted then target.attemptCount - 1 else target.attemptCount

/-- The attempts at every target are recorded without a gap. -/
def Logged (current : Snapshot) : Prop :=
  ∀ target ∈ current.targets,
    current.recorded target.targetOrdinal = List.range' 1 (concluded target)

omit [Sha256] in
theorem recorded_settle {input : RecordInput} {state : TargetState} {schedule : Option Nat}
    {old : TargetRow} (ordinal : Nat) :
    (current.settle input state schedule old).recorded ordinal = current.recorded ordinal ++
      if ordinal = input.targetOrdinal then [input.attemptNumber] else [] := by
  simp only [recorded, settle, List.filter_append, List.map_append]
  congr 1
  by_cases same : ordinal = input.targetOrdinal
  · simp [same, RecordInput.row]
  · simp [same, RecordInput.row, Ne.symm same]

theorem Logged.settle {input : RecordInput} {state : TargetState} {schedule : Option Nat}
    {old : TargetRow} (sound : current.Sound) (attended : current.Attended)
    (logged : current.Logged) (settles : current.Settles input state schedule old) :
    (current.settle input state schedule old).Logged := by
  intro target targetMem
  rw [recorded_settle]
  rcases mem_exchange targetMem with rfl | ⟨stored, different⟩
  · have started := attended.tracked.started old settles.mem settles.submitted
    have before := logged old settles.mem
    simp only [concluded, settles.submitted, if_true] at before
    have settled := settles.settledFrom
    rw [settled.ordinal, if_pos settles.ordinal, before, concluded, if_neg settled.state,
      settled.count, ← settles.number]
    have split : old.attemptCount = (old.attemptCount - 1) + 1 := by omega
    conv_rhs => rw [split, List.range'_concat]
    simp only [Nat.one_mul]
    congr 2
    omega
  · have apart : target.targetOrdinal ≠ input.targetOrdinal := by
      intro same
      exact different (sound.distinct stored settles.mem (same.trans settles.ordinal.symm))
    rw [if_neg apart, List.append_nil]
    exact logged target stored

theorem Logged.conclude {now : Nat} {settled : Snapshot} {decided : Verdict}
    (sound : current.Sound) (attended : current.Attended) (logged : current.Logged)
    (settlement : Settlement now current settled) : (settled.release decided now).Logged := by
  cases settlement with
  | none => exact logged
  | one finished settles => exact logged.settle sound attended settles

theorem Logged.step (sound : current.Sound) (attended : current.Attended)
    (logged : current.Logged) (step : Step action current next) : next.Logged := by
  cases step with
  | claim => exact logged
  | prepare leased expiry early oldMem due identity =>
      intro target targetMem
      rcases mem_exchange targetMem with rfl | ⟨stored, -⟩
      · have retryable := (TargetRow.isDue_spec due).1
        have idle : concluded _ = _ := if_neg fun submitted => by
          rw [submitted] at retryable
          cases retryable
        exact (logged _ oldMem).trans (congrArg (List.range' 1) idle)
      · exact logged target stored
  | record leased forward settles decides =>
      exact logged.conclude sound attended (.one rfl settles)
  | recover leased forward recovers decides =>
      exact logged.conclude sound attended (recovers.settlement sound attended)
  | retry blocked forward =>
      intro target targetMem
      have tracked : Tracked current.row.maxAttempts false current.targets := by
        have held := attended.tracked
        rw [blocked] at held
        exact held
      rcases sound.mem_retry targetMem with ⟨old, oldMem, ⟨rfl, -⟩ | ⟨-, rfl⟩⟩
      · exact logged target oldMem
      · have idle : concluded old = old.attemptCount := if_neg (tracked.quiet old oldMem)
        exact (logged old oldMem).trans (congrArg (List.range' 1) idle)

/-- Every recorded attempt has the identity of its number. -/
def Derived (current : Snapshot) : Prop :=
  ∀ row ∈ current.deliveries, row.attemptId = deriveAttemptId current.row.outboxId
    current.row.eventDigest row.targetOrdinal row.attemptNumber

theorem Derived.conclude {now : Nat} {settled : Snapshot} {decided : Verdict}
    (attended : current.Attended) (derived : current.Derived)
    (settlement : Settlement now current settled) : (settled.release decided now).Derived := by
  cases settlement with
  | none => exact derived
  | @one input state schedule old finished settles =>
      intro row rowMem
      rcases List.mem_append.mp rowMem with stored | added
      · exact derived row stored
      · simp only [List.mem_singleton] at added
        subst added
        have identified := attended.identified old settles.mem settles.submitted
        rw [settles.identity, settles.ordinal, settles.number] at identified
        exact Option.some.inj identified

theorem Derived.step (sound : current.Sound) (attended : current.Attended)
    (derived : current.Derived) (step : Step action current next) : next.Derived := by
  cases step with
  | claim => exact derived
  | prepare => exact derived
  | record leased forward settles decides => exact derived.conclude attended (.one rfl settles)
  | recover leased forward recovers decides =>
      exact derived.conclude attended (recovers.settlement sound attended)
  | retry => exact derived

end Logging

section Following

variable [Sha256] {current next : Snapshot} {action : Action}

/-- How an outbox may look later: its log only grows, no attempt count falls, and an accepted target
stays as it is. -/
structure Follows (current later : Snapshot) : Prop where
  identity : current.row.SameIdentity later.row
  log : current.deliveries <+: later.deliveries
  targets : ∀ target ∈ current.targets, ∃ successor ∈ later.targets,
    successor.targetOrdinal = target.targetOrdinal ∧
      target.attemptCount ≤ successor.attemptCount ∧
      (target.state = .accepted → successor = target)

omit [Sha256] in
theorem Follows.refl (current : Snapshot) : current.Follows current where
  identity := OutboxRow.SameIdentity.refl current.row
  log := List.prefix_refl _
  targets target targetMem := ⟨target, targetMem, rfl, Nat.le_refl _, fun _ => rfl⟩

omit [Sha256] in
theorem Follows.trans {first second third : Snapshot} (left : first.Follows second)
    (right : second.Follows third) : first.Follows third where
  identity := by
    have kept := left.identity
    have again := right.identity
    simp only [OutboxRow.SameIdentity] at kept again ⊢
    simp only [again, kept, and_self]
  log := left.log.trans right.log
  targets := by
    intro target targetMem
    rcases left.targets target targetMem with ⟨middle, middleMem, ordinal, counted, accepted⟩
    rcases right.targets middle middleMem with ⟨last, lastMem, lastOrdinal, lastCounted, kept⟩
    refine ⟨last, lastMem, lastOrdinal.trans ordinal, counted.trans lastCounted, ?_⟩
    intro isAccepted
    have same := accepted isAccepted
    rw [← same] at isAccepted
    exact (kept isAccepted).trans same

omit [Sha256] in
/-- Rewriting a target that is not accepted, without losing an attempt. -/
theorem follows_exchange {old new : TargetRow} {targets : List TargetRow}
    (ordinal : new.targetOrdinal = old.targetOrdinal)
    (counted : old.attemptCount ≤ new.attemptCount) (unaccepted : old.state ≠ .accepted) :
    ∀ target ∈ targets, ∃ successor ∈ exchange old new targets,
      successor.targetOrdinal = target.targetOrdinal ∧
        target.attemptCount ≤ successor.attemptCount ∧
        (target.state = .accepted → successor = target) := by
  intro target targetMem
  by_cases same : target = old
  · subst same
    exact ⟨new, exchanged_mem targetMem, ordinal, counted, fun accepted =>
      absurd accepted unaccepted⟩
  · exact ⟨target, mem_exchange_of_ne targetMem same, rfl, Nat.le_refl _, fun _ => rfl⟩

omit [Sha256] in
theorem follows_settle {input : RecordInput} {state : TargetState} {schedule : Option Nat}
    {old : TargetRow} (settles : current.Settles input state schedule old) :
    current.Follows (current.settle input state schedule old) where
  identity := OutboxRow.SameIdentity.refl current.row
  log := List.prefix_append _ _
  targets := by
    refine follows_exchange rfl (Nat.le_refl _) ?_
    rw [settles.submitted]
    decide

omit [Sha256] in
theorem Recovers.follows {now : Nat} {submitted : List TargetRow} {last : Snapshot}
    (recovers : Recovers now submitted current last) : current.Follows last := by
  induction recovers with
  | nil current => exact .refl current
  | cons same outcome finished settles others ih => exact (follows_settle settles).trans ih

omit [Sha256] in
theorem follows_release (current : Snapshot) (decided : Verdict) (now : Nat) :
    current.Follows (current.release decided now) where
  identity := OutboxRow.SameIdentity.refl current.row
  log := List.prefix_refl _
  targets target targetMem := ⟨target, targetMem, rfl, Nat.le_refl _, fun _ => rfl⟩

theorem Step.follows (step : Step action current next) : current.Follows next := by
  cases step with
  | claim =>
      exact ⟨OutboxRow.SameIdentity.refl current.row, List.prefix_refl _,
        fun target targetMem => ⟨target, targetMem, rfl, Nat.le_refl _, fun _ => rfl⟩⟩
  | prepare leased expiry early oldMem due identity =>
      refine ⟨OutboxRow.SameIdentity.refl current.row, List.prefix_refl _,
        follows_exchange rfl (Nat.le_succ _) ?_⟩
      intro accepted
      have retryable := (TargetRow.isDue_spec due).1
      rw [accepted] at retryable
      cases retryable
  | record leased forward settles decides =>
      exact (follows_settle settles).trans (follows_release _ _ _)
  | recover leased forward recovers decides =>
      exact recovers.follows.trans (follows_release _ _ _)
  | retry blocked forward =>
      refine ⟨OutboxRow.SameIdentity.refl current.row, List.prefix_refl _, ?_⟩
      intro target targetMem
      refine ⟨_, List.mem_map.mpr ⟨target, targetMem, rfl⟩, ?_⟩
      cases chosen : (retryTargets current.row.outboxId _).selects target with
      | false =>
          rw [Table.rewrite_of_not_selects chosen]
          exact ⟨rfl, Nat.le_refl _, fun _ => rfl⟩
      | true =>
          rw [Table.rewrite_of_selects chosen]
          refine ⟨rfl, Nat.le_refl _, ?_⟩
          intro accepted
          simp [retryTargets, accepted] at chosen

/-- Every step but a preparation raises the revision of the outbox. -/
theorem Step.revision (step : Step action current next) :
    (action = .prepare ∧ next.row = current.row) ∨
      next.row.revision = current.row.revision + 1 := by
  cases step with
  | claim => exact .inr rfl
  | prepare => exact .inl ⟨rfl, rfl⟩
  | record => exact .inr rfl
  | recover leased forward recovers decides =>
      right
      simp only [release, recovers.row_eq]
  | retry => exact .inr rfl

/-- Only an outcome that is recorded, or found missing, is logged. -/
theorem Step.log (step : Step action current next)
    (isOther : action ≠ .record ∧ action ≠ .recover) :
    next.deliveries = current.deliveries := by
  cases step with
  | claim => rfl
  | prepare => rfl
  | record => exact absurd rfl isOther.1
  | recover => exact absurd rfl isOther.2
  | retry => rfl

end Following

end Snapshot

end Publication

end Rhi
