import Mathlib.Data.List.Sort
import Rhi.Finalization

/-!
# Delivery to relays

Publications and presence documents are delivered in the same way: one signed event, a fixed list of
relays to submit it to, some of them required, and a bounded number of attempts at each.  This
module holds what the two executors share: when a target is due, when it blocks its outbox, what an
outcome leaves of a target, and the verdict that the required targets give on their outbox.
-/

namespace Rhi

open Relational Transactional

section Targets

/-- `retryable_state`. -/
def TargetState.retryable : TargetState → Bool
  | .pending | .failed | .rateLimited | .unknown => true
  | .submitted | .accepted | .rejected | .authRequired => false

namespace TargetRow

/-- `target_is_blocking`. -/
def isBlocking (maxAttempts : Nat) (target : TargetRow) : Bool :=
  target.state == .rejected || target.state == .authRequired ||
    (target.state.retryable && decide (maxAttempts ≤ target.attemptCount) &&
      target.nextAttempt.isNone)

/-- `target_is_due`. -/
def isDue (maxAttempts now : Nat) (target : TargetRow) : Bool :=
  target.state.retryable && decide (target.attemptCount < maxAttempts) &&
    target.nextAttempt.any fun next => decide (next ≤ now)

/-- What of a target its authority fixes. -/
def target (row : TargetRow) : PublicationTarget :=
  ⟨row.targetOrdinal, row.relayId, row.required⟩

/-- Order by the ordinal. -/
def before (left right : TargetRow) : Prop :=
  left.targetOrdinal ≤ right.targetOrdinal

instance : DecidableRel before := fun left right => by
  unfold before
  infer_instance

end TargetRow

/-- `READ_TARGETS_SQL`. -/
def readTargets (outbox : Digest) (rows : List TargetRow) : List TargetRow :=
  ((rows.filter fun row => row.outboxId == outbox).insertionSort TargetRow.before).take 33

/-- `target_set_digest`. -/
def targetSetDigest [Sha256] (domain : String) (targets : List PublicationTarget) : Digest :=
  Sha256.digest (domainBytes domain ++ toBeBytes 4 targets.length ++ targets.flatMap fun target =>
    toBeBytes 4 target.ordinal ++ framed (textBytes target.relayId.text) ++
      flagByte target.required)

/-- The comparisons of `validate_targets`. -/
def targetsValid [Sha256] (domain : String) (targetCount requiredCount : Nat) (targetSet : Digest)
    (targets : List TargetRow) : Bool :=
  targets.length == targetCount && decide (targets.length ≤ publicationMaxTargets) &&
    targets.map (·.targetOrdinal) == List.range targets.length &&
    targets.countP (·.required) == requiredCount && decide (targets.map (·.relayId)).Nodup &&
    targetSetDigest domain (targets.map TargetRow.target) == targetSet

/-- A list of targets in which one was rewritten. -/
def exchange (old new : TargetRow) (targets : List TargetRow) : List TargetRow :=
  targets.map fun target => if target = old then new else target

theorem mem_exchange {old new target : TargetRow} {targets : List TargetRow}
    (targetMem : target ∈ exchange old new targets) :
    target = new ∨ (target ∈ targets ∧ target ≠ old) := by
  rcases List.mem_map.mp targetMem with ⟨origin, originMem, rfl⟩
  split
  · exact .inl rfl
  · exact .inr ⟨originMem, ‹_›⟩

theorem exchanged_mem {old new : TargetRow} {targets : List TargetRow} (oldMem : old ∈ targets) :
    new ∈ exchange old new targets :=
  List.mem_map.mpr ⟨old, oldMem, by simp⟩

theorem mem_exchange_of_ne {old new target : TargetRow} {targets : List TargetRow}
    (targetMem : target ∈ targets) (different : target ≠ old) :
    target ∈ exchange old new targets :=
  List.mem_map.mpr ⟨target, targetMem, by simp [different]⟩

/-- What the rewriting keeps of the target, it keeps of the list. -/
theorem map_exchange {Value : Type} {old new : TargetRow} (targets : List TargetRow)
    (column : TargetRow → Value) (same : column new = column old) :
    (exchange old new targets).map column = targets.map column := by
  unfold exchange
  rw [List.map_map]
  apply List.map_congr_left
  intro target targetMem
  simp only [Function.comp_apply]
  split
  · rename_i isOld
    rw [isOld, same]
  · rfl

/-- A statement that selects one target of a list rewrites this target. -/
theorem map_rewrite_eq_exchange {change : Change TargetRow} {old : TargetRow}
    {targets : List TargetRow} (selected : change.selects old = true)
    (single : ∀ target ∈ targets, change.selects target = true → target = old) :
    targets.map (Table.rewrite change) = exchange old (change.write old) targets := by
  unfold exchange
  apply List.map_congr_left
  intro target targetMem
  split
  · rename_i isOld
    rw [isOld, Table.rewrite_of_selects selected]
  · rename_i different
    refine Table.rewrite_of_not_selects ?_
    cases chosen : change.selects target with
    | false => rfl
    | true => exact absurd (single target targetMem chosen) different

end Targets

section Verdicts

/-- What the required targets say about their outbox. -/
inductive Verdict where
  | complete
  | blocked
  | pending (next : Nat)
deriving DecidableEq, Repr

/-- `disposition`, on a valid inventory; absent when no target says when to go on. -/
def verdict (maxAttempts : Nat) (targets : List TargetRow) : Option Verdict :=
  let required := targets.filter (·.required)
  if required.all fun target => target.state == .accepted then
    some .complete
  else if required.any fun target => target.isBlocking maxAttempts then
    some .blocked
  else
    (required.filterMap (·.nextAttempt)).min?.map .pending

/-- A required target is not accepted yet, and none blocks. -/
def Undecided (maxAttempts : Nat) (targets : List TargetRow) : Prop :=
  (∃ target ∈ targets, target.required = true ∧ target.state ≠ .accepted) ∧
    ∀ target ∈ targets, target.required = true → target.isBlocking maxAttempts = false

theorem verdict_eq_complete {maxAttempts : Nat} {targets : List TargetRow} :
    verdict maxAttempts targets = some .complete ↔
      ∀ target ∈ targets, target.required = true → target.state = .accepted := by
  unfold verdict
  dsimp only
  split
  · rename_i accepted
    simp only [List.all_eq_true, List.mem_filter, beq_iff_eq, and_imp] at accepted
    simpa using accepted
  · rename_i unaccepted
    simp only [List.all_eq_true, List.mem_filter, beq_iff_eq, and_imp] at unaccepted
    split
    · simpa using unaccepted
    · simp only [Option.map_eq_some_iff, reduceCtorEq, and_false, exists_false, false_iff]
      exact unaccepted

theorem verdict_eq_blocked {maxAttempts : Nat} {targets : List TargetRow}
    (blocked : verdict maxAttempts targets = some .blocked) :
    ∃ target ∈ targets, target.required = true ∧ target.isBlocking maxAttempts = true := by
  unfold verdict at blocked
  dsimp only at blocked
  split at blocked
  · cases blocked
  · split at blocked
    · rename_i blocking
      simpa [and_assoc] using blocking
    · simp at blocked

theorem verdict_eq_pending {maxAttempts next : Nat} {targets : List TargetRow} :
    verdict maxAttempts targets = some (.pending next) ↔ Undecided maxAttempts targets ∧
      ((targets.filter (·.required)).filterMap (·.nextAttempt)).min? = some next := by
  unfold verdict Undecided
  dsimp only
  split
  · rename_i accepted
    simp only [List.all_eq_true, List.mem_filter, beq_iff_eq, and_imp] at accepted
    simp only [Option.some.injEq, reduceCtorEq, false_iff]
    rintro ⟨⟨⟨target, targetMem, required, unaccepted⟩, -⟩, -⟩
    exact unaccepted (accepted target targetMem required)
  · rename_i unaccepted
    simp only [List.all_eq_true, List.mem_filter, beq_iff_eq, and_imp, not_forall] at unaccepted
    rcases unaccepted with ⟨target, targetMem, required, unaccepted⟩
    split
    · rename_i blocking
      simp only [List.any_eq_true, List.mem_filter] at blocking
      rcases blocking with ⟨blocked, ⟨blockedMem, blockedRequired⟩, blocks⟩
      simp only [Option.some.injEq, reduceCtorEq, false_iff]
      rintro ⟨⟨-, unblocked⟩, -⟩
      rw [unblocked blocked blockedMem blockedRequired] at blocks
      cases blocks
    · rename_i unblocked
      have allUnblocked : ∀ target ∈ targets, target.required = true →
          target.isBlocking maxAttempts = false := by
        simpa using unblocked
      simp only [Option.map_eq_some_iff, Verdict.pending.injEq, exists_eq_right]
      constructor
      · intro least
        exact ⟨⟨⟨target, targetMem, required, unaccepted⟩, allUnblocked⟩, least⟩
      · exact fun ⟨_, least⟩ => least

end Verdicts

section Schedules

/-- `RhiPublicationAttemptOutcome::target_state`. -/
def AttemptOutcome.targetState : AttemptOutcome → TargetState
  | .submitted => .submitted
  | .accepted => .accepted
  | .rejected => .rejected
  | .rateLimited => .rateLimited
  | .authRequired => .authRequired
  | .failed => .failed
  | .unknown => .unknown

/-- `retryable_outcome`. -/
def AttemptOutcome.retryable : AttemptOutcome → Bool
  | .rateLimited | .failed | .unknown => true
  | .submitted | .accepted | .rejected | .authRequired => false

/-- `retry_upper_bound`; the bound never reaches the saturation of the product. -/
def retryUpperBound (initial maximum attemptNumber : Nat) : Nat :=
  min ((fun bound => min (bound * 2) maximum)^[attemptNumber - 1] initial) maximum

/-- `target_outcome_schedule`; absent when the input is invalid. -/
def outcomeSchedule (maxAttempts bound attemptNumber finished delay : Nat)
    (outcome : AttemptOutcome) : Option (TargetState × Option Nat) := do
  guard (outcome ≠ .submitted)
  if outcome.retryable && decide (attemptNumber < maxAttempts) then
    guard (delay ≤ bound)
    guard (finished + delay ≤ maxInteger)
    pure (outcome.targetState, some (finished + delay))
  else
    guard (delay = 0)
    pure (outcome.targetState, none)

/-- What an outcome leaves of a target: it is decided, or has another attempt scheduled exactly when
one is left. -/
theorem outcomeSchedule_spec {maxAttempts bound attemptNumber finished delay : Nat}
    {outcome : AttemptOutcome} {state : TargetState} {next : Option Nat}
    (scheduled : outcomeSchedule maxAttempts bound attemptNumber finished delay outcome =
      some (state, next)) :
    state ≠ .submitted ∧ (next.isSome = true → state.retryable = true) ∧
      (state.retryable = true → (next.isSome = true ↔ attemptNumber < maxAttempts)) := by
  unfold outcomeSchedule at scheduled
  simp only [Option.bind_eq_bind, Option.bind_eq_some_iff, Option.guard_eq_some'] at scheduled
  rcases scheduled with ⟨-, decided, scheduled⟩
  split at scheduled
  · rename_i again
    simp only [Bool.and_eq_true, decide_eq_true_eq] at again
    simp only [Option.bind_eq_some_iff, Option.guard_eq_some', Option.pure_def, Option.some.injEq,
      Prod.mk.injEq] at scheduled
    rcases scheduled with ⟨-, -, -, -, rfl, rfl⟩
    cases outcome <;> simp_all [AttemptOutcome.targetState, AttemptOutcome.retryable,
      TargetState.retryable]
  · rename_i last
    simp only [Option.bind_eq_some_iff, Option.guard_eq_some', Option.pure_def, Option.some.injEq,
      Prod.mk.injEq] at scheduled
    rcases scheduled with ⟨-, -, rfl, rfl⟩
    cases outcome <;> simp_all [AttemptOutcome.targetState, AttemptOutcome.retryable,
      TargetState.retryable]

theorem outcomeSchedule_state {maxAttempts bound attemptNumber finished delay : Nat}
    {outcome : AttemptOutcome} {state : TargetState} {next : Option Nat}
    (scheduled : outcomeSchedule maxAttempts bound attemptNumber finished delay outcome =
      some (state, next)) : state = outcome.targetState := by
  unfold outcomeSchedule at scheduled
  simp only [Option.bind_eq_bind, Option.bind_eq_some_iff, Option.guard_eq_some'] at scheduled
  rcases scheduled with ⟨-, -, scheduled⟩
  split at scheduled <;>
    simp only [Option.bind_eq_some_iff, Option.guard_eq_some', Option.pure_def, Option.some.injEq,
      Prod.mk.injEq] at scheduled
  · rcases scheduled with ⟨-, -, -, -, rfl, -⟩
    rfl
  · rcases scheduled with ⟨-, -, rfl, -⟩
    rfl

end Schedules

section Tracking

variable {maxAttempts : Nat} {leased : Bool} {targets : List TargetRow} {old new : TargetRow}

/-- Targets to which attempts are made one at a time, each under a lease. -/
structure Tracked (maxAttempts : Nat) (leased : Bool) (targets : List TargetRow) : Prop where
  single : ∀ left ∈ targets, ∀ right ∈ targets, left.state = .submitted →
    right.state = .submitted → left.targetOrdinal = right.targetOrdinal
  held : ∀ target ∈ targets, target.state = .submitted → leased = true
  started : ∀ target ∈ targets, target.state = .submitted → 1 ≤ target.attemptCount
  scheduled : ∀ target ∈ targets, target.nextAttempt.isSome = true → target.state.retryable = true
  renewed : ∀ target ∈ targets, target.state.retryable = true →
    target.attemptCount < maxAttempts → target.nextAttempt.isSome = true
  counted : ∀ target ∈ targets, target.attemptCount ≤ maxAttempts

/-- No attempt is under way. -/
def Quiet (targets : List TargetRow) : Prop :=
  ∀ target ∈ targets, target.state ≠ .submitted

/-- Every required target that has an attempt scheduled has one left. -/
def Open (maxAttempts : Nat) (targets : List TargetRow) : Prop :=
  ∀ target ∈ targets, target.required = true → target.nextAttempt.isSome = true →
    target.attemptCount < maxAttempts

/-- A due target that was submitted. -/
structure TargetRow.SubmittedFrom (old new : TargetRow) : Prop where
  ordinal : new.targetOrdinal = old.targetOrdinal
  required : new.required = old.required
  state : new.state = .submitted
  count : new.attemptCount = old.attemptCount + 1
  next : new.nextAttempt = none

/-- A submitted target that an outcome decided or scheduled again. -/
structure TargetRow.SettledFrom (maxAttempts : Nat) (old new : TargetRow) : Prop where
  ordinal : new.targetOrdinal = old.targetOrdinal
  required : new.required = old.required
  count : new.attemptCount = old.attemptCount
  state : new.state ≠ .submitted
  scheduled : new.nextAttempt.isSome = true → new.state.retryable = true
  renewed : new.state.retryable = true →
    (new.nextAttempt.isSome = true ↔ new.attemptCount < maxAttempts)

theorem TargetRow.isDue_spec {now : Nat} {target : TargetRow}
    (due : target.isDue maxAttempts now = true) :
    target.state.retryable = true ∧ target.attemptCount < maxAttempts ∧
      ∃ next, target.nextAttempt = some next ∧ next ≤ now := by
  simp only [isDue, Bool.and_eq_true, decide_eq_true_eq] at due
  rcases (Option.any_eq_true _ _).mp due.2 with ⟨next, scheduled, reached⟩
  exact ⟨due.1.1, due.1.2, next, scheduled, by simpa using reached⟩

theorem Tracked.quiet (tracked : Tracked maxAttempts false targets) : Quiet targets := by
  intro target targetMem submitted
  cases tracked.held target targetMem submitted

/-- Without an attempt under way the lease does not matter. -/
theorem Tracked.of_quiet {held : Bool} (tracked : Tracked maxAttempts held targets)
    (quiet : Quiet targets) : Tracked maxAttempts leased targets where
  single left leftMem _ _ submitted _ := absurd submitted (quiet left leftMem)
  held target targetMem submitted := absurd submitted (quiet target targetMem)
  started := tracked.started
  scheduled := tracked.scheduled
  renewed := tracked.renewed
  counted := tracked.counted

/-- The submission of a due target, when no attempt is under way. -/
theorem Tracked.submit {now : Nat} (tracked : Tracked maxAttempts true targets)
    (quiet : Quiet targets) (due : old.isDue maxAttempts now = true)
    (submitted : old.SubmittedFrom new) : Tracked maxAttempts true (exchange old new targets) := by
  rcases TargetRow.isDue_spec due with ⟨-, left, -⟩
  have isNew : ∀ target ∈ exchange old new targets, target.state = .submitted → target = new := by
    intro target targetMem isSubmitted
    rcases mem_exchange targetMem with same | ⟨stored, -⟩
    · exact same
    · exact absurd isSubmitted (quiet target stored)
  refine ⟨?_, fun _ _ _ => rfl, ?_, ?_, ?_, ?_⟩
  · intro first firstMem second secondMem firstSubmitted secondSubmitted
    rw [isNew first firstMem firstSubmitted, isNew second secondMem secondSubmitted]
  · intro target targetMem isSubmitted
    rw [isNew target targetMem isSubmitted, submitted.count]
    omega
  · intro target targetMem isScheduled
    rcases mem_exchange targetMem with rfl | ⟨stored, -⟩
    · rw [submitted.next] at isScheduled
      cases isScheduled
    · exact tracked.scheduled target stored isScheduled
  · intro target targetMem retryable spare
    rcases mem_exchange targetMem with rfl | ⟨stored, -⟩
    · rw [submitted.state] at retryable
      cases retryable
    · exact tracked.renewed target stored retryable spare
  · intro target targetMem
    rcases mem_exchange targetMem with rfl | ⟨stored, -⟩
    · rw [submitted.count]
      omega
    · exact tracked.counted target stored

/-- Once the attempt under way has its outcome, none is under way. -/
theorem Tracked.quiet_of_settle (tracked : Tracked maxAttempts leased targets)
    (distinct : ∀ target ∈ targets, target.targetOrdinal = old.targetOrdinal → target = old)
    (oldMem : old ∈ targets) (submitted : old.state = .submitted)
    (settled : old.SettledFrom maxAttempts new) : Quiet (exchange old new targets) := by
  intro target targetMem isSubmitted
  rcases mem_exchange targetMem with rfl | ⟨stored, different⟩
  · exact settled.state isSubmitted
  · exact different (distinct target stored
      (tracked.single target stored old oldMem isSubmitted submitted))

theorem Tracked.settle (tracked : Tracked maxAttempts leased targets)
    (distinct : ∀ target ∈ targets, target.targetOrdinal = old.targetOrdinal → target = old)
    (oldMem : old ∈ targets) (submitted : old.state = .submitted)
    (settled : old.SettledFrom maxAttempts new) :
    Tracked maxAttempts leased (exchange old new targets) := by
  have quiet := tracked.quiet_of_settle distinct oldMem submitted settled
  refine ⟨?_, ?_, ?_, ?_, ?_, ?_⟩
  · intro left leftMem _ _ isSubmitted
    exact absurd isSubmitted (quiet left leftMem)
  · intro target targetMem isSubmitted
    exact absurd isSubmitted (quiet target targetMem)
  · intro target targetMem isSubmitted
    exact absurd isSubmitted (quiet target targetMem)
  · intro target targetMem isScheduled
    rcases mem_exchange targetMem with rfl | ⟨stored, -⟩
    · exact settled.scheduled isScheduled
    · exact tracked.scheduled target stored isScheduled
  · intro target targetMem retryable spare
    rcases mem_exchange targetMem with rfl | ⟨stored, -⟩
    · exact (settled.renewed retryable).mpr spare
    · exact tracked.renewed target stored retryable spare
  · intro target targetMem
    rcases mem_exchange targetMem with rfl | ⟨stored, -⟩
    · rw [settled.count]
      exact tracked.counted old oldMem
    · exact tracked.counted target stored

theorem Open.submit (isOpen : Open maxAttempts targets) (submitted : old.SubmittedFrom new) :
    Open maxAttempts (exchange old new targets) := by
  intro target targetMem required isScheduled
  rcases mem_exchange targetMem with rfl | ⟨stored, -⟩
  · rw [submitted.next] at isScheduled
    cases isScheduled
  · exact isOpen target stored required isScheduled

theorem Open.settle (isOpen : Open maxAttempts targets)
    (settled : old.SettledFrom maxAttempts new) : Open maxAttempts (exchange old new targets) := by
  intro target targetMem required isScheduled
  rcases mem_exchange targetMem with rfl | ⟨stored, -⟩
  · exact (settled.renewed (settled.scheduled isScheduled)).mp isScheduled
  · exact isOpen target stored required isScheduled

/-- At most one target is submitted. -/
theorem Tracked.submitted (tracked : Tracked maxAttempts leased targets)
    (ordinals : (targets.map (·.targetOrdinal)).Nodup) :
    (targets.filter fun target => target.state == .submitted) = [] ∨
      ∃ target ∈ targets, target.state = .submitted ∧
        (targets.filter fun target => target.state == .submitted) = [target] := by
  have spec : ∀ target ∈ targets.filter fun target => target.state == .submitted,
      target ∈ targets ∧ target.state = .submitted := by
    intro target targetMem
    rcases List.mem_filter.mp targetMem with ⟨stored, submitted⟩
    exact ⟨stored, by simpa using submitted⟩
  have distinct := (ordinals.of_map _).filter fun target => target.state == .submitted
  match listed : targets.filter fun target => target.state == .submitted with
  | [] => exact .inl listed
  | [target] =>
      rw [listed] at spec
      rcases spec target (by simp) with ⟨stored, submitted⟩
      exact .inr ⟨target, stored, submitted, listed⟩
  | first :: second :: rest =>
      rw [listed] at spec distinct
      rcases spec first (by simp) with ⟨firstMem, firstSubmitted⟩
      rcases spec second (by simp) with ⟨secondMem, secondSubmitted⟩
      have same := List.inj_on_of_nodup_map ordinals firstMem secondMem
        (tracked.single first firstMem second secondMem firstSubmitted secondSubmitted)
      subst same
      simp at distinct

/-- A required target that is neither accepted nor blocking has an attempt scheduled. -/
theorem Tracked.isSome_of_unblocked (tracked : Tracked maxAttempts leased targets)
    (quiet : Quiet targets) {target : TargetRow} (targetMem : target ∈ targets)
    (unaccepted : target.state ≠ .accepted) (unblocked : target.isBlocking maxAttempts = false) :
    target.state.retryable = true ∧ target.nextAttempt.isSome = true := by
  have retryable : target.state.retryable = true := by
    have notSubmitted := quiet target targetMem
    unfold TargetRow.isBlocking at unblocked
    cases state : target.state <;> simp_all [TargetState.retryable]
  refine ⟨retryable, ?_⟩
  by_cases spare : target.attemptCount < maxAttempts
  · exact tracked.renewed target targetMem retryable spare
  · have used : maxAttempts ≤ target.attemptCount := by omega
    simp only [TargetRow.isBlocking, retryable, used, Bool.true_and, decide_true,
      Bool.or_eq_false_iff, Option.isNone_eq_false_iff] at unblocked
    exact unblocked.2

/-- Without an attempt under way the required targets always give a verdict. -/
theorem Tracked.verdict_total (tracked : Tracked maxAttempts leased targets)
    (quiet : Quiet targets) : ∃ decided, verdict maxAttempts targets = some decided := by
  unfold verdict
  dsimp only
  split
  · exact ⟨_, rfl⟩
  · rename_i unaccepted
    simp only [List.all_eq_true, List.mem_filter, beq_iff_eq, and_imp, not_forall] at unaccepted
    rcases unaccepted with ⟨target, targetMem, required, unaccepted⟩
    split
    · exact ⟨_, rfl⟩
    · rename_i unblocked
      have unblocked : target.isBlocking maxAttempts = false := by
        simp only [List.any_eq_true, List.mem_filter, not_exists, not_and, Bool.not_eq_true,
          and_imp] at unblocked
        exact unblocked target targetMem required
      rcases Option.isSome_iff_exists.mp
        (tracked.isSome_of_unblocked quiet targetMem unaccepted unblocked).2 with ⟨next, scheduled⟩
      have nextMem : next ∈ (targets.filter (·.required)).filterMap (·.nextAttempt) :=
        List.mem_filterMap.mpr ⟨target, List.mem_filter.mpr ⟨targetMem, required⟩, scheduled⟩
      rcases Option.isSome_iff_exists.mp (List.isSome_min?_of_mem nextMem) with ⟨least, found⟩
      exact ⟨.pending least, by rw [found]; rfl⟩

/-- When an outbox goes on at an instant, one of its targets is due then. -/
theorem Tracked.exists_due (tracked : Tracked maxAttempts leased targets)
    (isOpen : Open maxAttempts targets) {next : Nat}
    (decides : verdict maxAttempts targets = some (.pending next)) :
    ∃ target ∈ targets, target.isDue maxAttempts next = true := by
  have least := (verdict_eq_pending.mp decides).2
  rcases List.mem_filterMap.mp (List.min?_mem least) with ⟨target, targetMem, scheduled⟩
  rcases List.mem_filter.mp targetMem with ⟨stored, required⟩
  have isSome : target.nextAttempt.isSome = true := by
    rw [scheduled]
    rfl
  refine ⟨target, stored, ?_⟩
  simp only [TargetRow.isDue, tracked.scheduled target stored isSome,
    isOpen target stored required isSome, scheduled, decide_true, Bool.and_self, Bool.true_and,
    Option.any_some, decide_eq_true_eq]
  exact Nat.le_refl next

end Tracking

end Rhi
