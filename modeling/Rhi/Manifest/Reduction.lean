import Mathlib.Data.List.Sort
import Rhi.Attempt.Finish
import Rhi.Daemon.Dirty
import Rhi.Fetch.Committable
import Rhi.Manifest

/-!
# Material and reduction

The reducer material of an attempt is an ordered map from mutations to their smallest events.  It is
determined by what was observed, whichever source observed it, and every check the reduction makes
of a frozen manifest holds by construction.
-/

namespace Rhi

open Transactional

section Material

/-- Observations that agree on the content of a mutation. -/
def ConsistentContent (observed : List ReducerMutation) : Prop :=
  ∀ left ∈ observed, ∀ right ∈ observed, left.mutationId = right.mutationId →
    left.canonicalContent = right.canonicalContent

/-- The material of what was observed: one entry for each mutation, in order, that was observed with
the smallest event. -/
structure MaterialOf (observed materials : List ReducerMutation) : Prop where
  ascending : materials.Pairwise fun left right => left.mutationId < right.mutationId
  origin : ∀ material ∈ materials, material ∈ observed
  covers : ∀ entry ∈ observed, ∃ material ∈ materials,
    material.mutationId = entry.mutationId ∧ material.eventId ≤ entry.eventId

theorem MaterialOf.nil : MaterialOf [] [] where
  ascending := .nil
  origin := by simp
  covers := by simp

/-- An entry keeps its mutation, and takes the content of the fact along with a smaller event. -/
theorem merge_cases {current : ReducerMutation} {fact : ReplayFact}
    (same : fact.record.mutationId = current.mutationId) :
    (fact.record.eventId < current.eventId ∧ current.merge fact = .ofFact fact) ∨
      (current.eventId ≤ fact.record.eventId ∧ current.merge fact = current) := by
  unfold ReducerMutation.merge
  split
  · rename_i smaller
    exact .inl ⟨smaller, by simp [ReducerMutation.ofFact, same]⟩
  · rename_i notSmaller
    exact .inr ⟨BitVec.not_lt.mp notSmaller, rfl⟩

/-- What an entry of the map is after one more fact. -/
theorem mem_enterMutation {fact : ReplayFact} {materials : List ReducerMutation}
    {material : ReducerMutation} (member : material ∈ enterMutation fact materials) :
    material ∈ materials ∨ material = .ofFact fact := by
  induction materials with
  | nil => exact .inr (List.mem_singleton.mp member)
  | cons current rest ih =>
      rw [enterMutation] at member
      split at member
      · rcases List.mem_cons.mp member with new | old
        · exact .inr new
        · exact .inl old
      · split at member
        · rename_i same
          rcases List.mem_cons.mp member with merged | old
          · rcases merge_cases same with ⟨-, taken⟩ | ⟨-, kept⟩
            · exact .inr (merged.trans taken)
            · exact .inl (by simp [merged, kept])
          · exact .inl (List.mem_cons_of_mem _ old)
        · rcases List.mem_cons.mp member with first | later
          · exact .inl (by simp [first])
          · exact (ih later).imp_left (List.mem_cons_of_mem _)

theorem enterMutation_ascending {fact : ReplayFact} {materials : List ReducerMutation}
    (ascending : materials.Pairwise fun left right => left.mutationId < right.mutationId) :
    (enterMutation fact materials).Pairwise fun left right =>
      left.mutationId < right.mutationId := by
  induction materials with
  | nil => exact List.pairwise_singleton _ _
  | cons current rest ih =>
      rcases List.pairwise_cons.mp ascending with ⟨first, later⟩
      rw [enterMutation]
      split
      · rename_i less
        refine List.pairwise_cons.mpr ⟨?_, ascending⟩
        intro material member
        rcases List.mem_cons.mp member with rfl | other
        · exact less
        · exact BitVec.lt_trans less (first material other)
      · rename_i notLess
        split
        · rename_i same
          have kept : (current.merge fact).mutationId = current.mutationId := by
            unfold ReducerMutation.merge
            split <;> rfl
          exact List.pairwise_cons.mpr ⟨fun material member => kept ▸ first material member, later⟩
        · rename_i other
          refine List.pairwise_cons.mpr ⟨?_, ih later⟩
          intro material member
          rcases mem_enterMutation member with old | rfl
          · exact first material old
          · exact BitVec.lt_of_le_ne (BitVec.not_lt.mp notLess) (Ne.symm other)

/-- No entry is lost, and no event grows. -/
theorem enterMutation_keeps (fact : ReplayFact) {materials : List ReducerMutation}
    {material : ReducerMutation} (member : material ∈ materials) :
    ∃ kept ∈ enterMutation fact materials,
      kept.mutationId = material.mutationId ∧ kept.eventId ≤ material.eventId := by
  have unchanged : material.eventId ≤ material.eventId := BitVec.le_refl _
  induction materials with
  | nil => cases member
  | cons current rest ih =>
      rw [enterMutation]
      split
      · exact ⟨material, List.mem_cons_of_mem _ member, rfl, unchanged⟩
      · split
        · rename_i same
          rcases List.mem_cons.mp member with rfl | later
          · refine ⟨material.merge fact, List.mem_cons_self, ?_⟩
            rcases merge_cases same with ⟨smaller, taken⟩ | ⟨-, kept⟩
            · rw [taken]
              exact ⟨same, BitVec.le_of_lt smaller⟩
            · rw [kept]
              exact ⟨rfl, unchanged⟩
          · exact ⟨material, List.mem_cons_of_mem _ later, rfl, unchanged⟩
        · rcases List.mem_cons.mp member with rfl | later
          · exact ⟨material, List.mem_cons_self, rfl, unchanged⟩
          · rcases ih later with ⟨kept, keptMem, smaller⟩
            exact ⟨kept, List.mem_cons_of_mem _ keptMem, smaller⟩

/-- The mutation of the fact has an entry with an event no greater than its own. -/
theorem enterMutation_enters {fact : ReplayFact} {materials : List ReducerMutation} :
    ∃ entered ∈ enterMutation fact materials,
      entered.mutationId = fact.record.mutationId ∧ entered.eventId ≤ fact.record.eventId := by
  have unchanged : fact.record.eventId ≤ fact.record.eventId := BitVec.le_refl _
  induction materials with
  | nil => exact ⟨.ofFact fact, List.mem_cons_self, rfl, unchanged⟩
  | cons current rest ih =>
      rw [enterMutation]
      split
      · exact ⟨.ofFact fact, List.mem_cons_self, rfl, unchanged⟩
      · split
        · rename_i same
          refine ⟨current.merge fact, List.mem_cons_self, ?_⟩
          rcases merge_cases same with ⟨-, taken⟩ | ⟨smaller, kept⟩
          · rw [taken]
            exact ⟨rfl, unchanged⟩
          · rw [kept]
            exact ⟨same.symm, smaller⟩
        · rcases ih with ⟨entered, enteredMem, smaller⟩
          exact ⟨entered, List.mem_cons_of_mem _ enteredMem, smaller⟩

/-- One more fact. -/
theorem MaterialOf.enter {observed materials : List ReducerMutation}
    (material : MaterialOf observed materials) (fact : ReplayFact) :
    MaterialOf (observed ++ [.ofFact fact]) (enterMutation fact materials) where
  ascending := enterMutation_ascending material.ascending
  origin := by
    intro entry member
    rcases mem_enterMutation member with old | new
    · exact List.mem_append_left _ (material.origin entry old)
    · exact List.mem_append_right _ (List.mem_singleton.mpr new)
  covers := by
    intro entry member
    rcases List.mem_append.mp member with old | new
    · rcases material.covers entry old with ⟨known, knownMem, sameKnown, knownLe⟩
      rcases enterMutation_keeps fact knownMem with ⟨kept, keptMem, sameKept, keptLe⟩
      exact ⟨kept, keptMem, sameKept.trans sameKnown, BitVec.le_trans keptLe knownLe⟩
    · rw [List.mem_singleton.mp new]
      exact enterMutation_enters

/-- All facts. -/
theorem materialOf_reducerMutations (facts : List ReplayFact) :
    MaterialOf (facts.map .ofFact) (reducerMutations facts) := by
  induction facts using List.reverseRecOn with
  | nil => exact .nil
  | append_singleton facts fact ih =>
      rw [reducerMutations, List.foldl_append, List.map_append]
      exact ih.enter fact

theorem MaterialOf.eq_of_mutationId {observed materials : List ReducerMutation}
    (material : MaterialOf observed materials) {left right : ReducerMutation}
    (leftMem : left ∈ materials) (rightMem : right ∈ materials)
    (same : left.mutationId = right.mutationId) : left = right := by
  by_contra different
  have apart := material.ascending.imp fun less => BitVec.ne_of_lt less
  have symmetric :
      Std.Symm fun left right : ReducerMutation => left.mutationId ≠ right.mutationId :=
    ⟨fun _ _ => Ne.symm⟩
  exact apart.forall leftMem rightMem different same

/-- An entry made of some observations is the entry made of the same observations in another order
or from other sources. -/
theorem MaterialOf.mem_of_mem {observed others left right : List ReducerMutation}
    (consistent : ConsistentContent observed) (same : ∀ entry, entry ∈ observed ↔ entry ∈ others)
    (leftOf : MaterialOf observed left) (rightOf : MaterialOf others right)
    {material : ReducerMutation} (member : material ∈ left) : material ∈ right := by
  have seen := leftOf.origin material member
  rcases rightOf.covers material ((same material).mp seen) with ⟨other, otherMem, named, otherLe⟩
  have otherSeen := (same other).mpr (rightOf.origin other otherMem)
  rcases leftOf.covers other otherSeen with ⟨back, backMem, backNamed, backLe⟩
  have returned := leftOf.eq_of_mutationId backMem member (backNamed.trans named)
  rw [returned] at backLe
  have event : other.eventId = material.eventId := BitVec.le_antisymm otherLe backLe
  have content := consistent other otherSeen material seen named
  have equal : other = material := by
    cases other
    cases material
    simp_all
  exact equal ▸ otherMem

/-- The material does not depend on the order of the observations or on how often each was made. -/
theorem MaterialOf.unique {observed others left right : List ReducerMutation}
    (consistent : ConsistentContent observed) (same : ∀ entry, entry ∈ observed ↔ entry ∈ others)
    (leftOf : MaterialOf observed left) (rightOf : MaterialOf others right) : left = right := by
  have otherwise : ConsistentContent others := fun first firstMem second secondMem =>
    consistent first ((same first).mpr firstMem) second ((same second).mpr secondMem)
  have asNumbers : ∀ {materials : List ReducerMutation}, (materials.Pairwise fun first second =>
      first.mutationId < second.mutationId) → materials.Pairwise fun first second =>
        first.mutationId.toNat < second.mutationId.toNat := fun ordered => ordered.imp id
  have irreflexive : Std.Irrefl fun first second : ReducerMutation =>
      first.mutationId.toNat < second.mutationId.toNat := ⟨fun _ => Nat.lt_irrefl _⟩
  have asymmetric : Std.Antisymm fun first second : ReducerMutation =>
      first.mutationId.toNat < second.mutationId.toNat :=
    ⟨fun _ _ less greater => absurd less (Nat.lt_asymm greater)⟩
  refine (asNumbers leftOf.ascending).eq_of_mem_iff (asNumbers rightOf.ascending) ?_
  exact fun material => ⟨leftOf.mem_of_mem consistent same rightOf,
    rightOf.mem_of_mem otherwise (fun entry => (same entry).symm) leftOf⟩

/-- The content of the material is content of the facts. -/
theorem enterMutation_size (fact : ReplayFact) (materials : List ReducerMutation) :
    (enterMutation fact materials).length ≤ materials.length + 1 ∧
      ((enterMutation fact materials).map (·.canonicalContent.length)).sum ≤
        (materials.map (·.canonicalContent.length)).sum + fact.record.canonicalContent.length := by
  induction materials with
  | nil => simp [enterMutation, ReducerMutation.ofFact]
  | cons current rest ih =>
      rw [enterMutation]
      split
      · simp only [List.length_cons, List.map_cons, List.sum_cons, ReducerMutation.ofFact]
        omega
      · split
        · rename_i same
          rcases merge_cases same with ⟨-, taken⟩ | ⟨-, kept⟩
          · rw [taken]
            simp only [List.length_cons, List.map_cons, List.sum_cons, ReducerMutation.ofFact]
            omega
          · rw [kept]
            omega
        · simp only [List.length_cons, List.map_cons, List.sum_cons]
          omega

theorem reducerMutations_size (facts : List ReplayFact) :
    (reducerMutations facts).length ≤ facts.length ∧
      ((reducerMutations facts).map (·.canonicalContent.length)).sum ≤
        (facts.map (·.record.canonicalContent.length)).sum := by
  induction facts using List.reverseRecOn with
  | nil => simp [reducerMutations]
  | append_singleton facts fact ih =>
      have step := enterMutation_size fact (reducerMutations facts)
      have unfolded : reducerMutations (facts ++ [fact]) =
          enterMutation fact (reducerMutations facts) := by
        rw [reducerMutations, List.foldl_append]
        rfl
      rw [unfolded]
      simp only [List.length_append, List.length_singleton, List.map_append, List.map_cons,
        List.map_nil, List.sum_append, List.sum_singleton]
      omega

end Material

section Parts

/-- The reducer material each fact of some parts stands for. -/
def observedMutations (replays : List SourceReplay) : List ReducerMutation :=
  (replays.flatMap (·.facts)).map .ofFact

theorem mem_observedMutations {replays : List SourceReplay} {entry : ReducerMutation} :
    entry ∈ observedMutations replays ↔
      ∃ replay ∈ replays, ∃ fact ∈ replay.facts, entry = .ofFact fact := by
  simp only [observedMutations, List.mem_map, List.mem_flatMap]
  constructor
  · rintro ⟨fact, ⟨replay, replayMem, factMem⟩, rfl⟩
    exact ⟨replay, replayMem, fact, factMem, rfl⟩
  · rintro ⟨replay, replayMem, fact, factMem, rfl⟩
    exact ⟨fact, ⟨replay, replayMem, factMem⟩, rfl⟩

variable [Sha256]

/-- A part that `finish` made for a request of a plan. -/
def SourceReplay.FinishedFor (replay : SourceReplay) (plan : AttemptPlan) : Prop :=
  ∃ request ∈ plan.requests, ∃ configuration prior replayPlan outcome startedAt finishedAt events,
    ReplayPlan.fromRequest plan request configuration prior = .ok replayPlan ∧
      replayPlan.finish request outcome startedAt finishedAt events = .ok replay

/-- What the parts of a plan have in common. -/
structure SourceReplay.PartOf (replay : SourceReplay) (plan : AttemptPlan) (trade : TradeId) :
    Prop where
  sameTrade : replay.plan.tradeId = trade
  policy : replay.plan.policyDigest = plan.policyDigest
  facts_trade : ∀ fact ∈ replay.facts, fact.record.tradeId = trade
  counted : replay.result.acceptedEventCount = replay.facts.length
  events : replay.facts.length ≤ sourceResultMaxEvents
  bytes : (replay.facts.map (·.originalBytes)).sum ≤ sourceResultMaxBytes
  unsupported : replay.result.outcome = .unsupported → replay.facts = []

theorem fromRequest_policy {attempt : AttemptPlan} {request : SourceRequest}
    {configuration : Configuration} {prior : Option SourceCursor} {replay : ReplayPlan}
    (made : ReplayPlan.fromRequest attempt request configuration prior = .ok replay) :
    replay.policyDigest = attempt.policyDigest := by
  simp only [ReplayPlan.fromRequest, bind_eq_ok, require_eq_ok, orError_eq_ok, beq_iff_eq,
    pure_eq_ok] at made
  rcases made with ⟨-, -, -, samePolicy, -, -, -, -, rfl⟩
  exact samePolicy

omit [Sha256] in
/-- The facts of a part fit its request, and an unsupported source has none. -/
theorem finish_fits {plan : ReplayPlan} {request : SourceRequest} {outcome : SourceCompletion}
    {startedAt finishedAt : Nat} {events : List AdmittedEvent} {replay : SourceReplay}
    (done : plan.finish request outcome startedAt finishedAt events = .ok replay) :
    (replay.facts.map (·.originalBytes)).sum ≤ request.maximumBytes ∧
      (outcome = .unsupported → replay.facts = []) := by
  simp only [ReplayPlan.finish, bind_eq_ok, orError_eq_ok, pure_eq_ok] at done
  rcases done with ⟨_, -, _, -, candidates, -, canonical, canonicalized, result, made, rfl⟩
  have total := (of_canonicalize canonicalized).bytes
  unfold SourceResult.new at made
  split at made
  · rename_i valid
    refine ⟨total ▸ valid.2.2.2.2.2.1, ?_⟩
    intro unsupported
    exact List.eq_nil_of_length_eq_zero (valid.2.2.2.2.2.2.2 unsupported).1
  · cases made

theorem partOf_of_finished {lease : Lease} {configuration : Configuration}
    {startedAt : UnixMilliseconds} {plan : AttemptPlan} {replay : SourceReplay}
    (planned : AttemptPlan.fromClaim lease configuration startedAt = .ok plan)
    (finished : replay.FinishedFor plan) : replay.PartOf plan lease.job.tradeId := by
  rcases finished with ⟨request, requestMem, used, prior, replayPlan, outcome, started, ended,
    events, resumed, done⟩
  rcases List.mem_iff_getElem.mp requestMem with ⟨index, bound, rfl⟩
  have requests := (fromClaim_spec planned).requests
  have made := (List.forall₂_iff_get.mp requests).2 index bound (requests.length_eq ▸ bound)
  simp only [List.get_eq_getElem] at made
  have resumes := fromRequest_spec resumed
  have finishes := finish_spec done
  rcases finish_fits done with ⟨bytes, empty⟩
  have within := (finish_bounded done).events
  refine {
    sameTrade := ?_, policy := ?_, facts_trade := ?_, counted := finishes.result.2.2.2.2
    events := ?_, bytes := made.bytes ▸ bytes, unsupported := ?_ }
  · rw [finishes.planned, resumes.trade, made.trade]
  · rw [finishes.planned, fromRequest_policy resumed]
  · intro fact factMem
    rcases finishes.facts fact factMem with ⟨event, eventMem, rfl⟩
    exact (finishes.timely event eventMem).1.trans made.trade
  · rw [← finishes.result.2.2.2.2, ← made.events]
    exact within
  · rw [finishes.result.2.1]
    exact empty

end Parts

section Agreement

variable [Sha256] [TradeEvidence]

/-- The shared library knows the sources of the parts, and takes every result a request can have. -/
structure TradeEvidence.Takes (replays : List SourceReplay) : Prop where
  sources : ∀ replay ∈ replays, TradeEvidence.acceptsSourceId replay.plan.sourceId = true
  results : ∀ required completion count, count ≤ sourceResultMaxEvents →
    (completion = .unsupported → count = 0) →
      TradeEvidence.acceptsSourceResult required completion count = true

omit [Sha256] in
/-- The shared manifest keeps the trade and the observations it is given. -/
def TradeEvidence.Keeps : Prop :=
  ∀ content shared, TradeEvidence.manifest content = some shared →
    shared.content.tradeId = content.tradeId ∧ shared.content.observations = content.observations

/-- The content of a fact decodes to the mutation and the trade it was recorded under. -/
def ReplayFact.Decodes (fact : ReplayFact) : Prop :=
  ∃ mutation, TradeEvidence.decode fact.record.canonicalContent = some mutation ∧
    TradeEvidence.mutationId mutation = some fact.record.mutationId ∧
    TradeEvidence.tradeId mutation = fact.record.tradeId

/-- The material of some parts and its reduction agree. -/
structure AttemptPlan.Reduces (plan : AttemptPlan) (replays : List SourceReplay) : Prop where
  /-- The parts of the requests have material: there is room for all that their limits admit, and
  the content of an event is a part of its bytes. -/
  yields : TradeEvidence.Takes replays →
    (∀ replay ∈ replays, ∀ fact ∈ replay.facts,
      fact.record.canonicalContent.length ≤ fact.originalBytes) →
    replays ≠ [] → replays.length ≤ plan.requests.length →
      ∃ material, committedManifestMaterial plan replays = some material
  /-- It has one entry for each mutation, in order, with the smallest event. -/
  material : ∀ material, committedManifestMaterial plan replays = some material →
    MaterialOf (observedMutations replays) material.reducerMutations
  /-- It does not depend on the sources or on the order of what was observed. -/
  independent : ∀ material, committedManifestMaterial plan replays = some material →
    ∀ otherPlan others other, committedManifestMaterial otherPlan others = some other →
      (∀ entry, entry ∈ observedMutations replays ↔ entry ∈ observedMutations others) →
        other.reducerMutations = material.reducerMutations
  /-- The reduction takes the frozen manifest. -/
  reduces : TradeEvidence.Keeps → (∀ replay ∈ replays, ∀ fact ∈ replay.facts, fact.Decodes) →
    ∀ material, committedManifestMaterial plan replays = some material →
      ∀ observedAt manifest, freezeManifest material observedAt = .ok manifest →
        reduceManifest manifest ≠ .error .invalidManifest

/-- What the material of a plan is made of. -/
structure ManifestMaterial.MadeOf (material : ManifestMaterial) (replays : List SourceReplay)
    (trade : TradeId) : Prop where
  sameTrade : material.tradeId = trade
  observations : material.observations =
    replays.flatMap fun replay => replay.facts.map (manifestObservation replay)
  mutations : material.reducerMutations = Rhi.reducerMutations (replays.flatMap (·.facts))
  bounded : materialWithinBounds material.reducerMutations = true

theorem committedManifestMaterial_spec {plan : AttemptPlan} {replays : List SourceReplay}
    {material : ManifestMaterial}
    (committed : committedManifestMaterial plan replays = some material) :
    ∃ first ∈ replays, material.MadeOf replays first.plan.tradeId := by
  simp only [committedManifestMaterial, Option.bind_eq_bind, Option.bind_eq_some_iff,
    Option.guard_eq_some', Option.pure_def, Option.some.injEq] at committed
  rcases committed with ⟨first, head, -, -, -, -, -, bounded, rfl⟩
  exact ⟨first, List.mem_of_mem_head? head, rfl, rfl, rfl, bounded⟩

omit [TradeEvidence] in
/-- Every observation is one of a fact of a part. -/
theorem mem_manifestObservations {replays : List SourceReplay} {observation : ManifestObservation} :
    (observation ∈ replays.flatMap fun replay => replay.facts.map (manifestObservation replay)) ↔
      ∃ replay ∈ replays, ∃ fact ∈ replay.facts, observation = manifestObservation replay fact := by
  simp only [List.mem_flatMap, List.mem_map, eq_comm]

omit [Sha256] [TradeEvidence] in
theorem toManifest_unsupported {outcome : SourceCompletion}
    (unsupported : outcome.toManifest = .unsupported) : outcome = .unsupported := by
  cases outcome <;> first | rfl | cases unsupported

omit [Sha256] [TradeEvidence] in
/-- The material of so many parts is within its bounds. -/
theorem materialWithinBounds_of_parts {plan : AttemptPlan} {trade : TradeId}
    {replays : List SourceReplay} (parts : ∀ replay ∈ replays, replay.PartOf plan trade)
    (contained : ∀ replay ∈ replays, ∀ fact ∈ replay.facts,
      fact.record.canonicalContent.length ≤ fact.originalBytes)
    (few : replays.length ≤ 16) :
    materialWithinBounds (reducerMutations (replays.flatMap (·.facts))) = true := by
  have total : ∀ some : List SourceReplay, (∀ replay ∈ some, replay ∈ replays) →
      (some.flatMap (·.facts)).length ≤ some.length * sourceResultMaxEvents ∧
        ((some.flatMap (·.facts)).map (·.record.canonicalContent.length)).sum ≤
          some.length * sourceResultMaxBytes := by
    intro some known
    induction some with
    | nil => simp
    | cons replay rest ih =>
        have part := parts replay (known replay List.mem_cons_self)
        have others := ih fun other otherMem => known other (List.mem_cons_of_mem _ otherMem)
        have contents : (replay.facts.map (·.record.canonicalContent.length)).sum ≤
            (replay.facts.map (·.originalBytes)).sum :=
          List.sum_le_sum (contained replay (known replay List.mem_cons_self))
        have events := part.events
        have bytes := part.bytes
        simp only [List.flatMap_cons, List.length_append, List.map_append, List.sum_append,
          List.length_cons, Nat.add_mul, Nat.one_mul]
        omega
  rcases total replays fun _ member => member with ⟨events, bytes⟩
  rcases reducerMutations_size (replays.flatMap (·.facts)) with ⟨length, size⟩
  have roomForEvents : replays.length * sourceResultMaxEvents ≤ reducerMaximumMutations :=
    (Nat.mul_le_mul_right _ few).trans (by decide)
  have roomForBytes : replays.length * sourceResultMaxBytes ≤ reducerMaximumMaterialBytes :=
    (Nat.mul_le_mul_right _ few).trans (by decide)
  exact decide_eq_true ⟨length.trans (events.trans roomForEvents),
    size.trans (bytes.trans roomForBytes)⟩

theorem committedManifestMaterial_of_parts {plan : AttemptPlan} {trade : TradeId}
    {replays : List SourceReplay} (parts : ∀ replay ∈ replays, replay.PartOf plan trade)
    (takes : TradeEvidence.Takes replays) (generation : plan.inputGeneration ≠ 0)
    (bounded : materialWithinBounds (reducerMutations (replays.flatMap (·.facts))) = true)
    (nonempty : replays ≠ []) :
    ∃ material, committedManifestMaterial plan replays = some material := by
  cases head : replays.head? with
  | none => exact absurd (List.head?_eq_none_iff.mp head) nonempty
  | some first =>
      have firstPart := parts first (List.mem_of_mem_head? head)
      have accepted : (replays.all fun replay => replay.plan.tradeId == first.plan.tradeId &&
          replay.plan.policyDigest == plan.policyDigest &&
          TradeEvidence.acceptsSourceId replay.plan.sourceId &&
          TradeEvidence.acceptsSourceResult replay.plan.required replay.result.outcome.toManifest
            replay.result.acceptedEventCount) = true := by
        rw [List.all_eq_true]
        intro replay replayMem
        have part := parts replay replayMem
        have result := takes.results replay.plan.required replay.result.outcome.toManifest
          replay.result.acceptedEventCount (part.counted ▸ part.events) (by
            intro unsupported
            rw [part.counted, part.unsupported (toManifest_unsupported unsupported)]
            rfl)
        simp only [part.sameTrade, firstPart.sameTrade, part.policy,
          takes.sources replay replayMem, result, beq_self_eq_true, Bool.and_true]
      simp only [committedManifestMaterial, head, generation, accepted, bounded, guard, ne_eq,
        not_false_eq_true, if_true, Option.bind_eq_bind, Option.bind_some, Option.pure_def]
      exact ⟨_, rfl⟩

omit [Sha256] in
/-- Material decodes when each entry was observed and holds the content of its mutation. -/
theorem decodeMaterials_eq_ok {manifest : Manifest} {materials : List ReducerMutation}
    (observed : ∀ material ∈ materials, ∃ observation ∈ manifest.shared.content.observations,
      observation.mutationId = material.mutationId ∧ observation.eventId = material.eventId)
    (decoded : ∀ material ∈ materials, ∃ mutation,
      TradeEvidence.decode material.canonicalContent = some mutation ∧
        TradeEvidence.mutationId mutation = some material.mutationId ∧
        TradeEvidence.tradeId mutation = manifest.shared.content.tradeId) :
    ∃ mutations, decodeMaterials manifest materials = .ok mutations := by
  induction materials with
  | nil => exact ⟨[], rfl⟩
  | cons material rest ih =>
      rcases observed material List.mem_cons_self with ⟨observation, observationMem, named, event⟩
      rcases decoded material List.mem_cons_self with ⟨mutation, read, sameMutation, sameTrade⟩
      rcases ih (fun other otherMem => observed other (List.mem_cons_of_mem _ otherMem))
        (fun other otherMem => decoded other (List.mem_cons_of_mem _ otherMem)) with
        ⟨mutations, done⟩
      have found : (manifest.shared.content.observations.any fun observation =>
          observation.mutationId == material.mutationId &&
            observation.eventId == material.eventId) = true :=
        List.any_eq_true.mpr ⟨observation, observationMem, by simp [named, event]⟩
      refine ⟨(material.eventId, mutation) :: mutations, ?_⟩
      simp only [decodeMaterials, bind_eq_ok, require_eq_ok, orError_eq_ok, Bool.and_eq_true,
        beq_iff_eq, pure_eq_ok]
      exact ⟨(), found, mutation, read, (), ⟨sameMutation, sameTrade⟩, mutations, done, rfl⟩

omit [Sha256] [TradeEvidence] in
/-- Every observed mutation is found in material that was made of the observations. -/
theorem found_of_materialOf {observed materials : List ReducerMutation}
    (material : MaterialOf observed materials) {entry : ReducerMutation}
    (member : entry ∈ observed) :
    (Search.binarySearch (fun material : ReducerMutation => material.mutationId.toNat)
      entry.mutationId.toNat materials).isSome = true := by
  rcases material.covers entry member with ⟨kept, keptMem, named, -⟩
  have found : Search.binarySearch (fun material : ReducerMutation => material.mutationId.toNat)
      entry.mutationId.toNat materials = some kept :=
    Search.binarySearch_complete (material.ascending.imp id) keptMem (congrArg BitVec.toNat named)
  rw [found]
  rfl

theorem reduceManifest_of_frozen {plan : AttemptPlan} {trade : TradeId}
    {replays : List SourceReplay} {material : ManifestMaterial} {observedAt : Nat}
    {manifest : Manifest} (parts : ∀ replay ∈ replays, replay.PartOf plan trade)
    (keeps : TradeEvidence.Keeps)
    (decodes : ∀ replay ∈ replays, ∀ fact ∈ replay.facts, fact.Decodes)
    (committed : committedManifestMaterial plan replays = some material)
    (frozen : freezeManifest material observedAt = .ok manifest) :
    ∃ projection, reduceManifest manifest = .ok projection := by
  rcases committedManifestMaterial_spec committed with ⟨first, firstMem, made⟩
  simp only [freezeManifest, bind_eq_ok, orError_eq_ok, pure_eq_ok] at frozen
  rcases frozen with ⟨_, -, shared, encoded, rfl⟩
  rcases keeps _ _ encoded with ⟨sameTrade, observations⟩
  replace sameTrade := sameTrade.trans (made.sameTrade.trans (parts first firstMem).sameTrade)
  replace observations := observations.trans made.observations
  have materialOf : MaterialOf (observedMutations replays) material.reducerMutations :=
    made.mutations ▸ materialOf_reducerMutations _
  have searched : (shared.content.observations.all fun observation =>
      (Search.binarySearch (fun material : ReducerMutation => material.mutationId.toNat)
        observation.mutationId.toNat material.reducerMutations).isSome) = true := by
    rw [List.all_eq_true, observations]
    intro observation observationMem
    rcases mem_manifestObservations.mp observationMem with
      ⟨replay, replayMem, fact, factMem, rfl⟩
    exact found_of_materialOf materialOf
      (mem_observedMutations.mpr ⟨replay, replayMem, fact, factMem, rfl⟩)
  have decoded : ∃ mutations, decodeMaterials
      ⟨shared, material.attemptId, material.jobId, material.reducerMutations⟩
      material.reducerMutations = .ok mutations := by
    refine decodeMaterials_eq_ok ?_ ?_
    · intro entry entryMem
      rcases mem_observedMutations.mp (materialOf.origin entry entryMem) with
        ⟨replay, replayMem, fact, factMem, rfl⟩
      refine ⟨manifestObservation replay fact, ?_, rfl, rfl⟩
      rw [observations]
      exact mem_manifestObservations.mpr ⟨replay, replayMem, fact, factMem, rfl⟩
    · intro entry entryMem
      rcases mem_observedMutations.mp (materialOf.origin entry entryMem) with
        ⟨replay, replayMem, fact, factMem, rfl⟩
      rcases decodes replay replayMem fact factMem with ⟨mutation, read, sameMutation, recorded⟩
      have factTrade := (parts replay replayMem).facts_trade fact factMem
      exact ⟨mutation, read, sameMutation, recorded.trans (factTrade.trans sameTrade.symm)⟩
  rcases decoded with ⟨mutations, decoded⟩
  simp only [reduceManifest, bind_eq_ok, require_eq_ok, pure_eq_ok]
  exact ⟨_, (), made.bounded, (), searched, mutations, decoded, rfl⟩

/-- Material and reduction agree for the parts of a planned attempt. -/
theorem planned_material_reduces {row : JobRow} {lease : Lease} {configuration : Configuration}
    {startedAt : UnixMilliseconds} {plan : AttemptPlan} {replays : List SourceReplay}
    (stored : decodeJob row = .ok lease.job)
    (planned : AttemptPlan.fromClaim lease configuration startedAt = .ok plan)
    (finished : ∀ replay ∈ replays, replay.FinishedFor plan)
    (consistent : ConsistentContent (observedMutations replays)) : plan.Reduces replays := by
  have parts : ∀ replay ∈ replays, replay.PartOf plan lease.job.tradeId :=
    fun replay replayMem => partOf_of_finished planned (finished replay replayMem)
  have plannedFor := fromClaim_spec planned
  have materialOf :
      ∀ plan replays material, committedManifestMaterial plan replays = some material →
      MaterialOf (observedMutations replays) material.reducerMutations := by
    intro plan replays material committed
    rcases committedManifestMaterial_spec committed with ⟨first, -, made⟩
    exact made.mutations ▸ materialOf_reducerMutations _
  refine {
    yields := ?_, material := materialOf plan replays, independent := ?_, reduces := ?_ }
  · intro takes contained nonempty few
    have generation : plan.inputGeneration ≠ 0 := by
      rw [plannedFor.generation]
      simp only [decodeJob, bind_eq_ok, require_eq_ok, decide_eq_true_eq, pure_eq_ok] at stored
      rcases stored with ⟨_, generation, _, -, _, -, _, -, _, -, _, -, _, -, _, -, _, -, _, -, _, -,
        made⟩
      have same : row.inputGeneration = lease.job.inputGeneration :=
        congrArg Job.inputGeneration made
      omega
    have atMost : plan.requests.length ≤ 16 :=
      plannedFor.requests.length_eq ▸ configuration.sources_count.2
    exact committedManifestMaterial_of_parts parts takes generation
      (materialWithinBounds_of_parts parts contained (few.trans atMost)) nonempty
  · intro material committed otherPlan others other otherCommitted same
    exact (MaterialOf.unique consistent same (materialOf _ _ _ committed)
      (materialOf _ _ _ otherCommitted)).symm
  · intro keeps decodes material committed observedAt manifest frozen
    rcases reduceManifest_of_frozen parts keeps decodes committed frozen with ⟨projection, done⟩
    rw [done]
    intro refused
    cases refused

end Agreement

section Exceptions

namespace Sample.Reduction

open Rhi.Sample

local instance : Sha256 := ⟨Hashing.sha256⟩

local instance : TradeEvidence := evidence

/-- The retained row of the job. -/
def row : JobRow where
  jobId := lease.job.id
  tradeId := trade
  inputGeneration := 1
  evidencePolicy := policy
  state := .leased
  revision := 2
  attemptCount := 1
  failureCount := 0
  maxAttempts := 3
  leaseDuration := 60000
  leaseRenewal := 20000
  initialBackoff := 1000
  maximumBackoff := 10000
  nextAttempt := none
  leaseOwner := some 0x44#128
  leaseExpires := some 1000061000
  createdAt := 1000000000
  updatedAt := 1000001000

/-- The proposal arrived in two events. -/
def events : List AdmittedEvent :=
  [event 0x77#256 0x88#256 1000001 second_bounds, event 0x76#256 0x88#256 1000001 second_bounds]

/-- The relay delivered both. -/
def part : SourceReplay where
  plan := {
    id := replayId request.id none 300 913601
    requestId := request.id
    sourceId := source
    tradeId := trade
    required := true
    policyDigest := policy
    selectorDigest := selectorDigest trade
    priorCursor := none
    overlapSeconds := 300
    since := 913601 }
  result := ⟨request.id, .complete, 1000001000, 1000002000, 2, 4⟩
  duplicateObservations := 0
  cursorCandidate := some ⟨1000001, 0x77#256⟩
  firstObservedAt := some decision.observedAt
  facts := events.reverse.map (·.fact)

theorem part_finished : part.FinishedFor plan := by
  refine ⟨request, List.mem_singleton_self _, configuration, none, part.plan, .complete, 1000001000,
    1000002000, events, ?_, ?_⟩
  · decide +kernel
  · decide +kernel

/-- Its material holds the proposal with the smaller event, and it is reduced. -/
theorem part_reduces : ∃ material manifest,
    committedManifestMaterial plan [part] = some material ∧
      material.reducerMutations = [⟨0x88#256, 0x76#256, [123, 125]⟩] ∧
      freezeManifest material 1000002 = .ok manifest ∧
      reduceManifest manifest ≠ .error .invalidManifest := by
  have stored : decodeJob row = .ok lease.job := by
    decide +kernel
  have reduces : plan.Reduces [part] := by
    refine planned_material_reduces stored
      fromClaim_plan ?_ (by unfold ConsistentContent; decide +kernel)
    intro replay replayMem
    rw [List.mem_singleton.mp replayMem]
    exact part_finished
  have keeps : TradeEvidence.Keeps := by
    rintro content _ ⟨⟩
    exact ⟨rfl, rfl⟩
  have decodes : ∀ replay ∈ [part], ∀ fact ∈ replay.facts, fact.Decodes := by
    intro replay replayMem fact factMem
    rw [List.mem_singleton.mp replayMem] at factMem
    have content : fact.record.canonicalContent = [123, 125] ∧
        fact.record.mutationId = 0x88#256 ∧ fact.record.tradeId = trade := by
      revert fact
      decide +kernel
    exact ⟨_, rfl, by rw [content.1, content.2.1]; rfl, content.2.2.symm⟩
  have takes : TradeEvidence.Takes [part] := ⟨fun _ _ => rfl, fun _ _ _ _ _ => rfl⟩
  rcases reduces.yields takes (by decide +kernel) (by decide) (by decide) with
    ⟨material, committed⟩
  rcases committedManifestMaterial_spec committed with ⟨first, firstMem, made⟩
  have latest : material.latestFinished = 1000002000 := by
    have read : (committedManifestMaterial plan [part]).map (·.latestFinished) =
        some 1000002000 := by
      decide +kernel
    rw [committed] at read
    exact Option.some.inj read
  have frozen : ∃ manifest, freezeManifest material 1000002 = .ok manifest := by
    simp only [freezeManifest, bind_eq_ok, require_eq_ok, orError_eq_ok, pure_eq_ok, latest]
    exact ⟨_, (), by decide, _, rfl, rfl⟩
  rcases frozen with ⟨manifest, frozen⟩
  refine ⟨material, manifest, committed, ?_, frozen,
    reduces.reduces keeps decodes material committed 1000002 manifest frozen⟩
  rw [made.mutations]
  decide +kernel

end Sample.Reduction

end Exceptions

end Rhi
