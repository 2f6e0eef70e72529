import Mathlib.Algebra.Order.BigOperators.Group.Finset
import Mathlib.Algebra.Order.BigOperators.Group.List
import Mathlib.Algebra.Order.Group.Nat
import Mathlib.Data.List.Sort
import Mathlib.Data.Prod.Lex
import Rhi.Attempt
import Rhi.Evidence.Genuine

/-!
# The canonical form of a replay

Sorting brings the observations of a signed event together with the earliest in front, so that the
facts a replay keeps depend on what was observed and not on the order in which it arrived.
-/

namespace Rhi

open Relational Transactional

section Cursors

theorem SourceCursor.lt_irrefl (cursor : SourceCursor) : cursor.lt cursor = false := by
  simp [SourceCursor.lt]

theorem SourceCursor.lt_iff {left right : SourceCursor} : left.lt right = true ↔
    left.createdAt < right.createdAt ∨
      (left.createdAt = right.createdAt ∧ left.eventId < right.eventId) := by
  simp [SourceCursor.lt]

/-- The order of cursors is total, so an upper bound of two cursors is an upper bound of what lies
below either. -/
theorem SourceCursor.not_lt_of_lt {first second third : SourceCursor}
    (least : first.lt second = true) (below : first.lt third = false) :
    second.lt third = false := by
  rw [Bool.eq_false_iff, ne_eq, SourceCursor.lt_iff] at below ⊢
  rw [SourceCursor.lt_iff] at least
  intro beyond
  apply below
  rcases least with earlier | ⟨sameFirst, smaller⟩
  · rcases beyond with later | ⟨sameThen, -⟩
    · exact .inl (earlier.trans later)
    · exact .inl (sameThen ▸ earlier)
  · rcases beyond with later | ⟨sameThen, larger⟩
    · exact .inl (sameFirst ▸ later)
    · exact .inr ⟨sameFirst.trans sameThen, BitVec.lt_trans smaller larger⟩

theorem SourceCursor.latest_cases (current next : SourceCursor) :
    (current.latest next = next ∧ current.lt next = true) ∨
      (current.latest next = current ∧ current.lt next = false) := by
  unfold SourceCursor.latest
  cases later : current.lt next with
  | true => exact .inl ⟨by simp, rfl⟩
  | false => exact .inr ⟨by simp, rfl⟩

/-- The position of a fact in the order of its source. -/
def ReplayFact.cursor (fact : ReplayFact) : SourceCursor :=
  ⟨fact.record.authoredAt, fact.record.eventId⟩

/-- The greatest position of a list of facts, if there is one. -/
structure GreatestCursor (facts : List ReplayFact) (candidate : Option SourceCursor) : Prop where
  none : candidate = none ↔ facts = []
  mem : ∀ cursor ∈ candidate, ∃ fact ∈ facts, cursor = fact.cursor
  max : ∀ cursor ∈ candidate, ∀ fact ∈ facts, cursor.lt fact.cursor = false

theorem GreatestCursor.append {facts : List ReplayFact} {candidate : Option SourceCursor}
    (greatest : GreatestCursor facts candidate) (fact : ReplayFact) :
    GreatestCursor (facts ++ [fact])
      (some (candidate.elim fact.cursor (·.latest fact.cursor))) := by
  cases candidate with
  | none =>
      have empty := greatest.none.mp rfl
      subst empty
      exact {
        none := by simp
        mem := by simp
        max := by simp [fact.cursor.lt_irrefl] }
  | some current =>
      have below := greatest.max current rfl
      rcases greatest.mem current rfl with ⟨known, knownMem, named⟩
      refine { none := by simp, mem := ?_, max := ?_ }
      · intro cursor isCandidate
        cases isCandidate
        rcases SourceCursor.latest_cases current fact.cursor with ⟨same, -⟩ | ⟨same, -⟩
        · exact ⟨fact, by simp, same⟩
        · exact ⟨known, List.mem_append_left _ knownMem, same.trans named⟩
      · intro cursor isCandidate other otherMem
        cases isCandidate
        rw [Option.elim_some]
        rcases SourceCursor.latest_cases current fact.cursor with ⟨same, later⟩ | ⟨same, earlier⟩
        · rw [same]
          rcases List.mem_append.mp otherMem with old | new
          · exact SourceCursor.not_lt_of_lt later (below other old)
          · rw [List.mem_singleton.mp new]
            exact fact.cursor.lt_irrefl
        · rw [same]
          rcases List.mem_append.mp otherMem with old | new
          · exact below other old
          · rw [List.mem_singleton.mp new]
            exact earlier

end Cursors

section Observations

/-- The earliest observation of a list of facts, if there is one. -/
structure EarliestObservation (facts : List ReplayFact) (first : Option ObservedAt) : Prop where
  none : first = none ↔ facts = []
  mem : ∀ observedAt ∈ first, ∃ fact ∈ facts, observedAt = fact.observedAt
  min : ∀ observedAt ∈ first, ∀ fact ∈ facts, observedAt.get ≤ fact.observedAt.get

theorem EarliestObservation.append {facts : List ReplayFact} {first : Option ObservedAt}
    (earliest : EarliestObservation facts first) (fact : ReplayFact) :
    EarliestObservation (facts ++ [fact]) (some (first.elim fact.observedAt fun current =>
      if fact.observedAt.get < current.get then fact.observedAt else current)) := by
  cases first with
  | none =>
      have empty := earliest.none.mp rfl
      subst empty
      exact { none := by simp, mem := by simp, min := by simp }
  | some current =>
      have least := earliest.min current rfl
      rcases earliest.mem current rfl with ⟨known, knownMem, named⟩
      rw [Option.elim_some]
      by_cases sooner : fact.observedAt.get < current.get
      · rw [if_pos sooner]
        refine { none := by simp, mem := by simp, min := ?_ }
        intro observedAt isFirst other otherMem
        cases isFirst
        rcases List.mem_append.mp otherMem with old | new
        · exact sooner.le.trans (least other old)
        · rw [List.mem_singleton.mp new]
      · rw [if_neg sooner]
        refine { none := by simp, mem := ?_, min := ?_ }
        · intro observedAt isFirst
          cases isFirst
          exact ⟨known, List.mem_append_left _ knownMem, named⟩
        · intro observedAt isFirst other otherMem
          cases isFirst
          rcases List.mem_append.mp otherMem with old | new
          · exact least other old
          · rw [List.mem_singleton.mp new]
            exact Nat.le_of_not_lt sooner

end Observations

section Order

/-- What `compare_fact` compares, in its order. -/
def ReplayFact.sortKey (fact : ReplayFact) : ℕ ×ₗ ℕ ×ₗ ℕ ×ₗ ℕ ×ₗ ℕ :=
  toLex (fact.record.authoredAt, toLex (fact.record.eventId.toNat,
    toLex (fact.record.eventSignature.toNat, toLex (fact.observedAt.get, fact.originalBytes))))

theorem ReplayFact.before_iff {left right : ReplayFact} :
    left.before right ↔ left.sortKey ≤ right.sortKey := by
  simp only [ReplayFact.before, ReplayFact.sortKey, Prod.Lex.toLex_le_toLex, BitVec.lt_def,
    ← BitVec.toNat_inj]

instance : Std.Total ReplayFact.before where
  total left right := by
    rw [ReplayFact.before_iff, ReplayFact.before_iff]
    exact le_total _ _

instance : IsTrans ReplayFact ReplayFact.before where
  trans first second third := by
    rw [ReplayFact.before_iff, ReplayFact.before_iff, ReplayFact.before_iff]
    exact le_trans

theorem ReplayFact.before_refl (fact : ReplayFact) : fact.before fact :=
  ReplayFact.before_iff.mpr le_rfl

end Order

section Acceptance

def Consistent (records : List PersistenceRecord) : Prop :=
  ∀ left ∈ records, ∀ right ∈ records, left.Agrees right

/-- Two observations of one signed event. -/
def ReplayFact.SameEvent (left right : ReplayFact) : Prop :=
  left.record.eventId = right.record.eventId ∧
    left.record.eventSignature = right.record.eventSignature

instance : DecidableRel ReplayFact.SameEvent := fun left right => by
  unfold ReplayFact.SameEvent
  infer_instance

/-- A fact repeats a kept one, or it is kept as well. -/
inductive CanonicalReplay.Accepts (replay : CanonicalReplay) (fact : ReplayFact) :
    CanonicalReplay → Prop where
  | repeated (known : ReplayFact) (knownMem : known ∈ replay.facts)
      (same : known.record = fact.record) (few : replay.duplicateObservations + 1 < 2 ^ 32) :
      replay.Accepts fact
        { replay with duplicateObservations := replay.duplicateObservations + 1 }
  | kept (fresh : ∀ known ∈ replay.facts, ¬known.SameEvent fact)
      (unopposed : ∀ known ∈ replay.facts,
        known.record.mutationId = fact.record.mutationId →
          known.record.mutationRow = fact.record.mutationRow)
      (small : replay.acceptedOriginalBytes + fact.originalBytes < 2 ^ 64) :
      replay.Accepts fact (replay.append fact)

/-- A fact is refused for what it contradicts, or for what can no longer be counted. -/
inductive CanonicalReplay.Refuses (replay : CanonicalReplay) (fact : ReplayFact) : Prop where
  | contradicted (known : ReplayFact) (knownMem : known ∈ replay.facts)
      (opposed : ¬known.record.Agrees fact.record)
  | manyRepeated (known : ReplayFact) (knownMem : known ∈ replay.facts)
      (same : known.record = fact.record) (many : 2 ^ 32 ≤ replay.duplicateObservations + 1)
  | large (fresh : ∀ known ∈ replay.facts, ¬known.SameEvent fact)
      (large : 2 ^ 64 ≤ replay.acceptedOriginalBytes + fact.originalBytes)

theorem CanonicalReplay.accept_spec {replay : CanonicalReplay} (fact : ReplayFact)
    (consistent : Consistent (replay.facts.map (·.record))) :
    (∃ next, replay.accept fact = .ok next ∧ replay.Accepts fact next) ∨
      ((∃ error, replay.accept fact = .error error) ∧ replay.Refuses fact) := by
  unfold CanonicalReplay.accept
  cases found : replay.facts.find? fun known => known.record.eventId == fact.record.eventId &&
      known.record.eventSignature == fact.record.eventSignature with
  | some known =>
      have knownMem := List.mem_of_find?_eq_some found
      have identified := List.find?_some found
      simp only [Bool.and_eq_true, beq_iff_eq] at identified
      by_cases same : known.record = fact.record
      · by_cases few : replay.duplicateObservations + 1 < 2 ^ 32
        · left
          refine ⟨_, ?_, .repeated known knownMem same few⟩
          simp only [same, few, require, beq_self_eq_true, decide_true, if_true]
          rfl
        · right
          refine ⟨⟨.resourceLimit, ?_⟩, .manyRepeated known knownMem same (Nat.le_of_not_lt few)⟩
          simp only [same, few, require, beq_self_eq_true, decide_false, if_true,
            Bool.false_eq_true, if_false]
          rfl
      · right
        refine ⟨⟨.signedEventConflict, ?_⟩, .contradicted known knownMem fun agrees =>
          same (agrees.event identified.1 identified.2)⟩
        have differs : (known.record == fact.record) = false := by simpa using same
        simp only [differs, require, Bool.false_eq_true, if_false]
        rfl
  | none =>
      have fresh : ∀ known ∈ replay.facts, ¬known.SameEvent fact := by
        intro known knownMem same
        have unknown := List.find?_eq_none.mp found known knownMem
        simp [same.1, same.2] at unknown
      cases other : replay.facts.find? fun known =>
          known.record.mutationId == fact.record.mutationId with
      | some known =>
          have knownMem := List.mem_of_find?_eq_some other
          have identified := List.find?_some other
          simp only [beq_iff_eq] at identified
          by_cases same : known.record.mutationRow = fact.record.mutationRow
          · by_cases small : replay.acceptedOriginalBytes + fact.originalBytes < 2 ^ 64
            · left
              refine ⟨_, ?_, .kept fresh ?_ small⟩
              · simp only [Option.all_some, same, small, require, beq_self_eq_true, decide_true,
                  if_true]
                rfl
              · intro earlier earlierMem sameMutation
                have agrees := consistent _ (List.mem_map_of_mem earlierMem) _
                  (List.mem_map_of_mem knownMem)
                exact (agrees.mutation (sameMutation.trans identified.symm)).trans same
            · right
              refine ⟨⟨.resourceLimit, ?_⟩, .large fresh (Nat.le_of_not_lt small)⟩
              simp only [Option.all_some, same, small, require, beq_self_eq_true, decide_false,
                if_true, Bool.false_eq_true, if_false]
              rfl
          · right
            refine ⟨⟨.mutationConflict, ?_⟩, .contradicted known knownMem fun agrees =>
              same (agrees.mutation identified)⟩
            have differs : (known.record.mutationRow == fact.record.mutationRow) = false := by
              simpa using same
            simp only [Option.all_some, differs, require, Bool.false_eq_true, if_false]
            rfl
      | none =>
          by_cases small : replay.acceptedOriginalBytes + fact.originalBytes < 2 ^ 64
          · left
            refine ⟨_, ?_, .kept fresh ?_ small⟩
            · simp only [Option.all_none, small, require, decide_true, if_true]
              rfl
            · intro known knownMem sameMutation
              have unknown := List.find?_eq_none.mp other known knownMem
              simp [sameMutation] at unknown
          · right
            refine ⟨⟨.resourceLimit, ?_⟩, .large fresh (Nat.le_of_not_lt small)⟩
            simp only [Option.all_none, small, require, decide_false, if_true,
              Bool.false_eq_true, if_false]
            rfl

end Acceptance

section Loop

/-- What the loop has kept of the facts it has seen, in their order. -/
structure CanonicalReplay.Of (seen : List ReplayFact) (replay : CanonicalReplay) : Prop where
  sublist : replay.facts.Sublist seen
  represented : ∀ fact ∈ seen, ∃ known ∈ replay.facts, known.record = fact.record ∧
    known.before fact
  distinct : replay.facts.Pairwise fun left right => ¬left.SameEvent right
  consistent : Consistent (replay.facts.map (·.record))
  count : replay.duplicateObservations + replay.facts.length = seen.length
  bytes : replay.acceptedOriginalBytes = (replay.facts.map (·.originalBytes)).sum
  few : replay.duplicateObservations < 2 ^ 32
  small : replay.acceptedOriginalBytes < 2 ^ 64
  cursor : GreatestCursor replay.facts replay.cursorCandidate
  observed : EarliestObservation replay.facts replay.firstObservedAt

theorem CanonicalReplay.of_empty : CanonicalReplay.empty.Of [] where
  sublist := .refl _
  represented := by simp
  distinct := .nil
  consistent := by simp [Consistent, CanonicalReplay.empty]
  count := rfl
  bytes := rfl
  few := by simp [CanonicalReplay.empty]
  small := by simp [CanonicalReplay.empty]
  cursor := { none := by simp [CanonicalReplay.empty], mem := by simp [CanonicalReplay.empty],
              max := by simp [CanonicalReplay.empty] }
  observed := { none := by simp [CanonicalReplay.empty], mem := by simp [CanonicalReplay.empty],
                min := by simp [CanonicalReplay.empty] }

/-- A fact that agrees with every kept one on its event and its mutation keeps them consistent. -/
theorem Consistent.append {facts : List ReplayFact} {fact : ReplayFact}
    (consistent : Consistent (facts.map (·.record)))
    (fresh : ∀ known ∈ facts, ¬known.SameEvent fact)
    (unopposed : ∀ known ∈ facts, known.record.mutationId = fact.record.mutationId →
      known.record.mutationRow = fact.record.mutationRow) :
    Consistent ((facts ++ [fact]).map (·.record)) := by
  intro left leftMem right rightMem
  rcases List.mem_map.mp leftMem with ⟨first, firstMem, rfl⟩
  rcases List.mem_map.mp rightMem with ⟨second, secondMem, rfl⟩
  rcases List.mem_append.mp firstMem with firstOld | firstNew
  · rcases List.mem_append.mp secondMem with secondOld | secondNew
    · exact consistent _ (List.mem_map_of_mem firstOld) _ (List.mem_map_of_mem secondOld)
    · rw [List.mem_singleton.mp secondNew]
      exact {
        event := fun sameId sameSignature => absurd ⟨sameId, sameSignature⟩ (fresh first firstOld)
        mutation := unopposed first firstOld }
  · rw [List.mem_singleton.mp firstNew]
    rcases List.mem_append.mp secondMem with secondOld | secondNew
    · exact {
        event := fun sameId sameSignature =>
          absurd ⟨sameId.symm, sameSignature.symm⟩ (fresh second secondOld)
        mutation := fun same => (unopposed second secondOld same.symm).symm }
    · rw [List.mem_singleton.mp secondNew]
      exact { event := fun _ _ => rfl, mutation := fun _ => rfl }

theorem CanonicalReplay.Of.accept {seen : List ReplayFact} {replay next : CanonicalReplay}
    {fact : ReplayFact} (of : replay.Of seen) (later : ∀ other ∈ seen, other.before fact)
    (accepts : replay.Accepts fact next) : next.Of (seen ++ [fact]) := by
  cases accepts with
  | repeated known knownMem same few =>
      exact {
        sublist := of.sublist.trans (List.sublist_append_left _ _)
        represented := by
          intro other otherMem
          rcases List.mem_append.mp otherMem with old | new
          · exact of.represented other old
          · rw [List.mem_singleton.mp new]
            exact ⟨known, knownMem, same, later known (of.sublist.subset knownMem)⟩
        distinct := of.distinct
        consistent := of.consistent
        count := by
          have counted := of.count
          simp only [List.length_append, List.length_singleton]
          omega
        bytes := of.bytes
        few
        small := of.small
        cursor := of.cursor
        observed := of.observed }
  | kept fresh unopposed small =>
      exact {
        sublist := of.sublist.append (.refl _)
        represented := by
          intro other otherMem
          rcases List.mem_append.mp otherMem with old | new
          · rcases of.represented other old with ⟨known, mem, same⟩
            exact ⟨known, List.mem_append_left _ mem, same⟩
          · rw [List.mem_singleton.mp new]
            exact ⟨fact, List.mem_append_right _ (by simp), rfl, fact.before_refl⟩
        distinct := by
          refine List.pairwise_append.mpr ⟨of.distinct, List.pairwise_singleton _ _, ?_⟩
          intro known knownMem other otherMem
          rw [List.mem_singleton.mp otherMem]
          exact fresh known knownMem
        consistent := of.consistent.append fresh unopposed
        count := by
          have counted := of.count
          simp only [CanonicalReplay.append, List.length_append, List.length_singleton]
          omega
        bytes := by simp [CanonicalReplay.append, of.bytes]
        few := of.few
        small
        cursor := of.cursor.append fact
        observed := of.observed.append fact }

theorem CanonicalReplay.Of.seen_consistent {seen : List ReplayFact} {replay : CanonicalReplay}
    (of : replay.Of seen) : Consistent (seen.map (·.record)) := by
  intro left leftMem right rightMem
  rcases List.mem_map.mp leftMem with ⟨first, firstMem, rfl⟩
  rcases List.mem_map.mp rightMem with ⟨second, secondMem, rfl⟩
  rcases of.represented first firstMem with ⟨known, knownMem, sameKnown, -⟩
  rcases of.represented second secondMem with ⟨other, otherMem, sameOther, -⟩
  rw [← sameKnown, ← sameOther]
  exact of.consistent _ (List.mem_map_of_mem knownMem) _ (List.mem_map_of_mem otherMem)

/-- Kept facts of one signed event are one fact. -/
theorem CanonicalReplay.Of.eq_of_sameEvent {seen : List ReplayFact} {replay : CanonicalReplay}
    (of : replay.Of seen) {left right : ReplayFact} (leftMem : left ∈ replay.facts)
    (rightMem : right ∈ replay.facts) (same : left.SameEvent right) : left = right := by
  by_contra differ
  have : Std.Symm fun left right : ReplayFact => ¬left.SameEvent right :=
    ⟨fun _ _ apart same => apart ⟨same.1.symm, same.2.symm⟩⟩
  exact of.distinct.forall leftMem rightMem differ same

end Loop

section Retained

/-- A fact that no observation of its signed event precedes, by its time or then by its bytes. -/
def ReplayFact.First (candidates : List ReplayFact) (fact : ReplayFact) : Prop :=
  fact ∈ candidates ∧ ∀ other ∈ candidates, fact.SameEvent other →
    fact.observedAt.get < other.observedAt.get ∨
      (fact.observedAt.get = other.observedAt.get ∧ fact.originalBytes ≤ other.originalBytes)

instance (candidates : List ReplayFact) : DecidablePred (ReplayFact.First candidates) :=
  fun fact => by
    unfold ReplayFact.First
    infer_instance

/-- The facts that are kept of a list of observations. -/
def retained (candidates : List ReplayFact) : Finset ReplayFact :=
  candidates.toFinset.filter (ReplayFact.First candidates)

theorem mem_retained {candidates : List ReplayFact} {fact : ReplayFact} :
    fact ∈ retained candidates ↔ fact.First candidates := by
  simp only [retained, Finset.mem_filter, List.mem_toFinset]
  exact ⟨And.right, fun first => ⟨first.1, first⟩⟩

theorem ReplayFact.before_iff_of_record {left right : ReplayFact}
    (same : left.record = right.record) : left.before right ↔
      left.observedAt.get < right.observedAt.get ∨
        (left.observedAt.get = right.observedAt.get ∧
          left.originalBytes ≤ right.originalBytes) := by
  simp [ReplayFact.before, same]

theorem ReplayFact.eq_of_record {left right : ReplayFact} (same : left.record = right.record)
    (observed : left.observedAt.get = right.observedAt.get)
    (bytes : left.originalBytes = right.originalBytes) : left = right := by
  rcases left with ⟨record, originalBytes, ⟨observedAt, _, _⟩⟩
  rcases right with ⟨record', originalBytes', ⟨observedAt', _, _⟩⟩
  simp only at same observed bytes
  subst same observed bytes
  rfl

/-- The first observation of a signed event is among the facts that precede all of them. -/
theorem ReplayFact.First.eq_of_before {candidates : List ReplayFact} {known fact : ReplayFact}
    (first : fact.First candidates) (knownMem : known ∈ candidates)
    (same : known.record = fact.record) (before : known.before fact) : known = fact := by
  have ahead := first.2 known knownMem ⟨by rw [same], by rw [same]⟩
  rw [ReplayFact.before_iff_of_record same] at before
  exact ReplayFact.eq_of_record same (by omega) (by omega)

/-- In consistent observations a fact is first as soon as the order puts it in front of the other
observations of its event. -/
theorem ReplayFact.first_of_before {candidates : List ReplayFact} {fact : ReplayFact}
    (consistent : Consistent (candidates.map (·.record))) (factMem : fact ∈ candidates)
    (before : ∀ other ∈ candidates, other.record = fact.record → fact.before other) :
    fact.First candidates := by
  refine ⟨factMem, ?_⟩
  intro other otherMem same
  have agrees := consistent _ (List.mem_map_of_mem factMem) _ (List.mem_map_of_mem otherMem)
  have sameRecord := agrees.event same.1 same.2
  exact (ReplayFact.before_iff_of_record sameRecord).mp (before other otherMem sameRecord.symm)

/-- The kept facts precede all observations of their events that were seen. -/
theorem CanonicalReplay.Of.before_seen {seen : List ReplayFact} {replay : CanonicalReplay}
    (of : replay.Of seen) {known other : ReplayFact} (knownMem : known ∈ replay.facts)
    (otherMem : other ∈ seen) (same : other.record = known.record) : known.before other := by
  rcases of.represented other otherMem with ⟨front, frontMem, sameFront, before⟩
  have sameFact : front = known :=
    of.eq_of_sameEvent frontMem knownMem ⟨by rw [sameFront, same], by rw [sameFront, same]⟩
  exact sameFact ▸ before

theorem CanonicalReplay.Of.mem_iff_first {seen : List ReplayFact} {replay : CanonicalReplay}
    (of : replay.Of seen) (fact : ReplayFact) : fact ∈ replay.facts ↔ fact.First seen := by
  constructor
  · intro factMem
    exact ReplayFact.first_of_before of.seen_consistent (of.sublist.subset factMem)
      fun other otherMem same => of.before_seen factMem otherMem same
  · intro first
    rcases of.represented fact first.1 with ⟨known, knownMem, same, before⟩
    exact first.eq_of_before (of.sublist.subset knownMem) same before ▸ knownMem

theorem CanonicalReplay.Of.nodup {seen : List ReplayFact} {replay : CanonicalReplay}
    (of : replay.Of seen) : replay.facts.Nodup := by
  refine of.distinct.imp ?_
  rintro known _ apart rfl
  exact apart ⟨rfl, rfl⟩

theorem CanonicalReplay.Of.retained_eq {seen : List ReplayFact} {replay : CanonicalReplay}
    (of : replay.Of seen) : retained seen = replay.facts.toFinset := by
  ext fact
  rw [mem_retained, List.mem_toFinset, of.mem_iff_first]

end Retained

section Failures

/-- Two facts share a signed event or a mutation and differ in what it determines. -/
def Conflicting (candidates : List ReplayFact) : Prop :=
  ∃ left ∈ candidates, ∃ right ∈ candidates,
    (left.SameEvent right ∧ left.record ≠ right.record) ∨
      (left.record.mutationId = right.record.mutationId ∧
        left.record.mutationRow ≠ right.record.mutationRow)

theorem not_conflicting_iff {candidates : List ReplayFact} :
    ¬Conflicting candidates ↔ Consistent (candidates.map (·.record)) := by
  constructor
  · intro unopposed left leftMem right rightMem
    rcases List.mem_map.mp leftMem with ⟨first, firstMem, rfl⟩
    rcases List.mem_map.mp rightMem with ⟨second, secondMem, rfl⟩
    constructor
    · intro sameId sameSignature
      by_contra differ
      exact unopposed ⟨first, firstMem, second, secondMem, .inl ⟨⟨sameId, sameSignature⟩, differ⟩⟩
    · intro sameMutation
      by_contra differ
      exact unopposed ⟨first, firstMem, second, secondMem, .inr ⟨sameMutation, differ⟩⟩
  · rintro consistent ⟨left, leftMem, right, rightMem, ⟨same, differ⟩ | ⟨same, differ⟩⟩
    · exact differ ((consistent _ (List.mem_map_of_mem leftMem) _
        (List.mem_map_of_mem rightMem)).event same.1 same.2)
    · exact differ ((consistent _ (List.mem_map_of_mem leftMem) _
        (List.mem_map_of_mem rightMem)).mutation same)

/-- The repetitions do not fit 32 bits, or the kept bytes do not fit 64. -/
def Overflowing (candidates : List ReplayFact) : Prop :=
  2 ^ 32 ≤ candidates.length - (retained candidates).card ∨
    2 ^ 64 ≤ ∑ fact ∈ retained candidates, fact.originalBytes

theorem CanonicalReplay.Of.not_overflowing {seen : List ReplayFact} {replay : CanonicalReplay}
    (of : replay.Of seen) : ¬Overflowing seen := by
  have card : (retained seen).card = replay.facts.length := by
    rw [of.retained_eq, List.toFinset_card_of_nodup of.nodup]
  have bytes : ∑ fact ∈ retained seen, fact.originalBytes = replay.acceptedOriginalBytes := by
    rw [of.retained_eq, List.sum_toFinset _ of.nodup, of.bytes]
  have counted := of.count
  have few := of.few
  have small := of.small
  rintro (many | large)
  · rw [card] at many
    omega
  · rw [bytes] at large
    omega

/-- A repetition that can no longer be counted. -/
theorem CanonicalReplay.Of.overflowing_of_many {seen rest : List ReplayFact}
    {replay : CanonicalReplay} {known fact : ReplayFact} (of : replay.Of seen)
    (sorted : (seen ++ fact :: rest).Pairwise ReplayFact.before) (knownMem : known ∈ replay.facts)
    (same : known.record = fact.record) (many : 2 ^ 32 ≤ replay.duplicateObservations + 1) :
    Overflowing (seen ++ fact :: rest) := by
  have ordered := List.pairwise_append.mp sorted
  have covered : retained (seen ++ fact :: rest) ⊆ (replay.facts ++ rest).toFinset := by
    intro other otherMem
    have first := mem_retained.mp otherMem
    rw [List.mem_toFinset]
    rcases List.mem_append.mp first.1 with old | new
    · rcases of.represented other old with ⟨front, frontMem, sameFront, before⟩
      have isFront := first.eq_of_before
        (List.mem_append_left _ (of.sublist.subset frontMem)) sameFront before
      exact List.mem_append_left _ (isFront ▸ frontMem)
    · rcases List.mem_cons.mp new with rfl | later
      · have knownSeen := of.sublist.subset knownMem
        have isKnown := first.eq_of_before (List.mem_append_left _ knownSeen) same
          (ordered.2.2 known knownSeen other List.mem_cons_self)
        exact List.mem_append_left _ (isKnown ▸ knownMem)
      · exact List.mem_append_right _ later
  have card : (retained (seen ++ fact :: rest)).card ≤ replay.facts.length + rest.length :=
    calc (retained (seen ++ fact :: rest)).card
      _ ≤ (replay.facts ++ rest).toFinset.card := Finset.card_le_card covered
      _ ≤ (replay.facts ++ rest).length := List.toFinset_card_le _
      _ = replay.facts.length + rest.length := List.length_append
  have counted := of.count
  left
  rw [List.length_append, List.length_cons]
  omega

/-- A fact whose bytes can no longer be counted. -/
theorem CanonicalReplay.Of.overflowing_of_large {seen rest : List ReplayFact}
    {replay : CanonicalReplay} {fact : ReplayFact} (of : replay.Of seen)
    (sorted : (seen ++ fact :: rest).Pairwise ReplayFact.before)
    (consistent : Consistent ((seen ++ fact :: rest).map (·.record)))
    (fresh : ∀ known ∈ replay.facts, ¬known.SameEvent fact)
    (large : 2 ^ 64 ≤ replay.acceptedOriginalBytes + fact.originalBytes) :
    Overflowing (seen ++ fact :: rest) := by
  have ordered := List.pairwise_append.mp sorted
  have behind := List.pairwise_cons.mp ordered.2.1
  have covered : (replay.facts ++ [fact]).toFinset ⊆ retained (seen ++ fact :: rest) := by
    intro known knownMem
    rw [List.mem_toFinset] at knownMem
    rw [mem_retained]
    rcases List.mem_append.mp knownMem with old | new
    · have knownSeen := of.sublist.subset old
      refine ReplayFact.first_of_before consistent (List.mem_append_left _ knownSeen) ?_
      intro other otherMem same
      rcases List.mem_append.mp otherMem with seenBefore | later
      · exact of.before_seen old seenBefore same
      · exact ordered.2.2 known knownSeen other later
    · rw [List.mem_singleton.mp new]
      refine ReplayFact.first_of_before consistent (by simp) ?_
      intro other otherMem same
      rcases List.mem_append.mp otherMem with seenBefore | later
      · rcases of.represented other seenBefore with ⟨front, frontMem, sameFront, -⟩
        exact absurd ⟨by rw [sameFront, same], by rw [sameFront, same]⟩ (fresh front frontMem)
      · rcases List.mem_cons.mp later with rfl | beyond
        · exact other.before_refl
        · exact behind.1 other beyond
  have nodup : (replay.facts ++ [fact]).Nodup := by
    refine List.nodup_append.mpr ⟨of.nodup, List.nodup_singleton _, ?_⟩
    intro known knownMem other otherMem same
    rw [List.mem_singleton.mp otherMem] at same
    exact fresh known knownMem (same ▸ ⟨rfl, rfl⟩)
  right
  calc 2 ^ 64
    _ ≤ replay.acceptedOriginalBytes + fact.originalBytes := large
    _ = ((replay.facts ++ [fact]).map (·.originalBytes)).sum := by simp [of.bytes]
    _ = ∑ known ∈ (replay.facts ++ [fact]).toFinset, known.originalBytes :=
        (List.sum_toFinset _ nodup).symm
    _ ≤ ∑ known ∈ retained (seen ++ fact :: rest), known.originalBytes :=
        Finset.sum_le_sum_of_subset covered

theorem CanonicalReplay.Of.refused {seen rest : List ReplayFact} {replay : CanonicalReplay}
    {fact : ReplayFact} (of : replay.Of seen)
    (sorted : (seen ++ fact :: rest).Pairwise ReplayFact.before) (refuses : replay.Refuses fact) :
    Conflicting (seen ++ fact :: rest) ∨ Overflowing (seen ++ fact :: rest) := by
  by_cases conflicting : Conflicting (seen ++ fact :: rest)
  · exact .inl conflicting
  · have consistent := not_conflicting_iff.mp conflicting
    right
    cases refuses with
    | contradicted known knownMem opposed =>
        have knownSeen := List.mem_append_left (fact :: rest) (of.sublist.subset knownMem)
        exact absurd (consistent _ (List.mem_map_of_mem knownSeen) _
          (List.mem_map_of_mem (by simp))) opposed
    | manyRepeated known knownMem same many =>
        exact of.overflowing_of_many sorted knownMem same many
    | large fresh large => exact of.overflowing_of_large sorted consistent fresh large

/-- The loop ends with all facts seen, or it fails on facts it cannot keep. -/
theorem canonicalizeFrom_spec {rest seen : List ReplayFact} {replay : CanonicalReplay}
    (of : replay.Of seen) (sorted : (seen ++ rest).Pairwise ReplayFact.before) :
    (∃ canonical, canonicalizeFrom rest replay = .ok canonical ∧ canonical.Of (seen ++ rest)) ∨
      ((∃ error, canonicalizeFrom rest replay = .error error) ∧
        (Conflicting (seen ++ rest) ∨ Overflowing (seen ++ rest))) := by
  induction rest generalizing replay seen with
  | nil => exact .inl ⟨replay, rfl, by simpa using of⟩
  | cons fact rest ih =>
      rcases replay.accept_spec fact of.consistent with
        ⟨next, accepted, accepts⟩ | ⟨⟨error, failed⟩, refuses⟩
      · have later : ∀ other ∈ seen, other.before fact := fun other otherMem =>
          (List.pairwise_append.mp sorted).2.2 other otherMem fact List.mem_cons_self
        have continued := ih (of.accept later accepts) (by simpa using sorted)
        have same : canonicalizeFrom (fact :: rest) replay = canonicalizeFrom rest next := by
          simp only [canonicalizeFrom, accepted]
          rfl
        rw [same]
        simpa using continued
      · right
        refine ⟨⟨error, ?_⟩, of.refused sorted refuses⟩
        simp only [canonicalizeFrom, failed]
        rfl

end Failures

section Arrival

variable {candidates shuffled : List ReplayFact}

theorem first_perm (perm : candidates.Perm shuffled) (fact : ReplayFact) :
    fact.First candidates ↔ fact.First shuffled := by
  simp only [ReplayFact.First, perm.mem_iff]

theorem conflicting_perm (perm : candidates.Perm shuffled) :
    Conflicting candidates ↔ Conflicting shuffled := by
  simp only [Conflicting, perm.mem_iff]

theorem overflowing_perm (perm : candidates.Perm shuffled) :
    Overflowing candidates ↔ Overflowing shuffled := by
  have same : retained candidates = retained shuffled := by
    ext fact
    rw [mem_retained, mem_retained, first_perm perm]
  rw [Overflowing, Overflowing, same, perm.length_eq]

/-- Facts the sort cannot tell apart are equal, unless their records conflict. -/
theorem ReplayFact.eq_of_before {left right : ReplayFact}
    (agrees : left.record.Agrees right.record) (before : left.before right)
    (after : right.before left) : left = right := by
  have sameKey := le_antisymm (ReplayFact.before_iff.mp before) (ReplayFact.before_iff.mp after)
  simp only [ReplayFact.sortKey, EmbeddingLike.apply_eq_iff_eq, Prod.mk.injEq,
    BitVec.toNat_inj] at sameKey
  rcases sameKey with ⟨-, sameId, sameSignature, observed, bytes⟩
  exact ReplayFact.eq_of_record (agrees.event sameId sameSignature) observed bytes

/-- Consistent facts have one order. -/
theorem sort_eq_of_perm (perm : candidates.Perm shuffled)
    (consistent : Consistent (candidates.map (·.record))) :
    candidates.insertionSort ReplayFact.before = shuffled.insertionSort ReplayFact.before := by
  have sameFacts := (List.perm_insertionSort ReplayFact.before candidates).trans
    (perm.trans (List.perm_insertionSort ReplayFact.before shuffled).symm)
  refine sameFacts.eq_of_pairwise ?_ (List.pairwise_insertionSort ReplayFact.before candidates)
    (List.pairwise_insertionSort ReplayFact.before shuffled)
  intro left right leftMem rightMem before after
  have leftCandidate := (List.mem_insertionSort ReplayFact.before).mp leftMem
  have rightCandidate := perm.mem_iff.mpr ((List.mem_insertionSort ReplayFact.before).mp rightMem)
  exact ReplayFact.eq_of_before (consistent _ (List.mem_map_of_mem leftCandidate) _
    (List.mem_map_of_mem rightCandidate)) before after

/-- Facts have a canonical replay, or they conflict or overflow. -/
theorem canonicalize_spec (candidates : List ReplayFact) :
    (∃ canonical, canonicalize candidates = .ok canonical ∧
        canonical.Of (candidates.insertionSort ReplayFact.before)) ∨
      ((∃ error, canonicalize candidates = .error error) ∧
        (Conflicting candidates ∨ Overflowing candidates)) := by
  have perm := List.perm_insertionSort ReplayFact.before candidates
  rw [← conflicting_perm perm, ← overflowing_perm perm]
  exact canonicalizeFrom_spec CanonicalReplay.of_empty
    (List.pairwise_insertionSort ReplayFact.before candidates)

theorem of_canonicalize {canonical : CanonicalReplay}
    (done : canonicalize candidates = .ok canonical) :
    canonical.Of (candidates.insertionSort ReplayFact.before) := by
  rcases canonicalize_spec candidates with ⟨other, made, of⟩ | ⟨⟨error, failed⟩, -⟩
  · rw [done] at made
    cases made
    exact of
  · rw [done] at failed
    cases failed

theorem consistent_of_canonicalize {canonical : CanonicalReplay}
    (done : canonicalize candidates = .ok canonical) :
    Consistent (candidates.map (·.record)) := by
  rw [← not_conflicting_iff,
    ← conflicting_perm (List.perm_insertionSort ReplayFact.before candidates), not_conflicting_iff]
  exact (of_canonicalize done).seen_consistent

/-- Consistent facts that can be counted have a canonical replay. -/
theorem canonicalize_of_consistent (consistent : Consistent (candidates.map (·.record)))
    (countable : ¬Overflowing candidates) :
    ∃ canonical, canonicalize candidates = .ok canonical := by
  rcases canonicalize_spec candidates with ⟨canonical, done, -⟩ | ⟨-, conflicting | overflowing⟩
  · exact ⟨canonical, done⟩
  · exact absurd conflicting (not_conflicting_iff.mpr consistent)
  · exact absurd overflowing countable

theorem canonicalize_perm (perm : candidates.Perm shuffled) {canonical : CanonicalReplay}
    (done : canonicalize candidates = .ok canonical) : canonicalize shuffled = .ok canonical := by
  rw [canonicalize, sort_eq_of_perm perm (consistent_of_canonicalize done)] at done
  exact done

/-- Facts within the bounds of a request can be counted. -/
theorem not_overflowing_of_bounds (few : candidates.length < 2 ^ 32)
    (small : (candidates.map (·.originalBytes)).sum < 2 ^ 64) : ¬Overflowing candidates := by
  rintro (many | large)
  · omega
  · have bounded : ∑ fact ∈ retained candidates, fact.originalBytes ≤
        (candidates.map (·.originalBytes)).sum :=
      calc ∑ fact ∈ retained candidates, fact.originalBytes
        _ ≤ ∑ fact ∈ candidates.toFinset, fact.originalBytes :=
            Finset.sum_le_sum_of_subset (Finset.filter_subset _ _)
        _ = (candidates.dedup.map (·.originalBytes)).sum := by
            rw [← List.sum_toFinset _ candidates.nodup_dedup]
            exact Finset.sum_congr (by ext; simp) fun _ _ => rfl
        _ ≤ (candidates.map (·.originalBytes)).sum :=
            (candidates.dedup_sublist.map _).sum_le_sum (by simp)
    omega

end Arrival

section Canonicalization

/-- Strictly earlier in the order of signed events. -/
def ReplayFact.Earlier (left right : ReplayFact) : Prop :=
  left.record.authoredAt < right.record.authoredAt ∨
    (left.record.authoredAt = right.record.authoredAt ∧
      (left.record.eventId < right.record.eventId ∨
        (left.record.eventId = right.record.eventId ∧
          left.record.eventSignature < right.record.eventSignature)))

theorem ReplayFact.earlier_of_before {left right : ReplayFact} (before : left.before right)
    (apart : ¬left.SameEvent right) : left.Earlier right := by
  rcases before with sooner | ⟨sameTime, smaller | ⟨sameId, lower | ⟨sameSignature, -⟩⟩⟩
  · exact .inl sooner
  · exact .inr ⟨sameTime, .inl smaller⟩
  · exact .inr ⟨sameTime, .inr ⟨sameId, lower⟩⟩
  · exact absurd ⟨sameId, sameSignature⟩ apart

/-- What a canonical replay tells about the observations it was made from. -/
structure CanonicalReplay.Canonical (candidates : List ReplayFact) (replay : CanonicalReplay) :
    Prop where
  increasing : replay.facts.Pairwise ReplayFact.Earlier
  first : ∀ fact, fact ∈ replay.facts ↔ fact.First candidates
  one : ∀ fact ∈ candidates, ∃! known, known ∈ replay.facts ∧ known.SameEvent fact
  count : replay.duplicateObservations + replay.facts.length = candidates.length
  bytes : replay.acceptedOriginalBytes = (replay.facts.map (·.originalBytes)).sum
  cursor : GreatestCursor replay.facts replay.cursorCandidate
  observed : EarliestObservation replay.facts replay.firstObservedAt
  mutations : ∀ left ∈ replay.facts, ∀ right ∈ replay.facts,
    left.record.mutationId = right.record.mutationId →
      left.record.mutationRow = right.record.mutationRow

theorem canonical_of_canonicalize {candidates : List ReplayFact} {canonical : CanonicalReplay}
    (done : canonicalize candidates = .ok canonical) : canonical.Canonical candidates := by
  have of := of_canonicalize done
  have sorted := List.pairwise_insertionSort ReplayFact.before candidates
  have perm := List.perm_insertionSort ReplayFact.before candidates
  exact {
    increasing := (of.distinct.and (sorted.sublist of.sublist)).imp fun ⟨apart, before⟩ =>
      ReplayFact.earlier_of_before before apart
    first := fun fact => (of.mem_iff_first fact).trans (first_perm perm fact)
    one := by
      intro fact factMem
      rcases of.represented fact (perm.mem_iff.mpr factMem) with ⟨known, knownMem, same, -⟩
      have sameEvent : known.SameEvent fact := ⟨by rw [same], by rw [same]⟩
      refine ⟨known, ⟨knownMem, sameEvent⟩, ?_⟩
      rintro other ⟨otherMem, otherSame⟩
      exact of.eq_of_sameEvent otherMem knownMem
        ⟨otherSame.1.trans sameEvent.1.symm, otherSame.2.trans sameEvent.2.symm⟩
    count := of.count.trans perm.length_eq
    bytes := of.bytes
    cursor := of.cursor
    observed := of.observed
    mutations := fun left leftMem right rightMem =>
      (of.consistent _ (List.mem_map_of_mem leftMem) _ (List.mem_map_of_mem rightMem)).mutation }

/-- The canonical replay of a list of observations depends on which they are, and it is missing
exactly when they conflict or overflow. -/
theorem canonicalization_order_independent (candidates : List ReplayFact) :
    (∀ shuffled, candidates.Perm shuffled → ∀ canonical,
      canonicalize candidates = .ok canonical ↔ canonicalize shuffled = .ok canonical) ∧
    (∀ canonical, canonicalize candidates = .ok canonical → canonical.Canonical candidates) ∧
    ((∃ error, canonicalize candidates = .error error) ↔
      Conflicting candidates ∨ Overflowing candidates) := by
  refine ⟨?_, fun canonical => canonical_of_canonicalize, ?_⟩
  · intro shuffled perm canonical
    exact ⟨canonicalize_perm perm, canonicalize_perm perm.symm⟩
  · constructor
    · rintro ⟨error, failed⟩
      rcases canonicalize_spec candidates with ⟨canonical, done, -⟩ | ⟨-, refused⟩
      · rw [failed] at done
        cases done
      · exact refused
    · intro refused
      rcases canonicalize_spec candidates with ⟨canonical, done, of⟩ | ⟨failed, -⟩
      · rcases refused with conflicting | overflowing
        · exact absurd conflicting (not_conflicting_iff.mpr (consistent_of_canonicalize done))
        · rw [← overflowing_perm (List.perm_insertionSort ReplayFact.before candidates)]
            at overflowing
          exact absurd overflowing of.not_overflowing
      · exact failed

end Canonicalization

end Rhi
