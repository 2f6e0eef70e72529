import Mathlib.Data.List.Forall2
import Rhi.Admission.Strings

/-!
# What the tag visitors measure

Each visitor is described by what is left of its sequence: with room for the rest it goes through
all of it, and otherwise it stops at the first item that has no place.  The room for elements passes
from tag to tag as what the limit leaves after the elements counted so far.
-/

namespace Rhi

open Json

section Meaning

/-- The bytes of some decoded strings. -/
def decodedSize (strings : List Text) : Nat := (strings.map fun text => (utf8 text).length).sum

@[simp] theorem decodedSize_nil : decodedSize [] = 0 := rfl

@[simp] theorem decodedSize_cons (text : Text) (strings : List Text) :
    decodedSize (text :: strings) = (utf8 text).length + decodedSize strings := rfl

variable (reader : JsonReader)

/-- The value is an array of well-formed strings. -/
def IsTag (raw : Text) (strings : List Text) : Prop :=
  ∃ elements, reader.array raw = .array elements ∧ List.Forall₂ Literal elements strings

/-- The value is an array of arrays of well-formed strings. -/
def IsTags (raw : Text) (tags : List (List Text)) : Prop :=
  ∃ elements, reader.array raw = .array elements ∧ List.Forall₂ (IsTag reader) elements tags

/-- The four limits of the tags of an event. -/
structure EventLimits.AllowTags (limits : EventLimits) (tags : List (List Text)) : Prop where
  count : tags.length ≤ limits.tagCount
  elements : (tags.map List.length).sum ≤ limits.tagTotalElements
  element_bytes : ∀ tag ∈ tags, ∀ text ∈ tag, (utf8 text).length ≤ limits.tagElementBytes
  bytes : (tags.map decodedSize).sum ≤ limits.tagTotalBytes

end Meaning

section Tag

theorem stringLength_eq_ok {maximum length : Nat} {raw : Text} :
    stringLength maximum raw = .ok length ↔
      ∃ text, Literal raw text ∧ (utf8 text).length ≤ maximum ∧ length = (utf8 text).length := by
  unfold stringLength
  cases decoded : decodedJsonStringUtf8Bytes raw with
  | none =>
      constructor
      · intro measured
        cases measured
      · rintro ⟨text, literal, -⟩
        have measured := (decoded_bytes_iff raw _).mpr ⟨text, literal, rfl⟩
        rw [decoded] at measured
        cases measured
  | some other =>
      have measures := decoded_bytes_iff raw
      rw [decoded] at measures
      dsimp only
      constructor
      · intro measured
        split at measured
        · cases measured
        · rename_i fits
          cases measured
          rcases (measures length).mp rfl with ⟨text, literal, same⟩
          exact ⟨text, literal, same ▸ Nat.not_lt.mp fits, same⟩
      · rintro ⟨text, literal, fits, rfl⟩
        have same := (measures _).mpr ⟨text, literal, rfl⟩
        cases same
        rw [if_neg (Nat.not_lt.mpr fits)]

/-- What the visit of the rest of a tag comes to. -/
structure TagVisited (maximumElements maximumElementBytes : Nat) (sequence : List Text)
    (result : Measurement) (progress : Progress)
    (visited : Progress × Except JsonError Measurement) : Prop where
  measured : ∀ measurement, visited.2 = .ok measurement ↔
    ∃ strings, List.Forall₂ Literal sequence strings ∧
      result.elements + sequence.length ≤ maximumElements ∧
      (∀ text ∈ strings, (utf8 text).length ≤ maximumElementBytes) ∧
      measurement = ⟨result.count, result.elements + sequence.length,
        result.bytes + decodedSize strings⟩
  tags : visited.1.tags = progress.tags
  decoded : visited.1.elements + result.elements ≤ progress.elements + maximumElements
  counted : ∀ measurement, visited.2 = .ok measurement →
    visited.1.elements + result.elements = progress.elements + measurement.elements

/-- With nothing left the visit ends with what it has counted. -/
theorem TagVisited.of_nil {maximumElements maximumElementBytes : Nat} {result : Measurement}
    (fits : result.elements ≤ maximumElements) (progress : Progress) :
    TagVisited maximumElements maximumElementBytes [] result progress (progress, .ok result) where
  measured measurement := by
    constructor
    · rintro ⟨⟩
      exact ⟨[], .nil, fits, by simp, rfl⟩
    · rintro ⟨strings, literals, -, -, rfl⟩
      cases literals
      rfl
  tags := rfl
  decoded := Nat.add_le_add_left fits _
  counted measurement same := by
    cases same
    rfl

theorem visitTag_spec {maximumElements maximumElementBytes : Nat} (sequence : List Text)
    {result : Measurement} (fits : result.elements ≤ maximumElements) (progress : Progress) :
    TagVisited maximumElements maximumElementBytes sequence result progress
      (visitTag maximumElements maximumElementBytes sequence result progress) := by
  induction sequence generalizing result progress with
  | nil =>
      rw [visitTag]
      split <;> exact .of_nil fits progress
  | cons raw rest ih =>
      rw [visitTag]
      by_cases room : result.elements < maximumElements
      · simp only [room, if_true]
        cases length : stringLength maximumElementBytes raw with
        | error error =>
            dsimp only
            refine ⟨?_, rfl, by dsimp only; omega, nofun⟩
            intro measurement
            constructor
            · nofun
            · rintro ⟨strings, literals, -, small, -⟩
              cases literals with
              | cons literal _ =>
                  have measured := stringLength_eq_ok.mpr
                    ⟨_, literal, small _ List.mem_cons_self, rfl⟩
                  rw [length] at measured
                  cases measured
        | ok bytes =>
            rcases stringLength_eq_ok.mp length with ⟨text, literal, small, rfl⟩
            have visited : TagVisited maximumElements maximumElementBytes rest
                { result with
                  elements := result.elements + 1, bytes := result.bytes + (utf8 text).length }
                { progress with elements := progress.elements + 1 } _ := ih (by exact room) _
            dsimp only at visited ⊢
            refine ⟨?_, visited.tags, ?_, ?_⟩
            · intro measurement
              rw [visited.measured]
              simp only [List.length_cons, Nat.add_assoc, Nat.add_comm 1]
              constructor
              · rintro ⟨strings, literals, few, bounded, rfl⟩
                exact ⟨text :: strings, .cons literal literals, few,
                  List.forall_mem_cons.mpr ⟨small, bounded⟩, rfl⟩
              · rintro ⟨strings, literals, few, bounded, rfl⟩
                cases literals with
                | @cons _ other _ others otherLiteral literals =>
                    rcases List.forall_mem_cons.mp bounded with ⟨otherSmall, bounded⟩
                    have measured := stringLength_eq_ok.mpr ⟨other, otherLiteral, otherSmall, rfl⟩
                    rw [length, Except.ok.injEq] at measured
                    refine ⟨others, literals, few, bounded, ?_⟩
                    rw [decodedSize_cons, measured]
            · have decoded := visited.decoded
              dsimp only at decoded
              omega
            · intro measurement measured
              have counted := visited.counted measurement measured
              dsimp only at counted
              omega
      · simp only [room, if_false]
        refine ⟨?_, rfl, by dsimp only; omega, nofun⟩
        intro measurement
        constructor
        · nofun
        · rintro ⟨strings, literals, bounded, -⟩
          rw [List.length_cons] at bounded
          omega

/-- What the reading of a tag comes to. -/
structure TagRead (reader : JsonReader) (maximumElements maximumElementBytes : Nat) (raw : Text)
    (progress : Progress) (visited : Progress × Except JsonError Measurement) : Prop where
  measured : ∀ measurement, visited.2 = .ok measurement ↔
    ∃ strings, IsTag reader raw strings ∧ strings.length ≤ maximumElements ∧
      (∀ text ∈ strings, (utf8 text).length ≤ maximumElementBytes) ∧
      measurement = ⟨1, strings.length, decodedSize strings⟩
  tags : visited.1.tags = progress.tags
  decoded : visited.1.elements ≤ progress.elements + maximumElements
  counted : ∀ measurement, visited.2 = .ok measurement →
    visited.1.elements = progress.elements + measurement.elements

theorem readTag_spec (reader : JsonReader) (maximumElements maximumElementBytes : Nat) (raw : Text)
    (progress : Progress) :
    TagRead reader maximumElements maximumElementBytes raw progress
      (readTag reader maximumElements maximumElementBytes raw progress) := by
  unfold readTag
  cases view : reader.array raw with
  | mismatch unexpected =>
      refine ⟨?_, rfl, Nat.le_add_right _ _, nofun⟩
      intro measurement
      constructor
      · nofun
      · rintro ⟨strings, ⟨elements, isArray, -⟩, -⟩
        rw [view] at isArray
        cases isArray
  | array elements =>
      have visited : TagVisited maximumElements maximumElementBytes elements ⟨1, 0, 0⟩ progress _ :=
        visitTag_spec elements (Nat.zero_le maximumElements) progress
      refine ⟨?_, visited.tags, visited.decoded, visited.counted⟩
      intro measurement
      rw [visited.measured]
      simp only [Nat.zero_add]
      constructor
      · rintro ⟨strings, literals, few, small, rfl⟩
        have same := literals.length_eq
        exact ⟨strings, ⟨elements, view, literals⟩, same ▸ few, small, by rw [same]⟩
      · rintro ⟨strings, ⟨others, isArray, literals⟩, few, small, rfl⟩
        rw [view] at isArray
        cases isArray
        have same := literals.length_eq
        exact ⟨strings, literals, same ▸ few, small, by rw [same]⟩

end Tag

section Tags

variable {reader : JsonReader} {limits : EventLimits}

/-- What the visit of the rest of the tags comes to. -/
structure TagsVisited (reader : JsonReader) (limits : EventLimits) (sequence : List Text)
    (result : Measurement) (progress : Progress)
    (visited : Progress × Except JsonError Measurement) : Prop where
  measured : ∀ measurement, visited.2 = .ok measurement ↔
    ∃ tags, List.Forall₂ (IsTag reader) sequence tags ∧
      result.count + tags.length ≤ limits.tagCount ∧
      result.elements + (tags.map List.length).sum ≤ limits.tagTotalElements ∧
      (∀ tag ∈ tags, ∀ text ∈ tag, (utf8 text).length ≤ limits.tagElementBytes) ∧
      result.bytes + (tags.map decodedSize).sum ≤ limits.tagTotalBytes ∧
      measurement = ⟨result.count + tags.length, result.elements + (tags.map List.length).sum,
        result.bytes + (tags.map decodedSize).sum⟩
  tags : visited.1.tags + result.count ≤ progress.tags + limits.tagCount + 1
  decoded : visited.1.elements + result.elements ≤ progress.elements + limits.tagTotalElements

/-- What has been counted is within the limits. -/
structure Measurement.Within (result : Measurement) (limits : EventLimits) : Prop where
  count : result.count ≤ limits.tagCount
  elements : result.elements ≤ limits.tagTotalElements
  bytes : result.bytes ≤ limits.tagTotalBytes

theorem TagsVisited.of_nil {result : Measurement} (within : result.Within limits)
    (progress : Progress) :
    TagsVisited reader limits [] result progress (progress, .ok result) where
  measured measurement := by
    constructor
    · rintro ⟨⟩
      exact ⟨[], .nil, within.count, within.elements, by simp, within.bytes, rfl⟩
    · rintro ⟨tags, isTags, -, -, -, -, rfl⟩
      cases isTags
      rfl
  tags := by
    have count := within.count
    dsimp only
    omega
  decoded := Nat.add_le_add_left within.elements _

/-- A visit that stops at a tag has no measurement, if the tags cannot be within the limits. -/
theorem TagsVisited.of_stop {raw : Text} {rest : List Text} {result : Measurement}
    {progress after : Progress} {error : JsonError}
    (refused : ∀ strings others, IsTag reader raw strings →
      List.Forall₂ (IsTag reader) rest others →
      result.count + (others.length + 1) ≤ limits.tagCount →
      result.elements + (strings.length + (others.map List.length).sum) ≤ limits.tagTotalElements →
      (∀ text ∈ strings, (utf8 text).length ≤ limits.tagElementBytes) →
      ¬result.bytes + (decodedSize strings + (others.map decodedSize).sum) ≤ limits.tagTotalBytes)
    (tags : after.tags + result.count ≤ progress.tags + limits.tagCount + 1)
    (decoded : after.elements + result.elements ≤ progress.elements + limits.tagTotalElements) :
    TagsVisited reader limits (raw :: rest) result progress (after, .error error) where
  measured measurement := by
    constructor
    · nofun
    · rintro ⟨tagList, isTags, count, elements, small, bytes, -⟩
      cases isTags with
      | @cons _ strings _ others isTag isTags =>
          exact absurd bytes (refused strings others isTag isTags count elements
            (small strings List.mem_cons_self))
  tags
  decoded

theorem visitTags_spec (sequence : List Text) {result : Measurement}
    (within : result.Within limits) (progress : Progress) :
    TagsVisited reader limits sequence result progress
      (visitTags reader limits sequence result progress) := by
  induction sequence generalizing result progress with
  | nil =>
      rw [visitTags]
      split
      · rw [if_neg (Nat.not_lt.mpr within.elements)]
        exact .of_nil within progress
      · exact .of_nil within progress
  | cons raw rest ih =>
      have count := within.count
      have elements := within.elements
      rw [visitTags]
      by_cases room : result.count < limits.tagCount
      · rw [if_pos room, if_neg (Nat.not_lt.mpr within.elements)]
        dsimp only
        have read := readTag_spec reader (limits.tagTotalElements - result.elements)
          limits.tagElementBytes raw { progress with tags := progress.tags + 1 }
        cases outcome : readTag reader (limits.tagTotalElements - result.elements)
            limits.tagElementBytes raw { progress with tags := progress.tags + 1 } with
        | mk after measured =>
            rw [outcome] at read
            have sameTags := read.tags
            have decoded := read.decoded
            dsimp only at sameTags decoded
            cases measured with
            | error error =>
                refine .of_stop ?_ (by omega) (by omega)
                intro strings others isTag _ _ few small _
                have measured := (read.measured ⟨1, strings.length, decodedSize strings⟩).mpr
                  ⟨strings, isTag, by omega, small, rfl⟩
                cases measured
            | ok tag =>
                have counted := read.counted tag rfl
                dsimp only at counted
                -- However the tag is read, it has the measurement of this reading.
                have sameTag : ∀ strings, IsTag reader raw strings →
                    result.elements + strings.length ≤ limits.tagTotalElements →
                    (∀ text ∈ strings, (utf8 text).length ≤ limits.tagElementBytes) →
                    tag = ⟨1, strings.length, decodedSize strings⟩ := by
                  intro strings isTag few small
                  have measured := (read.measured _).mpr
                    ⟨strings, isTag, Nat.le_sub_of_add_le' few, small, rfl⟩
                  exact Except.ok.inj measured
                rcases (read.measured tag).mp rfl with ⟨strings, isTag, few, small, rfl⟩
                dsimp only at counted ⊢
                split
                · rename_i exceeded
                  refine .of_stop ?_ (by omega) (by omega)
                  intro others later otherIsTag _ _ otherFew otherSmall fits
                  have same := congrArg Measurement.bytes (sameTag others otherIsTag (by omega)
                    otherSmall)
                  dsimp only at same
                  omega
                · rename_i fits
                  have next : Measurement.Within ⟨result.count + 1,
                      result.elements + strings.length, result.bytes + decodedSize strings⟩
                      limits :=
                    ⟨room, by dsimp only; omega, Nat.not_lt.mp fits⟩
                  have visited := ih next after
                  have visitedTags := visited.tags
                  have visitedDecoded := visited.decoded
                  dsimp only at visitedTags visitedDecoded
                  refine ⟨?_, by omega, by omega⟩
                  intro measurement
                  rw [visited.measured]
                  constructor
                  · rintro ⟨later, isTags, count, elements, laterSmall, bytes, rfl⟩
                    dsimp only at count elements bytes
                    refine ⟨strings :: later, .cons isTag isTags, ?_, ?_,
                      List.forall_mem_cons.mpr ⟨small, laterSmall⟩, ?_, ?_⟩
                    · rw [List.length_cons]
                      omega
                    · rw [List.map_cons, List.sum_cons]
                      omega
                    · rw [List.map_cons, List.sum_cons]
                      omega
                    · simp only [List.length_cons, List.map_cons, List.sum_cons,
                        Measurement.mk.injEq]
                      omega
                  · rintro ⟨tags, isTags, count, elements, allSmall, bytes, rfl⟩
                    cases isTags with
                    | @cons _ others _ later otherIsTag isTags =>
                        rcases List.forall_mem_cons.mp allSmall with ⟨otherSmall, laterSmall⟩
                        rw [List.map_cons, List.sum_cons] at elements bytes
                        rw [List.length_cons] at count ⊢
                        rw [List.map_cons, List.sum_cons, List.map_cons, List.sum_cons]
                        have same := sameTag others otherIsTag (by omega) otherSmall
                        rw [Measurement.mk.injEq] at same
                        refine ⟨later, isTags, ?_, ?_, laterSmall, ?_, ?_⟩
                        · dsimp only
                          omega
                        · dsimp only
                          omega
                        · dsimp only
                          omega
                        · simp only [Measurement.mk.injEq]
                          omega
      · rw [if_neg room]
        refine .of_stop ?_ (by dsimp only; omega) (by dsimp only; omega)
        intro strings others _ _ bounded
        omega

/-- Tags are measured exactly when they are an array of arrays of well-formed strings within the
four limits, by what they are.  Measured or not, no more than one tag beyond the limit has been
visited, and no more elements than the limit have been decoded. -/
theorem tags_measured_exactly (reader : JsonReader) (limits : EventLimits) (raw : Text) :
    (∀ measurement, (measureTags reader limits raw).2 = .ok measurement ↔
      ∃ tags, IsTags reader raw tags ∧ limits.AllowTags tags ∧
        measurement = ⟨tags.length, (tags.map List.length).sum, (tags.map decodedSize).sum⟩) ∧
      (measureTags reader limits raw).1.tags ≤ limits.tagCount + 1 ∧
      (measureTags reader limits raw).1.elements ≤ limits.tagTotalElements := by
  have classified : ∀ (measured : Except JsonError Measurement) measurement,
      measured.mapError classifyTagError = .ok measurement ↔ measured = .ok measurement := by
    intro measured measurement
    cases measured <;> simp [Except.mapError]
  unfold measureTags readTags
  cases view : reader.array raw with
  | mismatch unexpected =>
      refine ⟨?_, Nat.zero_le _, Nat.zero_le _⟩
      intro measurement
      constructor
      · nofun
      · rintro ⟨tags, ⟨elements, isArray, -⟩, -⟩
        rw [view] at isArray
        cases isArray
  | array elements =>
      have visited : TagsVisited reader limits elements ⟨0, 0, 0⟩ ⟨0, 0⟩ _ :=
        visitTags_spec elements ⟨Nat.zero_le _, Nat.zero_le _, Nat.zero_le _⟩ ⟨0, 0⟩
      have visitedTags := visited.tags
      have visitedDecoded := visited.decoded
      dsimp only at visitedTags visitedDecoded ⊢
      refine ⟨?_, by omega, by omega⟩
      intro measurement
      rw [classified, visited.measured]
      simp only [Nat.zero_add]
      constructor
      · rintro ⟨tags, isTags, count, total, small, bytes, rfl⟩
        exact ⟨tags, ⟨elements, view, isTags⟩, ⟨count, total, small, bytes⟩, rfl⟩
      · rintro ⟨tags, ⟨others, isArray, isTags⟩, allowed, rfl⟩
        rw [view] at isArray
        cases isArray
        exact ⟨tags, isTags, allowed.count, allowed.elements, allowed.element_bytes, allowed.bytes,
          rfl⟩

end Tags

end Rhi
