import Rhi.Admission.Tags

/-!
# Which input misleads the classification

The class of a failure is read off its message.  A message made of a sentinel has the class of the
sentinel, and a message about malformed text has none.  The message about a value of another type
quotes the value, so that its class depends on what the text says: a reader that quotes nothing
would report the value as malformed.
-/

namespace Rhi

open Json Transactional

section Messages

@[simp] theorem message_custom (message : Text) :
    (JsonError.custom message).message = message := rfl

@[simp] theorem message_invalidType (unexpected expected : Text) :
    (JsonError.invalidType unexpected expected).message =
      "invalid type: ".toList ++ unexpected ++ ", expected ".toList ++ expected := rfl

@[simp] theorem message_malformed (malformation : Malformation) :
    (JsonError.malformed malformation).message = malformation.message := rfl

/-- What contains no separator is within a text exactly when it is within one of its sides. -/
theorem infix_append_cons {sentinel left right : Text} {separator : Char}
    (absent : separator ∉ sentinel) :
    sentinel <:+: left ++ separator :: right ↔ sentinel <:+: left ∨ sentinel <:+: right := by
  constructor
  · rintro ⟨front, back, split⟩
    rw [List.append_assoc] at split
    rcases List.append_eq_append_iff.mp split with ⟨taken, leftSplit, rest⟩ |
      ⟨taken, frontSplit, rest⟩
    · rcases List.append_eq_append_iff.mp rest with ⟨later, inside, -⟩ | ⟨more, sentinelSplit, tail⟩
      · exact .inl ⟨front, later, by rw [leftSplit, inside, List.append_assoc]⟩
      · cases more with
        | nil => exact .inl ⟨front, [], by simp [leftSplit, sentinelSplit]⟩
        | cons first others =>
            rcases List.cons.inj tail with ⟨rfl, -⟩
            exact absurd (by simp [sentinelSplit]) absent
    · cases taken with
      | nil =>
          cases sentinel with
          | nil => exact .inl (List.nil_infix)
          | cons first others =>
              rcases List.cons.inj rest with ⟨rfl, -⟩
              exact absurd List.mem_cons_self absent
      | cons first others =>
          rcases List.cons.inj rest with ⟨-, tail⟩
          exact .inr ⟨others, back, (List.append_assoc _ _ _).trans tail.symm⟩
  · rintro (⟨front, back, rfl⟩ | ⟨front, back, rfl⟩)
    · exact ⟨front, back ++ separator :: right, by simp⟩
    · exact ⟨left ++ separator :: front, back, by simp⟩

/-- What the visitors expect, as far as a value of another type can be quoted. -/
def expectations : List Text :=
  ["a bounded NIP-01 event object".toList, "a bounded array of Nostr tags".toList,
    "a bounded Nostr tag".toList]

theorem sentinel_apart {sentinel : Text} (known : sentinel ∈ wireSentinels ++ tagSentinels) :
    ' ' ∉ sentinel ∧ ',' ∉ sentinel ∧ ¬sentinel <:+: "invalid type:".toList ∧
      ∀ expected ∈ expectations, ¬sentinel <:+: " expected ".toList ++ expected := by
  have every : ∀ sentinel ∈ wireSentinels ++ tagSentinels,
      ' ' ∉ sentinel ∧ ',' ∉ sentinel ∧ ¬sentinel <:+: "invalid type:".toList ∧
        ∀ expected ∈ expectations, ¬sentinel <:+: " expected ".toList ++ expected := by
    decide
  exact every sentinel known

theorem separated {first last front back : Text} (firstSplit : first = front ++ [' '])
    (lastSplit : last = ',' :: back) (unexpected expected : Text) :
    first ++ unexpected ++ last ++ expected =
      front ++ ' ' :: (unexpected ++ ',' :: (back ++ expected)) := by
  subst firstSplit
  subst lastSplit
  simp only [List.append_assoc, List.cons_append, List.nil_append]

/-- A message about a value of another type contains a sentinel exactly when the description of the
value does. -/
theorem contains_invalidType {sentinel unexpected expected : Text}
    (known : sentinel ∈ wireSentinels ++ tagSentinels) (visitor : expected ∈ expectations) :
    (JsonError.invalidType unexpected expected).message.contains sentinel =
      unexpected.contains sentinel := by
  rcases sentinel_apart known with ⟨noBlank, noComma, notFirst, notExpected⟩
  have split : (JsonError.invalidType unexpected expected).message =
      "invalid type:".toList ++
      ' ' :: (unexpected ++ ',' :: (" expected ".toList ++ expected)) := by
    have first : "invalid type: ".toList = "invalid type:".toList ++ [' '] := rfl
    have last : ", expected ".toList = ',' :: " expected ".toList := rfl
    exact (message_invalidType unexpected expected).trans
      (separated first last unexpected expected)
  unfold Text.contains
  rw [split, decide_eq_decide, infix_append_cons noBlank, infix_append_cons noComma]
  constructor
  · rintro (inFirst | inside | inExpected)
    · exact absurd inFirst notFirst
    · exact inside
    · exact absurd inExpected (notExpected expected visitor)
  · exact fun inside => .inr (.inl inside)

/-- The description of a value carries one of the sentinels. -/
def Text.Quotes (unexpected : Text) (sentinels : List Text) : Prop :=
  ∃ sentinel ∈ sentinels, unexpected.contains sentinel = true

theorem classifyWire_invalidType {unexpected expected : Text} (visitor : expected ∈ expectations) :
    classifyWirePreflightError (.invalidType unexpected expected) = .malformedEvent ↔
      ¬unexpected.Quotes wireSentinels := by
  have reads : ∀ sentinel ∈ wireSentinels,
      (JsonError.invalidType unexpected expected).message.contains sentinel =
        unexpected.contains sentinel :=
    fun sentinel known => contains_invalidType (List.mem_append_left _ known) visitor
  simp only [wireSentinels, List.forall_mem_cons] at reads
  simp only [classifyWirePreflightError, reads, Text.Quotes, wireSentinels,
    List.exists_mem_cons_iff, List.not_mem_nil, false_and, exists_false, or_false]
  grind

theorem classifyTag_invalidType {unexpected expected : Text} (visitor : expected ∈ expectations) :
    classifyTagError (.invalidType unexpected expected) = .malformedEvent ↔
      ¬unexpected.Quotes tagSentinels := by
  have reads : ∀ sentinel ∈ tagSentinels,
      (JsonError.invalidType unexpected expected).message.contains sentinel =
        unexpected.contains sentinel :=
    fun sentinel known => contains_invalidType (List.mem_append_right _ known) visitor
  simp only [tagSentinels, List.forall_mem_cons] at reads
  simp only [classifyTagError, reads, Text.Quotes, tagSentinels, List.exists_mem_cons_iff,
    List.not_mem_nil, false_and, exists_false, or_false]
  grind

theorem nil_not_quotes {sentinels : List Text}
    (known : sentinels ⊆ wireSentinels ++ tagSentinels) : ¬Text.Quotes [] sentinels := by
  rintro ⟨sentinel, member, contained⟩
  have nonempty : sentinel ≠ [] := by
    have every : ∀ sentinel ∈ wireSentinels ++ tagSentinels, sentinel ≠ [] := by
      decide
    exact every sentinel (known member)
  exact nonempty (List.infix_nil.mp (of_decide_eq_true contained))

theorem classifyWire_malformed (malformation : Malformation) :
    classifyWirePreflightError (.malformed malformation) = .malformedEvent := by
  have quiet := List.forall_mem_append.mp malformation.quiet
  have wire := quiet.1
  simp only [wireSentinels, List.forall_mem_cons] at wire
  simp only [classifyWirePreflightError, message_malformed, wire.1, wire.2.1, wire.2.2.1,
    Bool.false_eq_true, if_false]

end Messages

section Members

/-- The keys that are read of an object, up to its end or to where its text is malformed. -/
def Members.keys : Members → List Text
  | .close => []
  | .broken _ => []
  | .cut key _ => [key]
  | .entry key _ rest => key :: rest.keys

/-- The fields that are read of an object. -/
def Members.entries : Members → List (Text × Text)
  | .close => []
  | .broken _ => []
  | .cut _ _ => []
  | .entry key value rest => (key, value) :: rest.entries

/-- The object ends. -/
def Members.Closed : Members → Prop
  | .close => True
  | .broken _ => False
  | .cut _ _ => False
  | .entry _ _ rest => rest.Closed

/-- The fields that are not an event's own. -/
def extraFields (entries : List (Text × Text)) : List (Text × Text) :=
  entries.filter fun entry => decide (entry.1 ∉ eventFields)

/-- The fields of an event. -/
def ownFields (entries : List (Text × Text)) : List (Text × Text) :=
  entries.filter fun entry => decide (entry.1 ∈ eventFields)

/-- The bytes of the extra fields. -/
def extraSize (entries : List (Text × Text)) : Nat :=
  ((extraFields entries).map fun entry => extraFieldBytes entry.1 entry.2).sum

/-- The slots after some fields. -/
structure EventSlots.Hold (slots : EventSlots) (limits : EventLimits)
    (seen : List (Text × Text)) : Prop where
  fields : slots.fields = ownFields seen
  extras : slots.extras = (extraFields seen).map Prod.fst
  bytes : slots.extraBytes = extraSize seen
  distinct : (seen.map Prod.fst).Nodup
  few : (extraFields seen).length ≤ limits.extraFields
  small : extraSize seen ≤ limits.extraJsonBytes

/-- What can end the reading of the fields. -/
inductive MembersFail (limits : EventLimits) (keys : List Text) (entries : List (Text × Text))
    (closed : Prop) : JsonError → Prop where
  | duplicate :
      ¬keys.Nodup → MembersFail limits keys entries closed (.custom duplicateFieldSentinel)
  | extraCount (extras : List Text) : extras.Nodup →
      (∀ key ∈ extras, key ∈ keys ∧ key ∉ eventFields) → limits.extraFields < extras.length →
      MembersFail limits keys entries closed (.custom extraCountSentinel)
  | extraBytes : limits.extraJsonBytes < extraSize entries →
      MembersFail limits keys entries closed (.custom extraBytesSentinel)
  | malformed (malformation : Malformation) : ¬closed →
      MembersFail limits keys entries closed (.malformed malformation)

variable {limits : EventLimits} {slots : EventSlots} {seen : List (Text × Text)}

theorem extraFields_append (left right : List (Text × Text)) :
    extraFields (left ++ right) = extraFields left ++ extraFields right :=
  List.filter_append left right

theorem extraSize_append (left right : List (Text × Text)) :
    extraSize (left ++ right) = extraSize left + extraSize right := by
  simp only [extraSize, extraFields_append, List.map_append, List.sum_append]

theorem keys_of_closed {members : Members} (closed : members.Closed) :
    members.keys = members.entries.map Prod.fst := by
  induction members with
  | close => rfl
  | broken => cases closed
  | cut => cases closed
  | entry key value rest ih =>
      simp only [Members.keys, Members.entries, List.map_cons, ih closed]

theorem mem_ownFields {entries : List (Text × Text)} {entry : Text × Text} :
    entry ∈ ownFields entries ↔ entry ∈ entries ∧ entry.1 ∈ eventFields := by
  simp only [ownFields, List.mem_filter, decide_eq_true_eq]

theorem mem_extraFields {entries : List (Text × Text)} {entry : Text × Text} :
    entry ∈ extraFields entries ↔ entry ∈ entries ∧ entry.1 ∉ eventFields := by
  simp only [extraFields, List.mem_filter, decide_eq_true_eq]

/-- The slots after a further key. -/
structure EventSlots.Entered (slots : EventSlots) (limits : EventLimits) (seen : List (Text × Text))
    (key : Text) : Prop where
  fields : slots.fields = ownFields seen
  extras : slots.extras = (extraFields seen).map Prod.fst ++ if key ∈ eventFields then [] else [key]
  bytes : slots.extraBytes = extraSize seen
  distinct : (seen.map Prod.fst).Nodup
  few : (extraFields seen).length + (if key ∈ eventFields then 0 else 1) ≤ limits.extraFields
  small : extraSize seen ≤ limits.extraJsonBytes
  fresh : key ∉ seen.map Prod.fst

/-- A key is entered unless it repeats an earlier one or is one extra field too many. -/
theorem enter_cases (hold : slots.Hold limits seen) (key : Text) :
    (∃ entered, slots.enter limits key = .ok entered ∧ entered.Entered limits seen key) ∨
      (slots.enter limits key = .error (.custom duplicateFieldSentinel) ∧
        key ∈ seen.map Prod.fst) ∨
      (slots.enter limits key = .error (.custom extraCountSentinel) ∧ key ∉ eventFields ∧
        key ∉ seen.map Prod.fst ∧ limits.extraFields < (extraFields seen).length + 1) := by
  by_cases own : key ∈ eventFields
  · have known : key ∈ slots.fields.map Prod.fst ↔ key ∈ seen.map Prod.fst := by
      simp only [hold.fields, List.mem_map, mem_ownFields]
      constructor
      · rintro ⟨entry, ⟨entryMem, -⟩, same⟩
        exact ⟨entry, entryMem, same⟩
      · rintro ⟨entry, entryMem, rfl⟩
        exact ⟨entry, ⟨entryMem, own⟩, rfl⟩
    simp only [EventSlots.enter, own, if_true, known]
    by_cases repeated : key ∈ seen.map Prod.fst
    · exact .inr (.inl ⟨if_pos repeated, repeated⟩)
    · refine .inl ⟨slots, if_neg repeated, ?_⟩
      exact {
        fields := hold.fields, extras := by simp [hold.extras, own], bytes := hold.bytes
        distinct := hold.distinct, few := by simp [own, hold.few], small := hold.small
        fresh := repeated }
  · have known : key ∈ slots.extras ↔ key ∈ seen.map Prod.fst := by
      simp only [hold.extras, List.mem_map, mem_extraFields]
      constructor
      · rintro ⟨entry, ⟨entryMem, -⟩, same⟩
        exact ⟨entry, entryMem, same⟩
      · rintro ⟨entry, entryMem, rfl⟩
        exact ⟨entry, ⟨entryMem, own⟩, rfl⟩
    have length : (slots.extras ++ [key]).length = (extraFields seen).length + 1 := by
      simp [hold.extras]
    simp only [EventSlots.enter, own, if_false, known, length]
    by_cases repeated : key ∈ seen.map Prod.fst
    · exact .inr (.inl ⟨if_pos repeated, repeated⟩)
    · rw [if_neg repeated]
      by_cases many : limits.extraFields < (extraFields seen).length + 1
      · exact .inr (.inr ⟨if_pos many, not_false, repeated, many⟩)
      · refine .inl ⟨_, if_neg many, ?_⟩
        exact {
          fields := hold.fields, extras := by simp [hold.extras, own], bytes := hold.bytes
          distinct := hold.distinct, few := by simp [own]; omega, small := hold.small
          fresh := repeated }

/-- A value is taken unless it is an extra one that makes them too large. -/
theorem fill_cases {key : Text} (entered : slots.Entered limits seen key) (value : Text) :
    (∃ filled, slots.fill limits key value = .ok filled ∧
      filled.Hold limits (seen ++ [(key, value)])) ∨
      (slots.fill limits key value = .error (.custom extraBytesSentinel) ∧
        limits.extraJsonBytes < extraSize (seen ++ [(key, value)])) := by
  have distinct : ((seen ++ [(key, value)]).map Prod.fst).Nodup := by
    rw [List.map_append, List.map_singleton, List.nodup_append]
    refine ⟨entered.distinct, List.nodup_singleton _, ?_⟩
    intro known knownMem other otherMem same
    rw [List.mem_singleton.mp otherMem] at same
    subst same
    exact entered.fresh knownMem
  have ownAppend :
      ownFields (seen ++ [(key, value)]) = ownFields seen ++ ownFields [(key, value)] :=
    List.filter_append _ _
  by_cases own : key ∈ eventFields
  · have ownOne : ownFields [(key, value)] = [(key, value)] := by simp [ownFields, own]
    have extraOne : extraFields [(key, value)] = [] := by simp [extraFields, own]
    have sizeOne : extraSize [(key, value)] = 0 := by simp [extraSize, extraOne]
    refine .inl ⟨_, if_pos own, ?_⟩
    have few := entered.few
    have extras := entered.extras
    rw [if_pos own] at few extras
    exact {
      fields := by rw [ownAppend, ownOne, entered.fields]
      extras := by rw [extraFields_append, extraOne, List.append_nil, extras, List.append_nil]
      bytes := by rw [extraSize_append, sizeOne, Nat.add_zero, entered.bytes]
      distinct
      few := by rw [extraFields_append, extraOne, List.append_nil]; exact few
      small := by rw [extraSize_append, sizeOne, Nat.add_zero]; exact entered.small }
  · have ownOne : ownFields [(key, value)] = [] := by simp [ownFields, own]
    have extraOne : extraFields [(key, value)] = [(key, value)] := by simp [extraFields, own]
    have sizeOne : extraSize [(key, value)] = extraFieldBytes key value := by
      simp [extraSize, extraOne]
    have few := entered.few
    have extras := entered.extras
    rw [if_neg own] at few extras
    have size :
        extraSize (seen ++ [(key, value)]) = slots.extraBytes + extraFieldBytes key value := by
      rw [extraSize_append, sizeOne, entered.bytes]
    simp only [EventSlots.fill, own, if_false, size]
    by_cases large : limits.extraJsonBytes < slots.extraBytes + extraFieldBytes key value
    · exact .inr ⟨if_pos large, large⟩
    · refine .inl ⟨_, if_neg large, ?_⟩
      exact {
        fields := by rw [ownAppend, ownOne, List.append_nil]; exact entered.fields
        extras := by rw [extraFields_append, extraOne, List.map_append]; exact extras
        bytes := size.symm
        distinct
        few := by rw [extraFields_append, extraOne, List.length_append]; exact few
        small := size ▸ Nat.not_lt.mp large }

/-- Why a key is not entered, whatever follows it. -/
theorem fail_of_enter (hold : slots.Hold limits seen) {key : Text} {error : JsonError}
    (failed : slots.enter limits key = .error error) (more : List Text)
    (entries : List (Text × Text)) (closed : Prop) :
    MembersFail limits (seen.map Prod.fst ++ key :: more) entries closed error := by
  rcases enter_cases hold key with ⟨entered, done, -⟩ | ⟨refused, repeated⟩ |
    ⟨refused, extra, fresh, many⟩
  · rw [done] at failed
    cases failed
  · rw [refused] at failed
    cases failed
    refine .duplicate ?_
    intro distinct
    rw [List.nodup_append] at distinct
    exact distinct.2.2 key repeated key List.mem_cons_self rfl
  · rw [refused] at failed
    cases failed
    refine .extraCount ((extraFields seen).map Prod.fst ++ [key]) ?_ ?_ ?_
    · rw [List.nodup_append]
      refine ⟨(List.filter_sublist.map Prod.fst).nodup hold.distinct, List.nodup_singleton _, ?_⟩
      intro known knownMem other otherMem same
      rw [List.mem_singleton.mp otherMem] at same
      subst same
      rcases List.mem_map.mp knownMem with ⟨entry, entryMem, same⟩
      exact fresh (List.mem_map.mpr ⟨entry, (mem_extraFields.mp entryMem).1, same⟩)
    · intro known knownMem
      rcases List.mem_append.mp knownMem with earlier | same
      · rcases List.mem_map.mp earlier with ⟨entry, entryMem, rfl⟩
        rcases mem_extraFields.mp entryMem with ⟨member, isExtra⟩
        exact ⟨List.mem_append_left _ (List.mem_map_of_mem member), isExtra⟩
      · rw [List.mem_singleton.mp same]
        exact ⟨List.mem_append_right _ List.mem_cons_self, extra⟩
    · simpa using many

/-- The reading of the fields ends with all of them, or for one of the reasons. -/
theorem visitMembers_cases (members : Members) (hold : slots.Hold limits seen) :
    (∃ final, visitMembers limits members slots = .ok final ∧ members.Closed ∧
      final.Hold limits (seen ++ members.entries)) ∨
      ∃ error, visitMembers limits members slots = .error error ∧
        MembersFail limits (seen.map Prod.fst ++ members.keys) (seen ++ members.entries)
          members.Closed error := by
  induction members generalizing slots seen with
  | close => exact .inl ⟨slots, rfl, trivial, by simpa [Members.entries] using hold⟩
  | broken malformation =>
      exact .inr ⟨_, rfl, .malformed malformation id⟩
  | cut key malformation =>
      simp only [visitMembers, Members.keys]
      cases entered : slots.enter limits key with
      | ok next => exact .inr ⟨_, rfl, .malformed malformation id⟩
      | error error => exact .inr ⟨error, rfl, fail_of_enter hold entered [] _ _⟩
  | entry key value rest ih =>
      simp only [visitMembers, Members.keys]
      rcases enter_cases hold key with ⟨next, entered, enters⟩ | ⟨refused, -⟩ | ⟨refused, -⟩
      · rw [entered]
        have keys : ∀ more, (seen ++ [(key, value)]).map Prod.fst ++ more =
            seen.map Prod.fst ++ key :: more := by
          intro more
          simp
        have entries : (seen ++ [(key, value)]) ++ rest.entries =
            seen ++ (Members.entry key value rest).entries := by
          simp [Members.entries]
        rcases fill_cases enters value with ⟨filled, taken, holds⟩ | ⟨failed, large⟩
        · have after := ih holds
          rw [keys, entries] at after
          simp only [bind, Except.bind, taken]
          exact after
        · refine .inr ⟨.custom extraBytesSentinel, ?_, .extraBytes ?_⟩
          · simp only [bind, Except.bind, failed]
          · rw [← entries, extraSize_append]
            omega
      · exact .inr ⟨_, by rw [refused]; rfl, fail_of_enter hold refused _ _ _⟩
      · exact .inr ⟨_, by rw [refused]; rfl, fail_of_enter hold refused _ _ _⟩

end Members

section Events

variable {limits : EventLimits}

/-- The object is that of an event, with few enough extra fields. -/
structure IsEvent (limits : EventLimits) (members : Members) (event : RawEvent) : Prop where
  closed : members.Closed
  distinct : members.keys.Nodup
  few : (extraFields members.entries).length ≤ limits.extraFields
  small : extraSize members.entries ≤ limits.extraJsonBytes
  id : ("id".toList, event.id) ∈ members.entries
  pubkey : ("pubkey".toList, event.pubkey) ∈ members.entries
  created_at : ("created_at".toList, event.createdAt) ∈ members.entries
  kind : ("kind".toList, event.kind) ∈ members.entries
  tags : ("tags".toList, event.tags) ∈ members.entries
  content : ("content".toList, event.content) ∈ members.entries
  sig : ("sig".toList, event.sig) ∈ members.entries

theorem lookup_iff {entries : List (Text × Text)} (distinct : (entries.map Prod.fst).Nodup)
    {key value : Text} : entries.lookup key = some value ↔ (key, value) ∈ entries := by
  constructor
  · intro found
    rcases List.lookup_eq_some_iff.mp found with ⟨before, after, rfl, -⟩
    exact List.mem_append_right _ List.mem_cons_self
  · intro member
    rcases List.mem_iff_append.mp member with ⟨before, after, rfl⟩
    refine List.lookup_eq_some_iff.mpr ⟨before, after, rfl, ?_⟩
    intro entry entryMem
    rw [List.map_append, List.nodup_append] at distinct
    have different := distinct.2.2 entry.1 (List.mem_map_of_mem entryMem) key (by simp)
    simpa using Ne.symm different

theorem requiredField_iff {slots : EventSlots} {entries : List (Text × Text)}
    (hold : slots.Hold limits entries) {field value : Text} (own : field ∈ eventFields) :
    slots.requiredField field = .ok value ↔ (field, value) ∈ entries := by
  have distinct : ((ownFields entries).map Prod.fst).Nodup :=
    (List.filter_sublist.map Prod.fst).nodup hold.distinct
  rw [EventSlots.requiredField, orError_eq_ok, hold.fields, lookup_iff distinct, mem_ownFields]
  exact and_iff_left own

theorem hold_nil (limits : EventLimits) : EventSlots.Hold ⟨[], [], 0⟩ limits [] where
  fields := rfl
  extras := rfl
  bytes := rfl
  distinct := List.nodup_nil
  few := Nat.zero_le _
  small := Nat.zero_le _

/-- Nothing ends the reading of an event's fields. -/
theorem IsEvent.not_fail {members : Members} {event : RawEvent}
    (isEvent : IsEvent limits members event) (error : JsonError) :
    ¬MembersFail limits members.keys members.entries members.Closed error := by
  intro failed
  cases failed with
  | duplicate repeated => exact repeated isEvent.distinct
  | extraCount extras distinct known many =>
      have within : extras ⊆ (extraFields members.entries).map Prod.fst := by
        intro key keyMem
        rcases known key keyMem with ⟨read, extra⟩
        rw [keys_of_closed isEvent.closed] at read
        rcases List.mem_map.mp read with ⟨entry, entryMem, rfl⟩
        exact List.mem_map_of_mem (mem_extraFields.mpr ⟨entryMem, extra⟩)
      have fewer := (List.subperm_of_subset distinct within).length_le
      rw [List.length_map] at fewer
      exact absurd (fewer.trans isEvent.few) (Nat.not_le.mpr many)
  | extraBytes large => exact absurd isEvent.small (Nat.not_le.mpr large)
  | malformed malformation broken => exact broken isEvent.closed

theorem visitEvent_eq_ok {members : Members} {event : RawEvent} :
    visitEvent limits members = .ok event ↔ IsEvent limits members event := by
  have ends := visitMembers_cases members (hold_nil limits)
  simp only [List.map_nil, List.nil_append] at ends
  have own : ∀ field ∈ eventFields, field ∈ eventFields := fun _ => id
  simp only [eventFields, List.forall_mem_cons] at own
  rcases own with ⟨ownId, ownPubkey, ownCreatedAt, ownKind, ownTags, ownContent, ownSig, -⟩
  rcases ends with ⟨slots, done, closed, hold⟩ | ⟨error, failed, fails⟩
  · simp only [visitEvent, done, bind_eq_ok, pure_eq_ok, Except.ok.injEq]
    have required : ∀ {field value : Text}, field ∈ eventFields →
        (slots.requiredField field = .ok value ↔ (field, value) ∈ members.entries) :=
      fun {field value} own => requiredField_iff hold own
    constructor
    · rintro ⟨_, rfl, _, hasId, _, hasPubkey, _, hasCreatedAt, _, hasKind, _, hasTags, _,
        hasContent, _, hasSig, rfl⟩
      exact {
        closed, distinct := keys_of_closed closed ▸ hold.distinct, few := hold.few
        small := hold.small, id := (required ownId).mp hasId
        pubkey := (required ownPubkey).mp hasPubkey
        created_at := (required ownCreatedAt).mp hasCreatedAt
        kind := (required ownKind).mp hasKind, tags := (required ownTags).mp hasTags
        content := (required ownContent).mp hasContent, sig := (required ownSig).mp hasSig }
    · intro isEvent
      exact ⟨slots, rfl, _, (required ownId).mpr isEvent.id, _,
        (required ownPubkey).mpr isEvent.pubkey, _, (required ownCreatedAt).mpr isEvent.created_at,
        _, (required ownKind).mpr isEvent.kind, _, (required ownTags).mpr isEvent.tags, _,
        (required ownContent).mpr isEvent.content, _, (required ownSig).mpr isEvent.sig, rfl⟩
  · constructor
    · intro visited
      simp only [visitEvent, failed, bind_eq_ok] at visited
      rcases visited with ⟨_, done, -⟩
      cases done
    · intro isEvent
      exact absurd fails (isEvent.not_fail error)

/-- Why an object is not read as an event. -/
theorem visitEvent_fails {members : Members} {error : JsonError}
    (failed : visitEvent limits members = .error error) :
    MembersFail limits members.keys members.entries members.Closed error ∨
      error = .custom "missing required event field".toList := by
  have ends := visitMembers_cases members (hold_nil limits)
  simp only [List.map_nil, List.nil_append] at ends
  rcases ends with ⟨slots, done, -⟩ | ⟨other, stopped, fails⟩
  · right
    simp only [visitEvent, done, bind_eq_error, EventSlots.requiredField, orError_eq_error,
      pure_ne_error, reduceCtorEq, false_or, and_false, exists_false, or_false] at failed
    rcases failed with ⟨_, -, ⟨-, same⟩ | ⟨_, -, ⟨-, same⟩ | ⟨_, -, ⟨-, same⟩ | ⟨_, -, ⟨-, same⟩ |
      ⟨_, -, ⟨-, same⟩ | ⟨_, -, ⟨-, same⟩ | ⟨_, -, -, same⟩⟩⟩⟩⟩⟩⟩ <;> exact same.symm
  · left
    simp only [visitEvent, stopped, bind, Except.bind, Except.error.injEq] at failed
    exact failed ▸ fails

end Events

section TagFailures

variable (reader : JsonReader) (limits : EventLimits)

/-- The elements of a value, if it is an array. -/
def JsonReader.elements (raw : Text) : List Text :=
  match reader.array raw with
  | .array elements => elements
  | .mismatch _ => []

/-- The bytes an element decodes to, if it is a well-formed string. -/
def stringBytes (raw : Text) : Nat := (decodedJsonStringUtf8Bytes raw).getD 0

/-- The bytes the elements of a tag decode to. -/
def JsonReader.tagBytes (raw : Text) : Nat := ((reader.elements raw).map stringBytes).sum

/-- Somewhere in the tags, after tags that are well-formed and within the limits, stands a value
that is not an array. -/
structure Misplaced (raws : List Text) (unexpected : Text) : Prop where
  intro ::
  placed : ∃ before raw after tags, raws = before ++ raw :: after ∧
    List.Forall₂ (IsTag reader) before tags ∧ limits.AllowTags tags ∧
    before.length < limits.tagCount ∧ reader.array raw = .mismatch unexpected

/-- What can end the measurement of the tags. -/
inductive TagsFail (raws : List Text) : JsonError → Prop where
  | count : limits.tagCount < raws.length → TagsFail raws (.custom tagCountSentinel)
  | elements :
      limits.tagTotalElements < (raws.map fun raw => (reader.elements raw).length).sum →
      TagsFail raws (.custom tagElementCountSentinel)
  | elementBytes (raw element text : Text) : raw ∈ raws → element ∈ reader.elements raw →
      Literal element text → limits.tagElementBytes < (utf8 text).length →
      TagsFail raws (.custom tagElementBytesSentinel)
  | totalBytes : limits.tagTotalBytes < (raws.map reader.tagBytes).sum →
      TagsFail raws (.custom tagTotalBytesSentinel)
  | notString :
      TagsFail raws (.invalidType "non-string".toList "a JSON string".toList)
  | notTag (unexpected : Text) : Misplaced reader limits raws unexpected →
      TagsFail raws (.invalidType unexpected "a bounded Nostr tag".toList)

variable {reader limits}

theorem elements_of_isTag {raw : Text} {strings : List Text} (isTag : IsTag reader raw strings) :
    (reader.elements raw).length = strings.length ∧ reader.tagBytes raw = decodedSize strings := by
  rcases isTag with ⟨elements, isArray, literals⟩
  have read : reader.elements raw = elements := by
    unfold JsonReader.elements
    rw [isArray]
  unfold JsonReader.tagBytes
  rw [read]
  refine ⟨literals.length_eq, ?_⟩
  clear read isArray
  induction literals with
  | nil => rfl
  | @cons raw text _ _ literal _ ih =>
      have measured := (decoded_bytes_iff raw _).mpr ⟨text, literal, rfl⟩
      rw [List.map_cons, List.sum_cons, decodedSize_cons, ih, stringBytes, measured]
      rfl

/-- The sums over tags are those of what they hold. -/
theorem sums_of_isTags {raws : List Text} {tags : List (List Text)}
    (isTags : List.Forall₂ (IsTag reader) raws tags) :
    raws.length = tags.length ∧
      (raws.map fun raw => (reader.elements raw).length).sum = (tags.map List.length).sum ∧
      (raws.map reader.tagBytes).sum = (tags.map decodedSize).sum := by
  induction isTags with
  | nil => exact ⟨rfl, rfl, rfl⟩
  | cons isTag _ ih =>
      rcases elements_of_isTag isTag with ⟨length, bytes⟩
      simp only [List.length_cons, List.map_cons, List.sum_cons, length, bytes, ih.1, ih.2.1,
        ih.2.2, and_self]

/-- What can end the measurement of one tag. -/
theorem visitTag_fails {maximumElements maximumElementBytes : Nat} {sequence : List Text}
    {result : Measurement} {progress after : Progress} {error : JsonError}
    (failed : visitTag maximumElements maximumElementBytes sequence result progress =
      (after, .error error)) :
    (error = .custom tagElementCountSentinel ∧
      maximumElements < result.elements + sequence.length) ∨
    (error = .custom tagElementBytesSentinel ∧ ∃ element ∈ sequence, ∃ text, Literal element text ∧
      maximumElementBytes < (utf8 text).length) ∨
    error = .invalidType "non-string".toList "a JSON string".toList := by
  induction sequence generalizing result progress with
  | nil =>
      rw [visitTag] at failed
      split at failed <;> cases failed
  | cons raw rest ih =>
      rw [visitTag] at failed
      split at failed
      · dsimp only at failed
        cases length : stringLength maximumElementBytes raw with
        | error other =>
            rw [length] at failed
            cases failed
            unfold stringLength at length
            split at length
            · cases length
              exact .inr (.inr rfl)
            · rename_i bytes decoded
              split at length
              · rename_i large
                cases length
                rcases (decoded_bytes_iff raw bytes).mp decoded with ⟨text, literal, same⟩
                exact .inr (.inl ⟨rfl, raw, List.mem_cons_self, text, literal, same ▸ large⟩)
              · cases length
        | ok bytes =>
            rw [length] at failed
            rcases ih failed with ⟨same, many⟩ | ⟨same, element, elementMem, large⟩ | same
            · refine .inl ⟨same, ?_⟩
              rw [List.length_cons]
              dsimp only at many
              omega
            · exact .inr (.inl ⟨same, element, List.mem_cons_of_mem _ elementMem, large⟩)
            · exact .inr (.inr same)
      · rename_i full
        cases failed
        refine .inl ⟨rfl, ?_⟩
        rw [List.length_cons]
        omega

/-- What has been counted when some tags have been measured. -/
def measurementOf (tags : List (List Text)) : Measurement :=
  ⟨tags.length, (tags.map List.length).sum, (tags.map decodedSize).sum⟩

theorem measurementOf_append (tags : List (List Text)) (strings : List Text) :
    measurementOf (tags ++ [strings]) = ⟨(measurementOf tags).count + 1,
      (measurementOf tags).elements + strings.length,
      (measurementOf tags).bytes + decodedSize strings⟩ := by
  simp [measurementOf]

/-- A tag that is read takes its place after the tags before it. -/
theorem visitTags_step {raw : Text} (rest : List Text) {tags : List (List Text)}
    {strings : List Text} (progress : Progress) (isTag : IsTag reader raw strings)
    (allowed : limits.AllowTags (tags ++ [strings])) :
    ∃ after, visitTags reader limits (raw :: rest) (measurementOf tags) progress =
      visitTags reader limits rest (measurementOf (tags ++ [strings])) after := by
  have count := allowed.count
  have elements := allowed.elements
  have bytes := allowed.bytes
  have small := allowed.element_bytes strings (by simp)
  simp only [List.length_append, List.length_singleton, List.map_append, List.map_singleton,
    List.sum_append, List.sum_singleton] at count elements bytes
  have room : (measurementOf tags).count < limits.tagCount := count
  have notOver : ¬limits.tagTotalElements < (measurementOf tags).elements := by
    unfold measurementOf
    dsimp only
    omega
  have fits : ¬limits.tagTotalBytes < (measurementOf tags).bytes + decodedSize strings :=
    Nat.not_lt.mpr bytes
  have few : strings.length ≤ limits.tagTotalElements - (measurementOf tags).elements := by
    unfold measurementOf
    dsimp only
    omega
  have read := readTag_spec reader (limits.tagTotalElements - (measurementOf tags).elements)
    limits.tagElementBytes raw { progress with tags := progress.tags + 1 }
  have measured := (read.measured _).mpr ⟨strings, isTag, few, small, rfl⟩
  cases outcome : readTag reader (limits.tagTotalElements - (measurementOf tags).elements)
      limits.tagElementBytes raw { progress with tags := progress.tags + 1 } with
  | mk after result =>
      rw [outcome] at measured
      dsimp only at measured
      subst measured
      refine ⟨after, ?_⟩
      rw [visitTags, if_pos room, if_neg notOver, measurementOf_append]
      dsimp only
      rw [outcome]
      dsimp only
      rw [if_neg fits]

/-- The measurement of the tags that are left ends with a measurement, or for one of the reasons. -/
theorem visitTags_fails {before sequence : List Text} {tags : List (List Text)}
    (isTags : List.Forall₂ (IsTag reader) before tags) (allowed : limits.AllowTags tags)
    {progress after : Progress} {error : JsonError}
    (failed : visitTags reader limits sequence (measurementOf tags) progress =
      (after, .error error)) :
    TagsFail reader limits (before ++ sequence) error := by
  induction sequence generalizing before tags progress with
  | nil =>
      rw [visitTags] at failed
      have notOver : ¬limits.tagTotalElements < (measurementOf tags).elements :=
        Nat.not_lt.mpr allowed.elements
      rw [if_neg notOver] at failed
      split at failed <;> cases failed
  | cons raw rest ih =>
      rcases sums_of_isTags isTags with ⟨length, elements, bytes⟩
      have notOver : ¬limits.tagTotalElements < (measurementOf tags).elements :=
        Nat.not_lt.mpr allowed.elements
      by_cases room : (measurementOf tags).count < limits.tagCount
      · cases view : reader.array raw with
        | mismatch unexpected =>
            rw [visitTags, if_pos room, if_neg notOver] at failed
            dsimp only at failed
            unfold readTag at failed
            rw [view] at failed
            cases failed
            exact .notTag unexpected ⟨before, raw, rest, tags, rfl, isTags, allowed, length ▸ room,
              view⟩
        | array inner =>
            have innerElements : reader.elements raw = inner := by
              unfold JsonReader.elements
              rw [view]
            have spec :=
              readTag_spec reader (limits.tagTotalElements - (measurementOf tags).elements)
              limits.tagElementBytes raw { progress with tags := progress.tags + 1 }
            cases outcome : readTag reader (limits.tagTotalElements - (measurementOf tags).elements)
                limits.tagElementBytes raw { progress with tags := progress.tags + 1 } with
            | mk between result =>
                rw [visitTags, if_pos room, if_neg notOver] at failed
                dsimp only at failed
                rw [outcome] at failed spec
                cases result with
                | error other =>
                    cases failed
                    unfold readTag at outcome
                    rw [view] at outcome
                    dsimp only at outcome
                    rcases visitTag_fails outcome with ⟨rfl, many⟩ |
                      ⟨rfl, element, elementMem, text, literal, large⟩ | rfl
                    · refine .elements ?_
                      have counted : (measurementOf tags).elements = (tags.map List.length).sum :=
                        rfl
                      have bounded := allowed.elements
                      rw [List.map_append, List.sum_append, elements, List.map_cons, List.sum_cons,
                        innerElements]
                      dsimp only at many
                      omega
                    · exact .elementBytes raw element text (by simp) (innerElements ▸ elementMem)
                        literal large
                    · exact .notString
                | ok tag =>
                    rcases (spec.measured tag).mp rfl with ⟨strings, isTag, few, small, rfl⟩
                    dsimp only at failed
                    have tagSize := (elements_of_isTag isTag).2
                    split at failed
                    · rename_i large
                      cases failed
                      refine .totalBytes ?_
                      have counted : (measurementOf tags).bytes = (tags.map decodedSize).sum := rfl
                      rw [List.map_append, List.sum_append, bytes, List.map_cons, List.sum_cons,
                        tagSize]
                      omega
                    · rename_i fits
                      have allowedNext : limits.AllowTags (tags ++ [strings]) := by
                        have bounded := allowed.elements
                        have counted : (measurementOf tags).elements = (tags.map List.length).sum :=
                          rfl
                        refine ⟨?_, ?_, ?_, ?_⟩
                        · rw [List.length_append]
                          exact room
                        · simp only [List.map_append, List.map_singleton, List.sum_append,
                            List.sum_singleton]
                          omega
                        · intro other otherMem
                          rcases List.mem_append.mp otherMem with earlier | same
                          · exact allowed.element_bytes other earlier
                          · rw [List.mem_singleton.mp same]
                            exact small
                        · simp only [List.map_append, List.map_singleton, List.sum_append,
                            List.sum_singleton]
                          exact Nat.not_lt.mp fits
                      rw [← measurementOf_append] at failed
                      have fails := ih (List.rel_append isTags (.cons isTag .nil))
                        allowedNext failed
                      rwa [List.append_assoc] at fails
      · rw [visitTags, if_neg room] at failed
        cases failed
        refine .count ?_
        have full : limits.tagCount ≤ tags.length := Nat.not_lt.mp room
        rw [List.length_append, List.length_cons]
        omega

/-- Why tags have no measurement. -/
theorem readTags_fails {raw : Text} {after : Progress} {error : JsonError}
    (failed : readTags reader limits raw = (after, .error error)) :
    (∃ unexpected, reader.array raw = .mismatch unexpected ∧
      error = .invalidType unexpected "a bounded array of Nostr tags".toList) ∨
    ∃ elements, reader.array raw = .array elements ∧ TagsFail reader limits elements error := by
  unfold readTags at failed
  cases view : reader.array raw with
  | mismatch unexpected =>
      rw [view] at failed
      cases failed
      exact .inl ⟨unexpected, rfl, rfl⟩
  | array elements =>
      rw [view] at failed
      have none : limits.AllowTags [] :=
        ⟨Nat.zero_le _, Nat.zero_le _, by simp, Nat.zero_le _⟩
      exact .inr ⟨elements, rfl, visitTags_fails .nil none failed⟩

end TagFailures

section Blindness

variable {reader : JsonReader} {limits : EventLimits}

/-- The reader that quotes nothing of a value of another type. -/
def JsonReader.blind (reader : JsonReader) : JsonReader where
  object source :=
    match reader.object source with
    | .malformed malformation => .malformed malformation
    | .mismatch _ => .mismatch []
    | .object members trailing => .object members trailing
  array raw :=
    match reader.array raw with
    | .mismatch _ => .mismatch []
    | .array elements => .array elements
  natural := reader.natural

theorem blind_array (reader : JsonReader) (raw : Text) :
    (∃ elements, reader.array raw = .array elements ∧ reader.blind.array raw = .array elements) ∨
      ∃ unexpected, reader.array raw = .mismatch unexpected ∧
      reader.blind.array raw = .mismatch [] := by
  cases view : reader.array raw with
  | mismatch unexpected => exact .inr ⟨unexpected, rfl, by simp only [JsonReader.blind, view]⟩
  | array elements => exact .inl ⟨elements, rfl, by simp only [JsonReader.blind, view]⟩

/-- Two readings of tags that are the same, or that end at the same value, of which only the first
tells what it is. -/
def SameButQuoted (seen blind : Progress × Except JsonError Measurement) : Prop :=
  seen = blind ∨ ∃ progress unexpected, ∃ expected ∈ expectations,
    seen = (progress, .error (.invalidType unexpected expected)) ∧
      blind = (progress, .error (.invalidType [] expected))

theorem readTag_blind (maximumElements maximumElementBytes : Nat) (raw : Text)
    (progress : Progress) :
    SameButQuoted (readTag reader maximumElements maximumElementBytes raw progress)
      (readTag reader.blind maximumElements maximumElementBytes raw progress) := by
  unfold readTag
  rcases blind_array reader raw with ⟨elements, seen, blind⟩ | ⟨unexpected, seen, blind⟩
  · rw [seen, blind]
    exact .inl rfl
  · rw [seen, blind]
    exact .inr ⟨progress, unexpected, _, by simp [expectations], rfl, rfl⟩

theorem visitTags_blind (sequence : List Text) (result : Measurement) (progress : Progress) :
    SameButQuoted (visitTags reader limits sequence result progress)
      (visitTags reader.blind limits sequence result progress) := by
  induction sequence generalizing result progress with
  | nil =>
      rw [visitTags, visitTags]
      exact .inl rfl
  | cons raw rest ih =>
      rw [visitTags, visitTags]
      split
      · split
        · exact .inl rfl
        · dsimp only
          rcases readTag_blind (limits.tagTotalElements - result.elements) limits.tagElementBytes
            raw
            { progress with tags := progress.tags + 1 } with same |
              ⟨stopped, unexpected, expected, visitor, seen, blind⟩
          · rw [same]
            split
            · exact .inl rfl
            · split
              · exact .inl rfl
              · exact ih _ _
          · rw [seen, blind]
            exact .inr ⟨stopped, unexpected, expected, visitor, rfl, rfl⟩
      · exact .inl rfl

theorem readTags_blind (reader : JsonReader) (limits : EventLimits) (raw : Text) :
    SameButQuoted (readTags reader limits raw) (readTags reader.blind limits raw) := by
  unfold readTags
  rcases blind_array reader raw with ⟨elements, seen, blind⟩ | ⟨unexpected, seen, blind⟩
  · rw [seen, blind]
    exact visitTags_blind elements _ _
  · rw [seen, blind]
    exact .inr ⟨_, unexpected, _, by simp [expectations], rfl, rfl⟩

variable (reader limits)

/-- What is read instead of the tags, or among them, carries a sentinel of theirs. -/
def TagsMislead (raw : Text) : Prop :=
  (∃ unexpected, reader.array raw = .mismatch unexpected ∧ unexpected.Quotes tagSentinels) ∨
    ∃ elements unexpected, reader.array raw = .array elements ∧
      Misplaced reader limits elements unexpected ∧ unexpected.Quotes tagSentinels

variable {reader limits}

theorem visitTags_reaches {before : List Text} (tags : List (List Text))
    {added : List (List Text)} (isTags : List.Forall₂ (IsTag reader) before added)
    (allowed : limits.AllowTags (tags ++ added))
    (room : (tags ++ added).length < limits.tagCount) {raw unexpected : Text}
    (view : reader.array raw = .mismatch unexpected) (after : List Text) (progress : Progress) :
    ∃ final, visitTags reader limits (before ++ raw :: after) (measurementOf tags) progress =
      (final, .error (.invalidType unexpected "a bounded Nostr tag".toList)) := by
  induction isTags generalizing tags progress with
  | nil =>
      rw [List.append_nil] at allowed room
      have notOver : ¬limits.tagTotalElements < (measurementOf tags).elements :=
        Nat.not_lt.mpr allowed.elements
      have open_ : (measurementOf tags).count < limits.tagCount := room
      rw [List.nil_append, visitTags, if_pos open_, if_neg notOver]
      dsimp only
      unfold readTag
      rw [view]
      exact ⟨_, rfl⟩
  | @cons first strings rest later isTag isTags ih =>
      have split : tags ++ strings :: later = (tags ++ [strings]) ++ later := by simp
      have allowedFirst : limits.AllowTags (tags ++ [strings]) := by
        have count := allowed.count
        have elements := allowed.elements
        have bytes := allowed.bytes
        rw [split, List.length_append] at count
        rw [split, List.map_append, List.sum_append] at elements bytes
        exact ⟨by omega, by omega, fun tag tagMem => allowed.element_bytes tag
          (split ▸ List.mem_append_left _ tagMem), by omega⟩
      rcases visitTags_step (rest ++ raw :: after) progress isTag allowedFirst with
        ⟨between, steps⟩
      rw [List.cons_append, steps]
      exact ih (tags ++ [strings]) (split ▸ allowed) (split ▸ room) between

/-- What quotes a sentinel of the tags is what the reading of the tags ends with. -/
theorem readTags_of_mislead {raw : Text} (mislead : TagsMislead reader limits raw) :
    ∃ progress unexpected, ∃ expected ∈ expectations, unexpected.Quotes tagSentinels ∧
      readTags reader limits raw = (progress, .error (.invalidType unexpected expected)) := by
  unfold readTags
  rcases mislead with ⟨unexpected, view, quotes⟩ |
    ⟨elements, unexpected, view, ⟨before, first, after, tags, rfl, isTags, allowed, room, notTag⟩,
      quotes⟩
  · rw [view]
    exact ⟨_, unexpected, _, by simp [expectations], quotes, rfl⟩
  · rw [view]
    have sameLength := isTags.length_eq
    rcases visitTags_reaches [] isTags allowed (sameLength ▸ room) notTag after ⟨0, 0⟩ with
      ⟨final, ends⟩
    exact ⟨final, unexpected, _, by simp [expectations], quotes, ends⟩

theorem notString_not_expected : "a JSON string".toList ∉ expectations := by decide

/-- A quoting failure is one of a value that misleads, or that quotes nothing of use. -/
theorem mislead_of_quotes {raw unexpected expected : Text} {progress : Progress}
    (visitor : expected ∈ expectations) (quotes : unexpected.Quotes tagSentinels)
    (failed : readTags reader limits raw = (progress, .error (.invalidType unexpected expected))) :
    TagsMislead reader limits raw := by
  rcases readTags_fails failed with ⟨other, view, same⟩ | ⟨elements, view, fails⟩
  · cases same
    exact .inl ⟨unexpected, view, quotes⟩
  · cases fails with
    | notString => exact absurd visitor notString_not_expected
    | notTag _ misplaced => exact .inr ⟨elements, unexpected, view, misplaced, quotes⟩

theorem not_mislead_blind (raw : Text) : ¬TagsMislead reader.blind limits raw := by
  have tagged : tagSentinels ⊆ wireSentinels ++ tagSentinels := List.subset_append_right _ _
  have nothing : ∀ {value unexpected : Text}, reader.blind.array value = .mismatch unexpected →
      ¬unexpected.Quotes tagSentinels := by
    intro value unexpected view
    rcases blind_array reader value with ⟨elements, -, blind⟩ | ⟨other, -, blind⟩
    · rw [blind] at view
      cases view
    · rw [blind] at view
      cases view
      exact nil_not_quotes tagged
  rintro (⟨unexpected, view, quotes⟩ |
    ⟨elements, unexpected, -, ⟨_, _, _, _, -, -, -, -, view⟩, quotes⟩)
  · exact nothing view quotes
  · exact nothing view quotes

/-- The class of what the tags are depends on no quoted text exactly when none of it misleads. -/
theorem measureTags_blind_iff (raw : Text) :
    (measureTags reader limits raw).2 = (measureTags reader.blind limits raw).2 ↔
      ¬TagsMislead reader limits raw := by
  have tagged : tagSentinels ⊆ wireSentinels ++ tagSentinels := List.subset_append_right _ _
  unfold measureTags
  dsimp only
  rcases readTags_blind reader limits raw with same |
    ⟨progress, unexpected, expected, visitor, seen, blind⟩
  · rw [same]
    refine iff_of_true rfl ?_
    intro mislead
    rcases readTags_of_mislead mislead with
      ⟨progress, unexpected, expected, visitor, quotes, failed⟩
    exact not_mislead_blind raw (mislead_of_quotes visitor quotes (same ▸ failed))
  · rw [seen, blind]
    simp only [Except.mapError, Except.error.injEq,
      (classifyTag_invalidType visitor).mpr (nil_not_quotes tagged)]
    rw [classifyTag_invalidType visitor]
    refine not_congr ⟨fun quotes => mislead_of_quotes visitor quotes seen, ?_⟩
    intro mislead
    rcases readTags_of_mislead mislead with ⟨_, _, _, -, quotes, failed⟩
    rw [seen] at failed
    cases failed
    exact quotes

end Blindness

section Classes

variable (reader : JsonReader) (limits : EventLimits)

/-- The input is a text that begins with an object of these members. -/
def ObjectOf (original : List UInt8) (members : Members) : Prop :=
  ∃ source trailing, textOfUtf8 original = some source ∧
    reader.object source = .object members trailing

/-- The tags of the object the input begins with. -/
def TagsOf (original : List UInt8) (raw : Text) : Prop :=
  ∃ members, ObjectOf reader original members ∧ ("tags".toList, raw) ∈ members.entries

/-- What a reported class says of the input. -/
def Genuine (original : List UInt8) : AdmissionErrorKind → Prop
  | .duplicateEventField => ∃ members, ObjectOf reader original members ∧ ¬members.keys.Nodup
  | .tooManyExtraFields => ∃ members, ∃ extras : List Text, ObjectOf reader original members ∧
      extras.Nodup ∧ (∀ key ∈ extras, key ∈ members.keys ∧ key ∉ eventFields) ∧
      limits.extraFields < extras.length
  | .extraFieldsTooLarge => ∃ members, ObjectOf reader original members ∧
      limits.extraJsonBytes < extraSize members.entries
  | .tooManyTags => ∃ raw, TagsOf reader original raw ∧
      limits.tagCount < (reader.elements raw).length
  | .tooManyTagElements => ∃ raw, TagsOf reader original raw ∧
      limits.tagTotalElements <
        ((reader.elements raw).map fun tag => (reader.elements tag).length).sum
  | .tagElementTooLarge => ∃ raw tag element text, TagsOf reader original raw ∧
      tag ∈ reader.elements raw ∧ element ∈ reader.elements tag ∧ Literal element text ∧
      limits.tagElementBytes < (utf8 text).length
  | .tagsTooLarge => ∃ raw, TagsOf reader original raw ∧
      limits.tagTotalBytes < ((reader.elements raw).map reader.tagBytes).sum
  | _ => True

/-- The fields of an event that are checked before its tags. -/
structure RawEvent.Valid (event : RawEvent) : Prop where
  id : ∃ text, Literal event.id text ∧ (utf8 text).length ≤ eventIdMaxBytes
  pubkey : ∃ text, Literal event.pubkey text ∧ (utf8 text).length ≤ eventPublicKeyMaxBytes
  sig : ∃ text, Literal event.sig text ∧ (utf8 text).length ≤ eventSignatureMaxBytes
  content : ∃ text, Literal event.content text ∧ (utf8 text).length ≤ limits.contentBytes
  created_at : ∃ value, reader.natural event.createdAt = some value ∧ value < 2 ^ 64
  kind : ∃ value, reader.natural event.kind = some value ∧ value < 2 ^ 32

/-- The text is no object but a value whose description carries a sentinel, or it is an event up to
its tags, and a value that stands for them or among them does. -/
inductive Misleads (source : Text) : Prop where
  | value (unexpected : Text) : reader.object source = .mismatch unexpected →
      unexpected.Quotes wireSentinels → Misleads source
  | tags (members : Members) (event : RawEvent) : reader.object source = .object members false →
      IsEvent limits members event → event.Valid reader limits →
      TagsMislead reader limits event.tags → Misleads source

variable {reader limits}

theorem validateBoundedString_eq_ok {raw : Text} {maximum : Nat} {tooLarge : AdmissionErrorKind}
    {done : Unit} : validateBoundedString raw maximum tooLarge = .ok done ↔
      ∃ text, Literal raw text ∧ (utf8 text).length ≤ maximum := by
  simp only [validateBoundedString, bind_eq_ok, orError_eq_ok, require_eq_ok, decide_eq_true_eq]
  constructor
  · rintro ⟨length, measured, fits⟩
    rcases (decoded_bytes_iff raw length).mp measured with ⟨text, literal, rfl⟩
    exact ⟨text, literal, fits⟩
  · rintro ⟨text, literal, fits⟩
    exact ⟨_, (decoded_bytes_iff raw _).mpr ⟨text, literal, rfl⟩, fits⟩

theorem parseScalar_eq_ok {bits : Nat} {raw : Text} {done : Unit} :
    parseScalar reader bits raw = .ok done ↔
      ∃ value, reader.natural raw = some value ∧ value < 2 ^ bits := by
  simp only [parseScalar, require_eq_ok, Option.any_eq_true, decide_eq_true_eq]

theorem validateEvent_eq_ok {event : RawEvent} {done : Unit} :
    validateEvent reader limits event = .ok done ↔ event.Valid reader limits := by
  simp only [validateEvent, bind_eq_ok, validateBoundedString_eq_ok, parseScalar_eq_ok]
  constructor
  · rintro ⟨_, id, _, pubkey, _, sig, _, content, _, createdAt, kind⟩
    exact ⟨id, pubkey, sig, content, createdAt, kind⟩
  · rintro ⟨id, pubkey, sig, content, createdAt, kind⟩
    exact ⟨(), id, (), pubkey, (), sig, (), content, (), createdAt, kind⟩

theorem validateBoundedString_class {raw : Text} {maximum : Nat}
    {tooLarge kind : AdmissionErrorKind}
    (failed : validateBoundedString raw maximum tooLarge = .error kind) :
    kind = .malformedEvent ∨ kind = tooLarge := by
  simp only [validateBoundedString, bind_eq_error, orError_eq_error, require_eq_error] at failed
  rcases failed with ⟨-, same⟩ | ⟨_, -, -, same⟩
  · exact .inl same.symm
  · exact .inr same.symm

/-- The checks before the tags report nothing that is in question. -/
theorem validateEvent_class {event : RawEvent} {kind : AdmissionErrorKind}
    (failed : validateEvent reader limits event = .error kind) (original : List UInt8) :
    Genuine reader limits original kind := by
  have classes : kind = .malformedEvent ∨ kind = .eventIdentifierTooLarge ∨
      kind = .eventContentTooLarge := by
    simp only [validateEvent, parseScalar, bind_eq_error, require_eq_error] at failed
    rcases failed with id | ⟨_, -, pubkey | ⟨_, -, sig | ⟨_, -, content | ⟨_, -, ⟨-, createdAt⟩ |
      ⟨_, -, -, scalar⟩⟩⟩⟩⟩
    · exact (validateBoundedString_class id).imp_right .inl
    · exact (validateBoundedString_class pubkey).imp_right .inl
    · exact (validateBoundedString_class sig).imp_right .inl
    · exact (validateBoundedString_class content).imp_right .inr
    · exact .inl createdAt.symm
    · exact .inl scalar.symm
  rcases classes with rfl | rfl | rfl <;> exact True.intro

/-- The class of what ends the reading of an object's fields is genuine. -/
theorem visitEvent_class {original : List UInt8} {members : Members} {error : JsonError}
    (object : ObjectOf reader original members)
    (failed : visitEvent limits members = .error error) :
    Genuine reader limits original (classifyWirePreflightError error) := by
  rcases visitEvent_fails failed with fails | rfl
  · cases fails with
    | duplicate repeated =>
        have class_ : classifyWirePreflightError (.custom duplicateFieldSentinel) =
            .duplicateEventField := by
          decide
        exact class_ ▸ ⟨members, object, repeated⟩
    | extraCount extras distinct known many =>
        have class_ : classifyWirePreflightError (.custom extraCountSentinel) =
            .tooManyExtraFields := by
          decide
        exact class_ ▸ ⟨members, extras, object, distinct, known, many⟩
    | extraBytes large =>
        have class_ : classifyWirePreflightError (.custom extraBytesSentinel) =
            .extraFieldsTooLarge := by
          decide
        exact class_ ▸ ⟨members, object, large⟩
    | malformed malformation =>
        rw [classifyWire_malformed]
        exact True.intro
  · have class_ : classifyWirePreflightError (.custom "missing required event field".toList) =
        .malformedEvent := by
      decide
    rw [class_]
    exact True.intro

/-- The class of what ends the measurement of the tags is genuine, if nothing misleads. -/
theorem measureTags_class {original : List UInt8} {raw : Text} {kind : AdmissionErrorKind}
    (tags : TagsOf reader original raw) (honest : ¬TagsMislead reader limits raw)
    (failed : (measureTags reader limits raw).2 = .error kind) :
    Genuine reader limits original kind := by
  unfold measureTags at failed
  cases read : readTags reader limits raw with
  | mk progress result =>
      rw [read] at failed
      cases result with
      | ok measurement => cases failed
      | error error =>
          cases failed
          have quiet : ∀ {unexpected expected : Text}, expected ∈ expectations →
              error = .invalidType unexpected expected →
              classifyTagError error = .malformedEvent := by
            rintro unexpected expected visitor rfl
            exact (classifyTag_invalidType visitor).mpr fun quotes =>
              honest (mislead_of_quotes visitor quotes read)
          rcases readTags_fails read with ⟨unexpected, -, same⟩ | ⟨elements, view, fails⟩
          · rw [quiet (by simp [expectations]) same]
            exact True.intro
          · have inner : reader.elements raw = elements := by
              unfold JsonReader.elements
              rw [view]
            cases fails with
            | count many =>
                have class_ : classifyTagError (.custom tagCountSentinel) = .tooManyTags := by
                  decide
                exact class_ ▸ ⟨raw, tags, inner ▸ many⟩
            | elements many =>
                have class_ : classifyTagError (.custom tagElementCountSentinel) =
                    .tooManyTagElements := by
                  decide
                exact class_ ▸ ⟨raw, tags, inner ▸ many⟩
            | elementBytes tag element text tagMem elementMem literal large =>
                have class_ : classifyTagError (.custom tagElementBytesSentinel) =
                    .tagElementTooLarge := by
                  decide
                exact class_ ▸ ⟨raw, tag, element, text, tags, inner ▸ tagMem, elementMem, literal,
                  large⟩
            | totalBytes large =>
                have class_ : classifyTagError (.custom tagTotalBytesSentinel) = .tagsTooLarge := by
                  decide
                exact class_ ▸ ⟨raw, tags, inner ▸ large⟩
            | notString =>
                have class_ : classifyTagError
                    (.invalidType "non-string".toList "a JSON string".toList) =
                      .malformedEvent := by
                  decide
                rw [class_]
                exact True.intro
            | notTag unexpected misplaced =>
                rw [quiet (by simp [expectations]) rfl]
                exact True.intro

theorem readEvent_object {source : Text} {members : Members} {trailing : Bool}
    (view : reader.object source = .object members trailing) :
    readEvent reader limits source =
      (visitEvent limits members).map fun event => (event, trailing) := by
  unfold readEvent
  rw [view]

theorem blind_object {source : Text} {members : Members} {trailing : Bool}
    (view : reader.object source = .object members trailing) :
    reader.blind.object source = .object members trailing := by
  simp only [JsonReader.blind, view]

/-- The preflight of an object whose fields are not those of an event. -/
theorem preflightWire_of_fails {source : Text} {members : Members} {trailing : Bool}
    {error : JsonError} (view : reader.object source = .object members trailing)
    (failed : visitEvent limits members = .error error) :
    preflightWire reader limits source = .error (classifyWirePreflightError error) := by
  simp only [preflightWire, readEvent_object view, failed]
  rfl

/-- The preflight of an object whose fields are those of an event. -/
theorem preflightWire_of_event {source : Text} {members : Members} {trailing : Bool}
    {event : RawEvent} (view : reader.object source = .object members trailing)
    (done : visitEvent limits members = .ok event) :
    preflightWire reader limits source = (do
      require (!trailing) .malformedEvent
      validateEvent reader limits event
      let _ ← (measureTags reader limits event.tags).2
      pure ()) := by
  simp only [preflightWire, readEvent_object view, done]
  rfl

/-- The class depends on no quoted text exactly when the text does not mislead. -/
theorem preflightWire_blind_iff (source : Text) :
    preflightWire reader limits source = preflightWire reader.blind limits source ↔
      ¬Misleads reader limits source := by
  have wired : wireSentinels ⊆ wireSentinels ++ tagSentinels := List.subset_append_left _ _
  cases view : reader.object source with
  | malformed malformation =>
      have unchanged : reader.blind.object source = .malformed malformation := by
        simp only [JsonReader.blind, view]
      refine iff_of_true ?_ ?_
      · unfold preflightWire readEvent
        rw [view, unchanged]
        rfl
      · rintro (⟨_, other, -⟩ | ⟨_, _, other, -⟩) <;> rw [view] at other <;> cases other
  | mismatch unexpected =>
      have hidden : reader.blind.object source = .mismatch [] := by
        simp only [JsonReader.blind, view]
      have visitor : "a bounded NIP-01 event object".toList ∈ expectations := by
        simp [expectations]
      have seen : preflightWire reader limits source = .error (classifyWirePreflightError
          (.invalidType unexpected "a bounded NIP-01 event object".toList)) := by
        unfold preflightWire readEvent
        rw [view]
        rfl
      have blind : preflightWire reader.blind limits source = .error .malformedEvent := by
        rw [← (classifyWire_invalidType visitor).mpr (nil_not_quotes wired)]
        unfold preflightWire readEvent
        rw [hidden]
        rfl
      rw [seen, blind, Except.error.injEq, classifyWire_invalidType visitor]
      refine not_congr ⟨.value unexpected view, ?_⟩
      rintro (⟨_, other, quotes⟩ | ⟨_, _, other, -⟩)
      · rw [view] at other
        cases other
        exact quotes
      · rw [view] at other
        cases other
  | object members trailing =>
      cases visited : visitEvent limits members with
      | error error =>
          refine iff_of_true ?_ ?_
          · rw [preflightWire_of_fails view visited,
              preflightWire_of_fails (blind_object view) visited]
          · rintro (⟨_, other, -⟩ | ⟨_, event, other, isEvent, -⟩)
            · rw [view] at other
              cases other
            · rw [view] at other
              cases other
              rw [visitEvent_eq_ok.mpr isEvent] at visited
              cases visited
      | ok event =>
          have misled : Misleads reader limits source ↔ trailing = false ∧
              event.Valid reader limits ∧ TagsMislead reader limits event.tags := by
            constructor
            · rintro (⟨_, other, -⟩ | ⟨_, other, same, isEvent, valid, mislead⟩)
              · rw [view] at other
                cases other
              · rw [view] at same
                cases same
                have sameEvent := visitEvent_eq_ok.mpr isEvent
                rw [visited] at sameEvent
                cases sameEvent
                exact ⟨rfl, valid, mislead⟩
            · rintro ⟨rfl, valid, mislead⟩
              exact .tags members event view (visitEvent_eq_ok.mp visited) valid mislead
          rw [misled, preflightWire_of_event view visited,
            preflightWire_of_event (blind_object view) visited]
          have sameChecks : validateEvent reader.blind limits event =
              validateEvent reader limits event := rfl
          rw [sameChecks]
          cases trailing with
          | true => exact iff_of_true rfl (by simp)
          | false =>
              cases valid : validateEvent reader limits event with
              | error kind =>
                  refine iff_of_true rfl ?_
                  rintro ⟨-, isValid, -⟩
                  have passes : validateEvent reader limits event = .ok () :=
                    validateEvent_eq_ok.mpr isValid
                  rw [valid] at passes
                  cases passes
              | ok done =>
                  have isValid := validateEvent_eq_ok.mp valid
                  have discard : ∀ seen blind : Except AdmissionErrorKind Measurement,
                      (seen = blind ∨ ∃ kind other, seen = .error kind ∧ blind = .error other) →
                        (((do let _ ← seen; pure ()) : Except AdmissionErrorKind Unit) =
                          (do let _ ← blind; pure ()) ↔ seen = blind) := by
                    rintro seen blind (rfl | ⟨kind, other, rfl, rfl⟩)
                    · exact iff_of_true rfl rfl
                    · simp only [bind, Except.bind, Except.error.injEq]
                  have sides : (measureTags reader limits event.tags).2 =
                        (measureTags reader.blind limits event.tags).2 ∨
                      ∃ kind other, (measureTags reader limits event.tags).2 = .error kind ∧
                        (measureTags reader.blind limits event.tags).2 = .error other := by
                    unfold measureTags
                    rcases readTags_blind reader limits event.tags with
                      same | ⟨_, _, _, -, seen, blind⟩
                    · exact .inl (by rw [same])
                    · exact .inr ⟨_, _, by rw [seen]; rfl, by rw [blind]; rfl⟩
                  have reaches : ∀ tail : Except AdmissionErrorKind Unit,
                      ((do
                        require (!false) .malformedEvent
                        (.ok done : Except AdmissionErrorKind Unit)
                        tail) : Except AdmissionErrorKind Unit) = tail := fun _ => rfl
                  rw [reaches, reaches, discard _ _ sides, measureTags_blind_iff]
                  refine not_congr ⟨fun mislead => ⟨rfl, isValid, mislead⟩, fun all => all.2.2⟩

/-- What the preflight of a text that does not mislead reports is genuine. -/
theorem preflightWire_genuine {original : List UInt8} {source : Text} {kind : AdmissionErrorKind}
    (decoded : textOfUtf8 original = some source) (honest : ¬Misleads reader limits source)
    (failed : preflightWire reader limits source = .error kind) :
    Genuine reader limits original kind := by
  cases view : reader.object source with
  | malformed malformation =>
      unfold preflightWire readEvent at failed
      rw [view] at failed
      have class_ : kind = .malformedEvent := by
        rw [← classifyWire_malformed malformation]
        exact (Except.error.inj failed).symm
      rw [class_]
      exact True.intro
  | mismatch unexpected =>
      unfold preflightWire readEvent at failed
      rw [view] at failed
      have visitor : "a bounded NIP-01 event object".toList ∈ expectations := by
        simp [expectations]
      have class_ : kind = .malformedEvent := by
        rw [← (classifyWire_invalidType visitor).mpr fun quotes =>
          honest (.value unexpected view quotes)]
        exact (Except.error.inj failed).symm
      rw [class_]
      exact True.intro
  | object members trailing =>
      have object : ObjectOf reader original members := ⟨source, trailing, decoded, view⟩
      cases visited : visitEvent limits members with
      | error error =>
          rw [preflightWire_of_fails view visited] at failed
          cases failed
          exact visitEvent_class object visited
      | ok event =>
          have isEvent := visitEvent_eq_ok.mp visited
          simp only [preflightWire_of_event view visited, bind_eq_error, require_eq_error,
            pure_ne_error, and_false, exists_false, or_false] at failed
          rcases failed with ⟨-, rfl⟩ | ⟨_, isLast, invalid | ⟨_, valid, unmeasured⟩⟩
          · exact True.intro
          · exact validateEvent_class invalid original
          · have last : trailing = false := by
              simpa using isLast
            subst last
            refine measureTags_class ⟨members, object, isEvent.tags⟩ ?_ unmeasured
            intro mislead
            exact honest (.tags members event view isEvent (validateEvent_eq_ok.mp valid) mislead)

/-- The classification is exact of an input: what it reports is genuine, and a reader that quotes
nothing would report the same. -/
structure ClassifiedExactly (reader : JsonReader) (limits : EventLimits) (original : List UInt8) :
    Prop where
  genuine : ∀ kind, preflight reader limits original = .error kind →
    Genuine reader limits original kind
  unquoted : preflight reader limits original = preflight reader.blind limits original

/-- The classification is exact of an input unless a small enough text misleads. -/
theorem classified_exactly_iff (reader : JsonReader) (limits : EventLimits)
    (original : List UInt8) :
    ClassifiedExactly reader limits original ↔
      ∀ source, original ≠ [] → original.length ≤ limits.wireBytes →
        textOfUtf8 original = some source → ¬Misleads reader limits source := by
  have opened : ∀ {other : JsonReader} {source : Text}, original ≠ [] →
      original.length ≤ limits.wireBytes → textOfUtf8 original = some source →
      preflight other limits original = preflightWire other limits source := by
    intro other source nonempty small decoded
    have notEmpty : (!original.isEmpty) = true := by
      cases original with
      | nil => exact absurd rfl nonempty
      | cons => rfl
    simp only [preflight, notEmpty, small, decoded, decide_true, require, orError, if_true, bind,
      Except.bind]
  constructor
  · intro exact_ source nonempty small decoded
    have same := exact_.unquoted
    rw [opened nonempty small decoded, opened nonempty small decoded] at same
    exact (preflightWire_blind_iff source).mp same
  · intro honest
    by_cases empty : original = []
    · subst empty
      have refused : ∀ other : JsonReader, preflight other limits [] = .error .emptyEvent :=
        fun _ => rfl
      refine ⟨?_, by rw [refused, refused]⟩
      intro kind failed
      cases (refused reader).symm.trans failed
      exact True.intro
    · have notEmpty : (!original.isEmpty) = true := by
        cases original with
        | nil => exact absurd rfl empty
        | cons => rfl
      by_cases small : original.length ≤ limits.wireBytes
      · cases decoded : textOfUtf8 original with
        | none =>
            have refused : ∀ other : JsonReader,
                preflight other limits original = .error .invalidEventUtf8 := by
              intro other
              simp only [preflight, notEmpty, small, decoded, decide_true, require, orError,
                if_true, bind, Except.bind]
            refine ⟨?_, by rw [refused, refused]⟩
            intro kind failed
            cases (refused reader).symm.trans failed
            exact True.intro
        | some source =>
            have notMisled := honest source empty small decoded
            refine ⟨?_, ?_⟩
            · intro kind failed
              rw [opened empty small decoded] at failed
              exact preflightWire_genuine decoded notMisled failed
            · rw [opened empty small decoded, opened empty small decoded]
              exact (preflightWire_blind_iff source).mpr notMisled
      · have refused : ∀ other : JsonReader,
            preflight other limits original = .error .eventTooLarge := by
          intro other
          simp only [preflight, notEmpty, small, decide_false, require, if_true, if_false,
            Bool.false_eq_true, bind, Except.bind]
        refine ⟨?_, by rw [refused, refused]⟩
        intro kind failed
        cases (refused reader).symm.trans failed
        exact True.intro

end Classes

section Exceptions

namespace Sample.Preflight

/-- A reader of texts that are a single string; the description of a string quotes it. -/
def reader : JsonReader where
  object source := .mismatch ("string ".toList ++ source)
  array raw := .mismatch ("string ".toList ++ raw)
  natural _ := none

def limits : EventLimits := ⟨524288, 131072, 256, 1024, 4096, 65536, 16, 16384⟩

/-- A text that is the first sentinel, quoted. -/
def quoted : Text := "\x22rhi-duplicate-event-field\x22".toList

/-- A string is reported to repeat a field of an event. -/
theorem quoted_sentinel_reported :
    preflight reader limits (utf8 quoted) = .error .duplicateEventField ∧
      ¬ClassifiedExactly reader limits (utf8 quoted) := by
  have reported : preflight reader limits (utf8 quoted) = .error .duplicateEventField := by
    decide
  refine ⟨reported, ?_⟩
  intro classified
  rcases classified.genuine _ reported with ⟨members, ⟨source, trailing, -, object⟩, -⟩
  cases object

end Sample.Preflight

end Exceptions

end Rhi
