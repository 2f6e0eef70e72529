import Rhi.Configuration.Effective

/-!
# Redaction of the effective configuration

What is redacted is told from the path alone, by its ends.  Below the shape of the configuration the
ends of a path tell the kind of the leaf, so that exactly the sensitive leaves are redacted, and
what is shown of a configuration is the same whatever its sensitive leaves are.
-/

namespace Rhi

open Json Transactional

section Flattening

mutual

/-- Flattening inserts the leaves one after the other. -/
theorem flattenValue_eq (path : Text) : ∀ (value : Value) (fields : List (Text × Value)),
    flattenValue path value fields = SortedEntries.insertAll fields (leaves path value)
  | .object members, fields => by
      rw [flattenValue, leaves_of_not_isLeaf rfl, flattenMembers_eq path members fields]
      rw [Value.children, List.flatMap_map]
      rfl
  | .array elements, fields => by
      rw [flattenValue]
      cases objects : elements.all Value.isObject with
      | true =>
          have inner : (Value.array elements).isLeaf = false := by rw [Value.isLeaf, objects]; rfl
          rw [if_pos rfl, leaves_of_not_isLeaf inner, flattenElements_eq path 0 elements fields,
            Value.children, if_pos objects, List.flatMap_map]
          rfl
      | false =>
          have leaf : (Value.array elements).isLeaf = true := by rw [Value.isLeaf, objects]; rfl
          rw [if_neg (by decide), leaves_of_isLeaf leaf]
          rfl
  | .null, fields => by
      rw [flattenValue, leaves_of_isLeaf rfl]
      rfl
  | .boolean value, fields => by
      rw [flattenValue, leaves_of_isLeaf rfl]
      rfl
  | .number value, fields => by
      rw [flattenValue, leaves_of_isLeaf rfl]
      rfl
  | .text value, fields => by
      rw [flattenValue, leaves_of_isLeaf rfl]
      rfl

theorem flattenMembers_eq (path : Text) :
    ∀ (members : List (String × Value)) (fields : List (Text × Value)),
      flattenMembers path members fields =
        SortedEntries.insertAll fields
          (members.flatMap fun member => leaves (path ++ '/' :: member.1.toList) member.2)
  | [], fields => by
      rw [flattenMembers]
      rfl
  | (key, child) :: rest, fields => by
      rw [flattenMembers, flattenValue_eq (path ++ '/' :: key.toList) child fields,
        flattenMembers_eq path rest, List.flatMap_cons]
      exact List.foldl_append.symm

theorem flattenElements_eq (path : Text) (index : Nat) :
    ∀ (elements : List Value) (fields : List (Text × Value)),
      flattenElements path index elements fields =
        SortedEntries.insertAll fields
          ((elements.zipIdx index).flatMap fun element =>
            leaves (path ++ '/' :: Nat.toDigits 10 element.2) element.1)
  | [], fields => by
      rw [flattenElements]
      rfl
  | child :: rest, fields => by
      rw [flattenElements, flattenValue_eq (path ++ '/' :: Nat.toDigits 10 index) child fields,
        flattenElements_eq path (index + 1) rest, List.zipIdx_cons, List.flatMap_cons]
      exact List.foldl_append.symm

end

/-- The leaves of a document, in the order of their paths. -/
def flattened (normalized : Value) : List (Text × Value) := flattenValue [] normalized []

theorem sorted_flattened (normalized : Value) : SortedEntries.Sorted (flattened normalized) := by
  rw [flattened, flattenValue_eq]
  exact SortedEntries.sorted_insertAll List.Pairwise.nil

/-- Every leaf is kept, under the path of its position. -/
theorem mem_flattened_iff {normalized : Value} (wellNamed : WellNamed normalized) {path : Text}
    {leaf : Value} :
    (path, leaf) ∈ flattened normalized ↔
      ∃ steps, LeafAt normalized steps leaf ∧ path = pointer steps := by
  have listed : ∀ entry : Text × Value, entry ∈ leaves [] normalized ↔
      ∃ steps, LeafAt normalized steps entry.2 ∧ entry.1 = pointer steps :=
    fun entry => mem_leaves_iff
  have named : ∀ first ∈ [] ++ leaves [] normalized, ∀ second ∈ [] ++ leaves [] normalized,
      first.1 = second.1 → first = second := by
    intro first firstMem second secondMem same
    rcases (listed first).mp firstMem with ⟨firstSteps, ⟨firstStands, -⟩, firstPath⟩
    rcases (listed second).mp secondMem with ⟨secondSteps, ⟨secondStands, -⟩, secondPath⟩
    have paths : pointer firstSteps = pointer secondSteps := by rw [← firstPath, ← secondPath, same]
    exact Prod.ext same (firstStands.unique wellNamed secondStands paths).2
  rw [flattened, flattenValue_eq, SortedEntries.mem_insertAll_iff List.Pairwise.nil named, listed]
  exact or_iff_right List.not_mem_nil

/-- A configuration of few short leaves fits. -/
theorem length_projectionText_leaves_le (floatText : UInt64 → Text) {normalized : Value}
    (original : TomlValue) {bound : Nat}
    (short : ∀ entry ∈ leaves [] normalized, elementCount entry.2 = 0 ∧
      6 * entry.1.length + (entry.2.print floatText).length ≤ bound) :
    (utf8 (projectionText floatText (effectiveFields normalized original))).length ≤
      4 * ((bound + 257) * (leaves [] normalized).length + 128) := by
  have flat := flattenValue_eq [] normalized []
  have few : (flattenValue [] normalized []).length ≤ (leaves [] normalized).length := by
    rw [flat]
    simpa using @SortedEntries.length_insertAll_le _ _ _ ([] : List (Text × Value))
      (leaves [] normalized)
  have shown : ∀ entry ∈ flattenValue [] normalized [], elementCount entry.2 = 0 ∧
      6 * entry.1.length + (entry.2.print floatText).length ≤ bound := by
    intro entry entryMem
    rw [flat] at entryMem
    exact short entry (by simpa using SortedEntries.insertAll_subset entryMem)
  refine (length_projectionText_le floatText original shown).trans ?_
  gcongr

end Flattening

section Ends

/-- A path ends in a property exactly when its last step does. -/
theorem endsWith_pointer_iff {steps : List Step} (plain : Plain (steps.map Step.text))
    {back key : String} (split : back.toList = '/' :: key.toList) (noSlash : '/' ∉ key.toList)
    (word : ¬key.toList.all Char.isDigit = true) :
    endsWith (pointer steps) back = true ↔
      (steps.map Step.name).getLast? = some (some key.toList) := by
  rw [endsWith, List.isSuffixOf_iff_suffix, split, pointer, suffix_pathOf_iff noSlash plain,
    List.getLast?_map, List.getLast?_map, Option.map_eq_some_iff, Option.map_eq_some_iff]
  constructor
  · rintro ⟨step, last, same⟩
    exact ⟨step, last, (Step.text_eq_iff word).mp same⟩
  · rintro ⟨step, last, same⟩
    exact ⟨step, last, (Step.text_eq_iff word).mpr same⟩

/-- Whether a position lies below some properties. -/
def below (front : List Text) (names : List (Option Text)) : Bool :=
  (front.map some).isPrefixOf names && decide (front.length < names.length)

/-- A path goes on behind some properties exactly when its position lies below them. -/
theorem startsWith_pointer_iff {steps : List Step} (plain : Plain (steps.map Step.text))
    {front : String} {keys : List Text} (split : front.toList = pathOf keys ++ ['/'])
    (noSlash : Plain keys) (words : ∀ key ∈ keys, ¬key.all Char.isDigit = true) :
    startsWith (pointer steps) front = true ↔ below keys (steps.map Step.name) = true := by
  rw [startsWith, List.isPrefixOf_iff_prefix, split, pointer, prefix_pathOf_iff noSlash plain,
    below, Bool.and_eq_true, List.isPrefixOf_iff_prefix, decide_eq_true_eq, List.length_map]
  constructor
  · rintro ⟨rest, nonempty, same⟩
    rcases List.map_eq_append_iff.mp same with ⟨before, after, rfl, first, rfl⟩
    have named := (map_text_eq_iff words).mp first
    refine ⟨⟨after.map Step.name, by rw [List.map_append, named]⟩, ?_⟩
    have length := congrArg List.length first
    rw [List.length_map] at length
    have positive : 0 < after.length :=
      List.length_pos_of_ne_nil fun empty => nonempty (by rw [empty]; rfl)
    rw [List.length_append]
    omega
  · rintro ⟨⟨rest, same⟩, longer⟩
    rcases List.map_eq_append_iff.mp same.symm with ⟨before, after, rfl, first, rfl⟩
    have texts := (map_text_eq_iff words).mpr first
    refine ⟨after.map Step.text, ?_, by rw [List.map_append, texts]⟩
    intro empty
    have length := congrArg List.length first
    rw [List.length_map, List.length_map] at length
    rw [List.map_eq_nil_iff.mp empty, List.append_nil] at longer
    omega

/-- A path is that of some properties exactly when its position is. -/
theorem pointer_eq_iff {steps : List Step} (plain : Plain (steps.map Step.text)) {path : Text}
    {keys : List Text} (split : path = pathOf keys) (noSlash : Plain keys)
    (words : ∀ key ∈ keys, ¬key.all Char.isDigit = true) :
    pointer steps = path ↔ steps.map Step.name = keys.map some := by
  rw [split, ← map_text_eq_iff words]
  exact ⟨pathOf_inj plain noSlash, congrArg pathOf⟩

end Ends

section Kinds

/-- The redaction of a position, told from the names of its steps. -/
def namedRedaction (names : List (Option Text)) : Option String :=
  let last := names.getLast?
  if last = some (some "envelope_path".toList) then some "[redacted-path]"
  else if last = some (some "credential_reference".toList) then
    some "[redacted-credential-reference]"
  else if last = some (some "expected_public_key".toList) then some "[redacted-public-key]"
  else if names = ["operations".toList, "listen".toList].map some then some "[redacted-address]"
  else if names = ["evidence".toList, "policy_id".toList].map some then some "[redacted-policy-id]"
  else if below ["relays".toList] names = true ∧ last = some (some "id".toList) then
    some "[redacted-relay-id]"
  else if below ["relays".toList] names = true ∧ last = some (some "url".toList) then
    some "[redacted-url]"
  else if below ["evidence".toList, "sources".toList] names = true ∧
      last = some (some "source_id".toList) then
    some "[redacted-source-id]"
  else if below ["evidence".toList, "sources".toList] names = true ∧
      last = some (some "relay_id".toList) then
    some "[redacted-relay-id]"
  else none

/-- Whether a position is that of a list of the ids of relays. -/
def namesTargets (names : List (Option Text)) : Bool :=
  names == ["publication".toList, "target_relay_ids".toList].map some ||
    names == ["presence".toList, "target_relay_ids".toList].map some

/-- Paths are redacted by the names of their steps. -/
theorem scalarRedaction_pointer {steps : List Step} (plain : Plain (steps.map Step.text)) :
    scalarRedaction (pointer steps) = namedRedaction (steps.map Step.name) := by
  have ends : ∀ {back key : String}, back.toList = '/' :: key.toList → '/' ∉ key.toList →
      ¬key.toList.all Char.isDigit = true →
      (endsWith (pointer steps) back = true ↔
        (steps.map Step.name).getLast? = some (some key.toList)) :=
    fun split noSlash word => endsWith_pointer_iff plain split noSlash word
  have envelope := @ends "/envelope_path" "envelope_path" rfl (by decide) (by decide)
  have credential := @ends "/credential_reference" "credential_reference" rfl (by decide)
    (by decide)
  have key := @ends "/expected_public_key" "expected_public_key" rfl (by decide)
    (by decide)
  have id := @ends "/id" "id" rfl (by decide) (by decide)
  have url := @ends "/url" "url" rfl (by decide) (by decide)
  have source := @ends "/source_id" "source_id" rfl (by decide) (by decide)
  have relay := @ends "/relay_id" "relay_id" rfl (by decide) (by decide)
  have listen := @pointer_eq_iff _ plain "/operations/listen".toList
    ["operations".toList, "listen".toList] rfl (by unfold Plain; decide) (by decide)
  have policy := @pointer_eq_iff _ plain "/evidence/policy_id".toList
    ["evidence".toList, "policy_id".toList] rfl (by unfold Plain; decide) (by decide)
  have relays := @startsWith_pointer_iff _ plain "/relays/" ["relays".toList] rfl
    (by unfold Plain; decide) (by decide)
  have sources := @startsWith_pointer_iff _ plain "/evidence/sources/"
    ["evidence".toList, "sources".toList] rfl (by unfold Plain; decide) (by decide)
  unfold scalarRedaction namedRedaction
  simp only [Bool.and_eq_true, envelope, credential, key, id, url, source, relay, listen, policy,
    relays, sources]

/-- Whether what is redacted of a position is what its kind asks for. -/
def redactsKind (names : List (Option Text)) : LeafKind → Bool
  | .plain => (namedRedaction names).isNone && !namesTargets names
  | .secret => (namedRedaction names).isSome
  | .targets => (namedRedaction names).isNone && namesTargets names

/-- The redaction of the leaves of a configuration is that of their kinds. -/
theorem redactsKind_everywhere : configShape.everywhere redactsKind [] = true := by
  decide +kernel

theorem redactsKind_at {steps : List Step} {kind : LeafKind} (found : configShape.At steps kind) :
    redactsKind (steps.map Step.name) kind = true :=
  found.check redactsKind_everywhere

theorem configShape_keysPlain : configShape.keysPlain = true := by
  decide +kernel

theorem children_of_takes (kind : LeafKind) (value : Value) (taken : kind.takes value = true) :
    value.children = [] := by
  cases kind with
  | plain => cases value <;> first | rfl | cases taken
  | secret => cases value <;> first | rfl | cases taken
  | targets =>
      cases value with
      | array elements =>
          cases elements with
          | nil => rfl
          | cons first rest =>
              cases first with
              | text => rfl
              | _ => cases taken
      | _ => cases taken

variable {steps : List Step}

theorem targets_pointer_iff (plain : Plain (steps.map Step.text)) :
    (pointer steps = "/publication/target_relay_ids".toList ∨
      pointer steps = "/presence/target_relay_ids".toList) ↔
      namesTargets (steps.map Step.name) = true := by
  have publication := @pointer_eq_iff _ plain "/publication/target_relay_ids".toList
    ["publication".toList, "target_relay_ids".toList] rfl (by unfold Plain; decide)
    (by decide)
  have presence := @pointer_eq_iff _ plain "/presence/target_relay_ids".toList
    ["presence".toList, "target_relay_ids".toList] rfl (by unfold Plain; decide)
    (by decide)
  rw [publication, presence, namesTargets, Bool.or_eq_true, beq_iff_eq, beq_iff_eq]

/-- A leaf that is not sensitive is shown as it is. -/
theorem redactedValue_plain (plain : Plain (steps.map Step.text))
    (found : configShape.At steps .plain) (value : Value) :
    redactedValue (pointer steps) value = value := by
  have kind := redactsKind_at found
  rw [redactsKind, Bool.and_eq_true, Option.isNone_iff_eq_none, Bool.not_eq_true'] at kind
  rcases kind with ⟨unredacted, untargeted⟩
  have other : ¬(pointer steps = "/publication/target_relay_ids".toList ∨
      pointer steps = "/presence/target_relay_ids".toList) := by
    rw [targets_pointer_iff plain, untargeted]
    exact Bool.false_ne_true
  rw [redactedValue, scalarRedaction_pointer plain, unredacted]
  exact if_neg other

/-- A sensitive text is shown as a text that does not depend on it. -/
theorem redactedValue_secret (plain : Plain (steps.map Step.text))
    (found : configShape.At steps .secret) (left right : Value) :
    redactedValue (pointer steps) left = redactedValue (pointer steps) right := by
  have kind := redactsKind_at found
  rw [redactsKind, Option.isSome_iff_exists] at kind
  rcases kind with ⟨redaction, redacted⟩
  rw [redactedValue, redactedValue, scalarRedaction_pointer plain, redacted]

/-- Of a list of the ids of relays only its length is shown. -/
theorem redactedValue_targets (plain : Plain (steps.map Step.text))
    (found : configShape.At steps .targets) {left right : Value}
    (count : elementCount left = elementCount right) :
    redactedValue (pointer steps) left = redactedValue (pointer steps) right := by
  have kind := redactsKind_at found
  rw [redactsKind, Bool.and_eq_true, Option.isNone_iff_eq_none] at kind
  rcases kind with ⟨unredacted, targeted⟩
  have here := (targets_pointer_iff plain).mpr targeted
  rw [redactedValue, redactedValue, scalarRedaction_pointer plain, unredacted]
  simp only [if_pos here, count]

end Kinds

section Guarantees

/-- A position that holds a sensitive value: the paths of envelopes, the references of credentials,
the expected public keys, the address of the operations listener, the id of the evidence policy, the
ids and URLs of relays, the ids of sources and of their relays, and the two lists of targets. -/
def Sensitive (steps : List Step) : Prop :=
  configShape.At steps .secret ∨ configShape.At steps .targets

/-- Two leaves of one position that differ in a sensitive value at most; lists of targets are of one
length. -/
structure SameButSensitive (steps : List Step) (left right : Value) : Prop where
  exact : ¬Sensitive steps → left = right
  count : configShape.At steps .targets → elementCount left = elementCount right

/-- Two documents that differ in their sensitive values only. -/
def DifferOnlyInSensitive (left right : Value) : Prop :=
  (∀ steps leaf, LeafAt left steps leaf →
    ∃ other, LeafAt right steps other ∧ SameButSensitive steps leaf other) ∧
  ∀ steps leaf, LeafAt right steps leaf →
    ∃ other, LeafAt left steps other ∧ SameButSensitive steps other leaf

/-- Two source documents that set the same paths. -/
def SetSamePaths (left right : TomlValue) : Prop :=
  ∀ path, (tomlPath left path).isSome = (tomlPath right path).isSome

/-- The leaves of a document as they are shown, under their paths. -/
def shown (normalized : Value) : List (Text × Value) :=
  (flattened normalized).map fun entry => (entry.1, redactedValue entry.1 entry.2)

theorem sorted_shown (normalized : Value) : SortedEntries.Sorted (shown normalized) := by
  rw [SortedEntries.Sorted, shown, List.pairwise_map]
  exact sorted_flattened normalized

/-- A field is what is shown of a leaf, and where it comes from. -/
theorem effectiveFields_eq (normalized : Value) (original : TomlValue) :
    effectiveFields normalized original =
      (shown normalized).map fun entry =>
        { effectiveField original entry.1 entry.2 with value := entry.2 } := by
  rw [shown, List.map_map]
  rfl

/-- The provenance of a path depends on the paths that are set. -/
theorem defaultAuthority_eq {left right : TomlValue} (same : SetSamePaths left right) :
    defaultAuthority left = defaultAuthority right := by
  funext path
  have absent : (tomlPath left path).isNone = (tomlPath right path).isNone := by
    rw [← Option.not_isSome, ← Option.not_isSome, same path]
  simp only [defaultAuthority, absent]

variable {isValid : Value → Bool}
  (closed : ∀ value, isValid value = true → configShape.admits LeafKind.takes value = true)

include closed

theorem ConfigDocument.wellNamed (document : ConfigDocument isValid) :
    WellNamed document.normalized :=
  Shape.wellNamed children_of_takes configShape_keysPlain
    (closed document.normalized document.valid) document.ordered

/-- The leaves of an admitted configuration have their kinds. -/
theorem ConfigDocument.at_of_leafAt (document : ConfigDocument isValid) {steps : List Step}
    {leaf : Value} (leafAt : LeafAt document.normalized steps leaf) :
    ∃ kind, configShape.At steps kind := by
  rcases Shape.at_of_leafAt children_of_takes (closed document.normalized document.valid)
    leafAt with
    ⟨kind, found, -⟩
  exact ⟨kind, found⟩

/-- Leaves that differ in a sensitive value at most are shown alike. -/
theorem ConfigDocument.redactedValue_eq (document : ConfigDocument isValid) {steps : List Step}
    {leaf other : Value} (leafAt : LeafAt document.normalized steps leaf)
    (same : SameButSensitive steps leaf other) :
    redactedValue (pointer steps) leaf = redactedValue (pointer steps) other := by
  have plain := leafAt.1.plain (document.wellNamed closed)
  rcases document.at_of_leafAt closed leafAt with ⟨kind, found⟩
  cases kind with
  | plain =>
      have exposed : ¬Sensitive steps := by
        rintro (secret | targets)
        · cases found.unique secret
        · cases found.unique targets
      rw [same.exact exposed]
  | secret => exact redactedValue_secret plain found leaf other
  | targets => exact redactedValue_targets plain found (same.count found)

theorem ConfigDocument.mem_shown_iff (document : ConfigDocument isValid) {path : Text}
    {value : Value} :
    (path, value) ∈ shown document.normalized ↔
      ∃ steps leaf, LeafAt document.normalized steps leaf ∧ path = pointer steps ∧
        value = redactedValue path leaf := by
  have wellNamed := document.wellNamed closed
  rw [shown, List.mem_map]
  constructor
  · rintro ⟨⟨listed, leaf⟩, member, same⟩
    rcases (mem_flattened_iff wellNamed).mp member with ⟨steps, leafAt, rfl⟩
    cases same
    exact ⟨steps, leaf, leafAt, rfl, rfl⟩
  · rintro ⟨steps, leaf, leafAt, rfl, rfl⟩
    exact ⟨(pointer steps, leaf), (mem_flattened_iff wellNamed).mpr ⟨steps, leafAt, rfl⟩, rfl⟩

/-- Documents that differ in their sensitive values only are shown alike. -/
theorem shown_eq {left right : ConfigDocument isValid}
    (same : DifferOnlyInSensitive left.normalized right.normalized) :
    shown left.normalized = shown right.normalized := by
  apply SortedEntries.eq_of_mem_iff (sorted_shown left.normalized) (sorted_shown right.normalized)
  rintro ⟨path, value⟩
  rw [left.mem_shown_iff closed, right.mem_shown_iff closed]
  constructor
  · rintro ⟨steps, leaf, leafAt, rfl, rfl⟩
    rcases same.1 steps leaf leafAt with ⟨other, otherAt, alike⟩
    exact ⟨steps, other, otherAt, rfl, left.redactedValue_eq closed leafAt alike⟩
  · rintro ⟨steps, leaf, leafAt, rfl, rfl⟩
    rcases same.2 steps leaf leafAt with ⟨other, otherAt, alike⟩
    exact ⟨steps, other, otherAt, rfl, (left.redactedValue_eq closed otherAt alike).symm⟩

theorem buildEffective_eq (floatText : UInt64 → Text) {left right : ConfigDocument isValid}
    (paths : SetSamePaths left.original right.original)
    (same : DifferOnlyInSensitive left.normalized right.normalized) :
    buildEffective floatText left.normalized left.original =
      buildEffective floatText right.normalized right.original := by
  have fields : effectiveFields left.normalized left.original =
      effectiveFields right.normalized right.original := by
    rw [effectiveFields_eq, effectiveFields_eq, shown_eq closed same]
    simp only [effectiveField, defaultAuthority_eq paths]
  simp only [buildEffective, fields]

omit closed

/-- The fields of a projection: their paths are in strict order, they are those of the leaves, which
are told apart by them, and a leaf that is not sensitive is shown with its value. -/
structure Projects (normalized : Value) (fields : List EffectiveField) : Prop where
  sorted : fields.Pairwise fun left right => left.path < right.path
  leaves : ∀ path, (∃ field ∈ fields, field.path = path) ↔
    ∃ steps leaf, LeafAt normalized steps leaf ∧ path = pointer steps
  unique : ∀ left right leftLeaf rightLeaf, LeafAt normalized left leftLeaf →
    LeafAt normalized right rightLeaf → pointer left = pointer right →
      left = right ∧ leftLeaf = rightLeaf
  exact : ∀ steps leaf, LeafAt normalized steps leaf → ¬Sensitive steps →
    ∃ field ∈ fields, field.path = pointer steps ∧ field.value = leaf

include closed

/-- A field stands for a leaf, and shows it. -/
theorem ConfigDocument.mem_effectiveFields_iff (document : ConfigDocument isValid)
    {field : EffectiveField} :
    field ∈ effectiveFields document.normalized document.original ↔
      ∃ steps leaf, LeafAt document.normalized steps leaf ∧
        field = effectiveField document.original (pointer steps) leaf := by
  have wellNamed := document.wellNamed closed
  rw [effectiveFields, List.mem_map]
  constructor
  · rintro ⟨⟨path, leaf⟩, member, rfl⟩
    rcases (mem_flattened_iff wellNamed).mp member with ⟨steps, leafAt, rfl⟩
    exact ⟨steps, leaf, leafAt, rfl⟩
  · rintro ⟨steps, leaf, leafAt, rfl⟩
    exact ⟨(pointer steps, leaf), (mem_flattened_iff wellNamed).mpr ⟨steps, leafAt, rfl⟩, rfl⟩

theorem ConfigDocument.projects (document : ConfigDocument isValid) :
    Projects document.normalized (effectiveFields document.normalized document.original) where
  sorted := by
    rw [effectiveFields, List.pairwise_map]
    exact sorted_flattened document.normalized
  leaves := by
    intro path
    constructor
    · rintro ⟨field, member, rfl⟩
      rcases (document.mem_effectiveFields_iff closed).mp member with ⟨steps, leaf, leafAt, rfl⟩
      exact ⟨steps, leaf, leafAt, rfl⟩
    · rintro ⟨steps, leaf, leafAt, rfl⟩
      exact ⟨_, (document.mem_effectiveFields_iff closed).mpr ⟨steps, leaf, leafAt, rfl⟩, rfl⟩
  unique := by
    intro left right leftLeaf rightLeaf leftAt rightAt same
    exact leftAt.1.unique (document.wellNamed closed) rightAt.1 same
  exact := by
    intro steps leaf leafAt exposed
    have plain := leafAt.1.plain (document.wellNamed closed)
    refine ⟨_, (document.mem_effectiveFields_iff closed).mpr ⟨steps, leaf, leafAt, rfl⟩, rfl, ?_⟩
    rcases document.at_of_leafAt closed leafAt with ⟨kind, found⟩
    cases kind with
    | plain => exact redactedValue_plain plain found leaf
    | secret => exact absurd (.inl found) exposed
    | targets => exact absurd (.inr found) exposed

omit closed

/-- Redaction hides the sensitive values, and nothing else.  A validator of the schema accepts only
documents whose objects have no properties but those of the schema, and whose leaves have its
types. -/
theorem effective_noninterfering (floatText : UInt64 → Text)
    (closed : ∀ value, isValid value = true → configShape.admits LeafKind.takes value = true) :
    (∀ left right : ConfigDocument isValid, SetSamePaths left.original right.original →
      DifferOnlyInSensitive left.normalized right.normalized →
        buildEffective floatText left.normalized left.original =
          buildEffective floatText right.normalized right.original) ∧
      ∀ document : ConfigDocument isValid,
        let fields := effectiveFields document.normalized document.original
        let text := projectionText floatText fields
        Projects document.normalized fields ∧
          ((utf8 text).length ≤ configEffectiveMaxBytes →
            buildEffective floatText document.normalized document.original =
              .ok ⟨text, fields.length⟩) ∧
          (configEffectiveMaxBytes < (utf8 text).length →
            buildEffective floatText document.normalized document.original = .error .encoding) ∧
          ∀ effective,
            buildEffective floatText document.normalized document.original = .ok effective →
              effective.canonicalJson = text := by
  constructor
  · exact fun left right paths same => buildEffective_eq closed floatText paths same
  · intro document fields text
    refine ⟨document.projects closed, buildEffective_eq_ok, buildEffective_eq_error, ?_⟩
    intro effective built
    rcases bind_eq_ok.mp built with ⟨_, -, made⟩
    rw [← pure_eq_ok.mp made]

end Guarantees

section Replacement

/-- The replacement of one member leaves the leaves of the others where they were. -/
theorem leafAt_replace {front back : List (String × Value)} {key : String} {old new leaf : Value}
    {steps : List Step} (leafAt : LeafAt (.object (front ++ (key, old) :: back)) steps leaf) :
    LeafAt (.object (front ++ (key, new) :: back)) steps leaf ∨
      ∃ rest, steps = .member key :: rest ∧ LeafAt old rest leaf := by
  rcases leafAt with ⟨stands, isLeaf⟩
  cases stands with
  | here => cases isLeaf
  | down member later =>
      rcases List.mem_map.mp member with ⟨⟨name, child⟩, present, same⟩
      cases same
      rw [List.mem_append, List.mem_cons] at present
      rcases present with present | same | present
      · refine .inl ⟨.down (List.mem_map.mpr ⟨(name, child), ?_, rfl⟩) later, isLeaf⟩
        exact List.mem_append_left _ present
      · cases same
        exact .inr ⟨_, rfl, later, isLeaf⟩
      · refine .inl ⟨.down (List.mem_map.mpr ⟨(name, child), ?_, rfl⟩) later, isLeaf⟩
        exact List.mem_append_right _ (List.mem_cons_of_mem _ present)

theorem leafAt_member {front back : List (String × Value)} {key : String} {child leaf : Value}
    {steps : List Step} (leafAt : LeafAt child steps leaf) :
    LeafAt (.object (front ++ (key, child) :: back)) (.member key :: steps) leaf := by
  refine ⟨.down (List.mem_map.mpr ⟨(key, child), ?_, rfl⟩) leafAt.1, leafAt.2⟩
  exact List.mem_append_right _ List.mem_cons_self

/-- Two source values below which the same parts of paths are set. -/
def SetSameParts (left right : TomlValue) : Prop :=
  ∀ parts : List Text,
    (parts.foldlM tomlStep left).isSome = (parts.foldlM tomlStep right).isSome

/-- The replacement of a member by one that sets the same parts sets the same parts. -/
theorem setSameParts_replace {front back : List (String × TomlValue)} {key : String}
    {old new : TomlValue} (same : SetSameParts old new) :
    SetSameParts (.table (front ++ (key, old) :: back)) (.table (front ++ (key, new) :: back)) := by
  have lookups : ∀ name, (front ++ (key, old) :: back).lookup name =
        (front ++ (key, new) :: back).lookup name ∨
      ((front ++ (key, old) :: back).lookup name = some old ∧
        (front ++ (key, new) :: back).lookup name = some new) := by
    intro name
    induction front with
    | nil =>
        rw [List.nil_append, List.nil_append, List.lookup_cons, List.lookup_cons]
        cases name == key with
        | true => exact .inr ⟨rfl, rfl⟩
        | false => exact .inl rfl
    | cons first front ih =>
        rw [List.cons_append, List.cons_append, List.lookup_cons, List.lookup_cons]
        cases name == first.1 with
        | true => exact .inl rfl
        | false => exact ih
  intro parts
  cases parts with
  | nil => rfl
  | cons part parts =>
      rw [List.foldlM_cons, List.foldlM_cons]
      unfold tomlStep
      cases parseUsize part with
      | some index => rfl
      | none =>
          rcases lookups (String.ofList part) with equal | ⟨left, right⟩
          · simp only [equal]
          · simp only [left, right]
            exact same parts

end Replacement

section Exceptions

namespace Sample.Redaction

def number (value : Nat) : Value := .number (.integer value)

def publicKey : String := String.ofList (List.replicate 64 '2')

/-- The sources of a configuration, behind the id of its policy. -/
def policySources : List (String × Value) := [
    ("sources", .array [.object [("deadline_ms", number 10000), ("kind", .text "nostr_relay"),
      ("lookback_seconds", number 86400), ("overlap_seconds", number 300),
      ("relay_id", .text "primary"), ("required", .boolean true),
      ("selector", .text "trade_mutation_lineage_v1"), ("source_id", .text "trades")]])]

def evidenceOf (policy : String) : List (String × Value) :=
  [("contract", .text "radroots.rhi.evidence-policy"), ("contract_version", number 1)] ++
    ("policy_id", .text policy) :: policySources

def sectionsBefore : List (String × Value) := [
    ("attestation", .object [("contract", .text "radroots.rhi.evidence_attestation.v1"),
      ("contract_version", number 1), ("method", .text "signed_evidence_snapshot"),
      ("reducer_contract", .text "radroots.trade.reducer.v1"),
      ("reducer_contract_version", number 1)]),
    ("database", .object [("busy_timeout_ms", number 5000), ("max_connections", number 8),
      ("minimum_free_bytes", number 268435456)])]

def sectionsAfter : List (String × Value) := [
    ("identity",
      .object [("service", .object [("credential_reference", .text "service_wrapping_key"),
      ("envelope_path", .text "/var/lib/rhi/identity"),
      ("expected_public_key", .text publicKey),
      ("provider", .text "encrypted_file")])]),
    ("logging", .object [("format", .text "json"), ("level", .text "info")]),
    ("network", .object [("connect_deadline_ms", number 10000), ("dns_answer_limit", number 16)]),
    ("operations", .object [("enabled", .boolean false)]),
    ("presence", .object [("application_handler", .boolean false), ("enabled", .boolean false),
      ("profile", .boolean false)]),
    ("publication", .object [("mode", .text "disabled")]),
    ("reconciliation", .object [("attempt_deadline_ms", number 30000), ("concurrency", number 8),
      ("initial_backoff_ms", number 250), ("lease_ms", number 30000),
      ("lease_renewal_ms", number 10000), ("max_attempts", number 10),
      ("maximum_backoff_ms", number 30000), ("queue_capacity", number 4096)]),
    ("relays", .array [.object [("authentication", .text "none"), ("id", .text "primary"),
      ("read", .boolean true), ("required", .boolean true),
      ("url", .text "wss://relay.example.com/"), ("write", .boolean true)]]),
    ("resource_limits", .object [("admin", .object [("concurrent_connections", number 32),
      ("header_bytes", number 16384), ("header_count", number 32),
      ("idle_timeout_ms", number 30000), ("query_items", number 100),
      ("request_body_utf8_bytes", number 65536), ("request_deadline_ms", number 15000),
      ("response_body_utf8_bytes", number 1048576)]),
      ("events", .object [("content_bytes", number 131072), ("tag_count", number 1024),
      ("tag_element_bytes", number 4096), ("tag_total_bytes", number 131072),
      ("tag_total_elements", number 4096), ("wire_bytes", number 262144)]),
      ("metrics", .object [("descriptors", number 64), ("labels_per_sample", number 8),
      ("render_utf8_bytes", number 1048576), ("samples", number 512)]),
      ("queues", .object [("ingress", number 1024), ("presence", number 64),
      ("publication", number 4096), ("reconciliation", number 4096)]),
      ("runtime", .object [("blocking_threads", number 8), ("worker_threads", number 4)]),
      ("source_results", .object [("bytes", number 8388608), ("events", number 4096)])]),
    ("retention", .object [("audit_ms", number 31536000000),
      ("completed_jobs_ms", number 2592000000), ("duplicate_observations_ms", number 604800000),
      ("operation_dedup_ms", number 604800000),
      ("terminal_presence_attempts_ms", number 2592000000),
      ("terminal_publication_attempts_ms", number 2592000000)]),
    ("schema", .text "radroots.rhi.config"),
    ("schema_version", number 1),
    ("service", .object [("shutdown_grace_ms", number 30000)])]

/-- A configuration with nothing enabled, of one policy or another. -/
def normalizedOf (policy : String) : Value :=
  .object (sectionsBefore ++ ("evidence", .object (evidenceOf policy)) :: sectionsAfter)

def sourceSources : List (String × TomlValue) := [
    ("sources", .array [.table [("deadline_ms", .integer 10000), ("kind", .text "nostr_relay"),
      ("lookback_seconds", .integer 86400), ("overlap_seconds", .integer 300),
      ("relay_id", .text "primary"), ("required", .boolean true),
      ("selector", .text "trade_mutation_lineage_v1"), ("source_id", .text "trades")]])]

def sourceEvidenceOf (policy : String) : List (String × TomlValue) :=
  [("contract", .text "radroots.rhi.evidence-policy"), ("contract_version", .integer 1)] ++
    ("policy_id", .text policy) :: sourceSources

def sourceBefore : List (String × TomlValue) := [
    ("attestation", .table [("contract", .text "radroots.rhi.evidence_attestation.v1"),
      ("contract_version", .integer 1), ("method", .text "signed_evidence_snapshot"),
      ("reducer_contract", .text "radroots.trade.reducer.v1"),
      ("reducer_contract_version", .integer 1)]),
    ("database", .table [("minimum_free_bytes", .integer 268435456)])]

def sourceAfter : List (String × TomlValue) := [
    ("identity", .table [("service", .table [("credential_reference", .text "service_wrapping_key"),
      ("envelope_path", .text "/var/lib/rhi/identity"),
      ("expected_public_key", .text publicKey),
      ("provider", .text "encrypted_file")])]),
    ("logging", .table []),
    ("network", .table []),
    ("operations", .table [("enabled", .boolean false)]),
    ("presence", .table [("application_handler", .boolean false), ("enabled", .boolean false),
      ("profile", .boolean false)]),
    ("publication", .table [("mode", .text "disabled")]),
    ("reconciliation", .table []),
    ("relays", .array [.table [("authentication", .text "none"), ("id", .text "primary"),
      ("read", .boolean true), ("required", .boolean true),
      ("url", .text "wss://relay.example.com/"), ("write", .boolean true)]]),
    ("resource_limits", .table []),
    ("retention", .table [("audit_ms", .integer 31536000000),
      ("completed_jobs_ms", .integer 2592000000),
      ("duplicate_observations_ms", .integer 604800000),
      ("operation_dedup_ms", .integer 604800000),
      ("terminal_presence_attempts_ms", .integer 2592000000),
      ("terminal_publication_attempts_ms", .integer 2592000000)]),
    ("schema", .text "radroots.rhi.config"),
    ("schema_version", .integer 1),
    ("service", .table [])]

/-- The source document of the configuration. -/
def originalOf (policy : String) : TomlValue :=
  .table (sourceBefore ++ ("evidence", .table (sourceEvidenceOf policy)) :: sourceAfter)

theorem normalizedOf_leafAt {policy other : String} {steps : List Step} {leaf : Value}
    (leafAt : LeafAt (normalizedOf policy) steps leaf) :
    LeafAt (normalizedOf other) steps leaf ∨
      (steps = [.member "evidence", .member "policy_id"] ∧ leaf = .text policy) := by
  rcases @leafAt_replace _ _ _ _ (.object (evidenceOf other)) _ _ leafAt with
    unchanged | ⟨rest, rfl, below⟩
  · exact .inl unchanged
  · rcases @leafAt_replace _ _ _ _ (.text other) _ _ below with unchanged | ⟨rest, rfl, here⟩
    · exact .inl (leafAt_member unchanged)
    · rcases here with ⟨stands, -⟩
      cases stands with
      | here => exact .inr ⟨rfl, rfl⟩
      | down member => cases member

theorem policy_leafAt (policy : String) :
    LeafAt (normalizedOf policy) [.member "evidence", .member "policy_id"] (.text policy) :=
  leafAt_member (leafAt_member ⟨.here, rfl⟩)

theorem policy_sensitive : Sensitive [.member "evidence", .member "policy_id"] :=
  .inl (.member rfl (.member rfl .leaf))

theorem policies_differ (left right : String) :
    DifferOnlyInSensitive (normalizedOf left) (normalizedOf right) := by
  have oneWay : ∀ first second : String, ∀ steps leaf, LeafAt (normalizedOf first) steps leaf →
      ∃ other, LeafAt (normalizedOf second) steps other ∧ SameButSensitive steps leaf other ∧
        SameButSensitive steps other leaf := by
    intro first second steps leaf leafAt
    rcases @normalizedOf_leafAt _ second _ _ leafAt with unchanged | ⟨rfl, rfl⟩
    · exact ⟨leaf, unchanged, ⟨fun _ => rfl, fun _ => rfl⟩, ⟨fun _ => rfl, fun _ => rfl⟩⟩
    · refine ⟨.text second, policy_leafAt second, ⟨?_, fun _ => rfl⟩, ⟨?_, fun _ => rfl⟩⟩
      · exact fun exposed => absurd policy_sensitive exposed
      · exact fun exposed => absurd policy_sensitive exposed
  constructor
  · intro steps leaf leafAt
    rcases oneWay left right steps leaf leafAt with ⟨other, otherAt, alike, -⟩
    exact ⟨other, otherAt, alike⟩
  · intro steps leaf leafAt
    rcases oneWay right left steps leaf leafAt with ⟨other, otherAt, -, alike⟩
    exact ⟨other, otherAt, alike⟩

theorem policies_setSamePaths (left right : String) :
    SetSamePaths (originalOf left) (originalOf right) := by
  intro path
  have texts : SetSameParts (.text left) (.text right) := by
    intro parts
    cases parts with
    | nil => rfl
    | cons part parts =>
        rw [List.foldlM_cons, List.foldlM_cons]
        unfold tomlStep
        cases parseUsize part <;> rfl
  exact setSameParts_replace (setSameParts_replace texts) _

theorem valid_normalizedOf (policy : String) :
    configShape.admits LeafKind.takes (normalizedOf policy) = true := by
  rfl

/-- The configuration of a policy, under a validator that checks the shape. -/
def documentOf (policy : String) (inOrder : (normalizedOf policy).inOrder = true)
    (valid : configShape.admits LeafKind.takes (normalizedOf policy) = true) :
    ConfigDocument (configShape.admits LeafKind.takes) where
  original := originalOf policy
  normalized := normalizedOf policy
  ordered := ordered_of_inOrder inOrder
  valid := valid

theorem normalizedOf_short :
    (leaves [] (normalizedOf "primary")).length ≤ 128 ∧
    ∀ entry ∈ leaves [] (normalizedOf "primary"), elementCount entry.2 = 0 ∧
      6 * entry.1.length + (entry.2.print fun _ => []).length ≤ 1024 := by
  decide +kernel

theorem normalizedOf_fits : (utf8 (projectionText (fun _ => [])
    (effectiveFields (normalizedOf "primary") (originalOf "primary")))).length ≤
      configEffectiveMaxBytes := by
  rcases normalizedOf_short with ⟨few, short⟩
  refine (length_projectionText_leaves_le _ (originalOf "primary") short).trans ?_
  calc 4 * ((1024 + 257) * (leaves [] (normalizedOf "primary")).length + 128)
      ≤ 4 * ((1024 + 257) * 128 + 128) := by gcongr
    _ ≤ configEffectiveMaxBytes := by decide

/-- Two policies are shown, and shown alike. -/
theorem policies_shown_alike :
    (∀ floatText, buildEffective floatText (normalizedOf "primary") (originalOf "primary") =
      buildEffective floatText (normalizedOf "secondary") (originalOf "secondary")) ∧
      Projects (normalizedOf "primary")
        (effectiveFields (normalizedOf "primary") (originalOf "primary")) ∧
      ∃ effective : EffectiveConfig,
        buildEffective (fun _ => []) (normalizedOf "primary") (originalOf "primary") =
          .ok effective ∧
        buildEffective (fun _ => []) (normalizedOf "secondary") (originalOf "secondary") =
          .ok effective ∧
        effective.canonicalJson = projectionText (fun _ => [])
          (effectiveFields (normalizedOf "primary") (originalOf "primary")) := by
  let first := documentOf "primary" (by decide +kernel) (valid_normalizedOf _)
  let second := documentOf "secondary" (by decide +kernel) (valid_normalizedOf _)
  have alike : ∀ floatText,
      buildEffective floatText (normalizedOf "primary") (originalOf "primary") =
        buildEffective floatText (normalizedOf "secondary") (originalOf "secondary") := by
    intro floatText
    exact (effective_noninterfering floatText fun _ valid => valid).1 first second
      (policies_setSamePaths "primary" "secondary") (policies_differ "primary" "secondary")
  rcases (effective_noninterfering (fun _ => []) fun _ valid => valid).2 first with
    ⟨projects, shown, -, -⟩
  have built := shown normalizedOf_fits
  exact ⟨alike, projects, _, built, (alike _).symm.trans built, rfl⟩

end Sample.Redaction

end Exceptions

end Rhi
