import Mathlib.Data.Char
import Mathlib.Data.List.Lex
import Rhi.Admission
import Rhi.Lib.Document
import Rhi.Lib.SortedEntries

/-!
# The effective configuration

A configuration is shown as the list of its leaves, with the sensitive ones redacted, and with each
leaf it is said whether the source document sets it.  Leaves are known by their paths alone, both
where they are redacted and where they are looked up in the source document.
-/

namespace Rhi

open Json Transactional

section Shape

/-- The kinds of leaves a configuration has: the sensitive ones are texts, and lists of the ids of
relays. -/
inductive LeafKind where
  | plain
  | secret
  | targets
deriving DecidableEq, Repr

/-- Whether a value is of a kind. -/
def LeafKind.takes : LeafKind → Value → Bool
  | .plain, .null | .plain, .boolean _ | .plain, .number _ | .plain, .text _ => true
  | .secret, .text _ => true
  | .targets, .array elements => elements.all fun element => match element with
      | .text _ => true
      | _ => false
  | _, _ => false

def serviceShape : Shape LeafKind :=
  .object [
    ("shutdown_grace_ms", .leaf .plain)]

def loggingShape : Shape LeafKind :=
  .object [
    ("level", .leaf .plain), ("format", .leaf .plain)]

def operationsLimitsShape : Shape LeafKind :=
  .object [
    ("header_count", .leaf .plain), ("header_bytes", .leaf .plain),
    ("response_body_utf8_bytes", .leaf .plain), ("concurrent_connections", .leaf .plain),
    ("request_deadline_ms", .leaf .plain), ("idle_timeout_ms", .leaf .plain)]

def operationsShape : Shape LeafKind :=
  .object [
    ("enabled", .leaf .plain), ("listen", .leaf .secret), ("bind_policy", .leaf .plain),
    ("limits", operationsLimitsShape)]

def databaseShape : Shape LeafKind :=
  .object [
    ("busy_timeout_ms", .leaf .plain), ("max_connections", .leaf .plain),
    ("minimum_free_bytes", .leaf .plain)]

def encryptedFileIdentityShape : Shape LeafKind :=
  .object [
    ("provider", .leaf .plain), ("envelope_path", .leaf .secret),
    ("credential_reference", .leaf .secret), ("expected_public_key", .leaf .secret)]

def identityShape : Shape LeafKind :=
  .object [
    ("service", encryptedFileIdentityShape)]

def relayShape : Shape LeafKind :=
  .object [
    ("id", .leaf .secret), ("url", .leaf .secret), ("read", .leaf .plain),
    ("write", .leaf .plain), ("required", .leaf .plain), ("authentication", .leaf .plain)]

def networkShape : Shape LeafKind :=
  .object [
    ("connect_deadline_ms", .leaf .plain), ("dns_answer_limit", .leaf .plain)]

def evidenceSourceShape : Shape LeafKind :=
  .object [
    ("source_id", .leaf .secret), ("kind", .leaf .plain), ("relay_id", .leaf .secret),
    ("required", .leaf .plain), ("selector", .leaf .plain), ("deadline_ms", .leaf .plain),
    ("lookback_seconds", .leaf .plain), ("overlap_seconds", .leaf .plain)]

def evidenceShape : Shape LeafKind :=
  .object [
    ("contract", .leaf .plain), ("contract_version", .leaf .plain), ("policy_id", .leaf .secret),
    ("sources", .list evidenceSourceShape)]

def reconciliationShape : Shape LeafKind :=
  .object [
    ("concurrency", .leaf .plain), ("queue_capacity", .leaf .plain), ("lease_ms", .leaf .plain),
    ("lease_renewal_ms", .leaf .plain), ("max_attempts", .leaf .plain),
    ("initial_backoff_ms", .leaf .plain), ("maximum_backoff_ms", .leaf .plain),
    ("attempt_deadline_ms", .leaf .plain)]

def attestationShape : Shape LeafKind :=
  .object [
    ("contract", .leaf .plain), ("contract_version", .leaf .plain), ("method", .leaf .plain),
    ("reducer_contract", .leaf .plain), ("reducer_contract_version", .leaf .plain)]

def retryShape : Shape LeafKind :=
  .object [
    ("max_attempts", .leaf .plain), ("initial_backoff_ms", .leaf .plain),
    ("maximum_backoff_ms", .leaf .plain), ("attempt_deadline_ms", .leaf .plain)]

def publicationShape : Shape LeafKind :=
  .object [
    ("mode", .leaf .plain), ("target_relay_ids", .leaf .targets), ("retry", retryShape)]

def presenceShape : Shape LeafKind :=
  .object [
    ("enabled", .leaf .plain), ("profile", .leaf .plain), ("application_handler", .leaf .plain),
    ("target_relay_ids", .leaf .targets)]

def adminLimitsShape : Shape LeafKind :=
  .object [
    ("header_count", .leaf .plain), ("header_bytes", .leaf .plain),
    ("request_body_utf8_bytes", .leaf .plain), ("response_body_utf8_bytes", .leaf .plain),
    ("concurrent_connections", .leaf .plain), ("request_deadline_ms", .leaf .plain),
    ("idle_timeout_ms", .leaf .plain), ("query_items", .leaf .plain)]

def eventLimitsShape : Shape LeafKind :=
  .object [
    ("wire_bytes", .leaf .plain), ("content_bytes", .leaf .plain), ("tag_count", .leaf .plain),
    ("tag_total_elements", .leaf .plain), ("tag_element_bytes", .leaf .plain),
    ("tag_total_bytes", .leaf .plain)]

def sourceResultLimitsShape : Shape LeafKind :=
  .object [
    ("events", .leaf .plain), ("bytes", .leaf .plain)]

def queueLimitsShape : Shape LeafKind :=
  .object [
    ("ingress", .leaf .plain), ("reconciliation", .leaf .plain), ("publication", .leaf .plain),
    ("presence", .leaf .plain)]

def metricsLimitsShape : Shape LeafKind :=
  .object [
    ("descriptors", .leaf .plain), ("samples", .leaf .plain), ("labels_per_sample", .leaf .plain),
    ("render_utf8_bytes", .leaf .plain)]

def runtimeLimitsShape : Shape LeafKind :=
  .object [
    ("worker_threads", .leaf .plain), ("blocking_threads", .leaf .plain)]

def resourceLimitsShape : Shape LeafKind :=
  .object [
    ("admin", adminLimitsShape), ("events", eventLimitsShape),
    ("source_results", sourceResultLimitsShape), ("queues", queueLimitsShape),
    ("metrics", metricsLimitsShape), ("runtime", runtimeLimitsShape)]

def retentionShape : Shape LeafKind :=
  .object [
    ("duplicate_observations_ms", .leaf .plain), ("completed_jobs_ms", .leaf .plain),
    ("terminal_publication_attempts_ms", .leaf .plain),
    ("terminal_presence_attempts_ms", .leaf .plain), ("operation_dedup_ms", .leaf .plain),
    ("audit_ms", .leaf .plain)]

def configShape : Shape LeafKind :=
  .object [
    ("schema", .leaf .plain), ("schema_version", .leaf .plain), ("service", serviceShape),
    ("logging", loggingShape), ("operations", operationsShape), ("database", databaseShape),
    ("identity", identityShape), ("relays", .list relayShape), ("network", networkShape),
    ("evidence", evidenceShape), ("reconciliation", reconciliationShape),
    ("attestation", attestationShape), ("publication", publicationShape),
    ("presence", presenceShape), ("resource_limits", resourceLimitsShape),
    ("retention", retentionShape)]

end Shape

section Documents

/-- `toml::Value`. -/
inductive TomlValue where
  | text (value : String)
  | integer (value : Int)
  | float (bits : UInt64)
  | boolean (value : Bool)
  | datetime (value : String)
  | array (elements : List TomlValue)
  | table (members : List (String × TomlValue))

/-- `str::parse::<usize>`. -/
def parseUsize (text : Text) : Option Nat :=
  let digits := match text with
    | '+' :: rest => rest
    | _ => text
  if digits ≠ [] ∧ digits.all Char.isDigit ∧ Nat.ofDigitChars 10 digits 0 < 2 ^ 64 then
    some (Nat.ofDigitChars 10 digits 0)
  else
    none

/-- One step of `toml_path`. -/
def tomlStep (value : TomlValue) (part : Text) : Option TomlValue :=
  match parseUsize part, value with
  | some index, .array elements => elements[index]?
  | none, .table members => members.lookup (String.ofList part)
  | _, _ => none

/-- `toml_path`. -/
def tomlPath (root : TomlValue) (path : Text) : Option TomlValue :=
  ((path.splitOn '/').filter fun part => !part.isEmpty).foldlM tomlStep root

/-- An admitted configuration, as far as it is shown: the source document, and the document with the
defaults that the validator of the schema accepts. -/
structure ConfigDocument (isValid : Value → Bool) where
  original : TomlValue
  normalized : Value
  /-- Objects are ordered maps. -/
  ordered : Ordered normalized
  valid : isValid normalized = true

end Documents

section Projection

/-- `RhiConfigValueSource`, as far as the projection uses it. -/
inductive ConfigValueSource where
  | toml
  | safeDefault
deriving DecidableEq, Repr

def ConfigValueSource.text : ConfigValueSource → String
  | .toml => "toml"
  | .safeDefault => "safe_default"

/-- `RhiConfigDefaultAuthority`. -/
inductive ConfigDefaultAuthority where
  | radrootsServiceHost
  | radrootsServiceSqlite
  | radrootsEvent
  | rhiEvidencePolicy
  | acceptedServiceAuthority
  | engineeringSafety
deriving DecidableEq, Repr

def ConfigDefaultAuthority.text : ConfigDefaultAuthority → String
  | .radrootsServiceHost => "radroots_service_host"
  | .radrootsServiceSqlite => "radroots_service_sqlite"
  | .radrootsEvent => "radroots_event"
  | .rhiEvidencePolicy => "rhi_evidence_policy"
  | .acceptedServiceAuthority => "accepted_service_authority"
  | .engineeringSafety => "engineering_safety"

/-- `DefaultEntry`, without the value that the projection does not read. -/
structure DefaultEntry where
  path : String
  authority : ConfigDefaultAuthority
deriving DecidableEq, Repr

/-- `DEFAULTS`. -/
def configDefaults : List DefaultEntry :=
  [⟨"/service/shutdown_grace_ms", .acceptedServiceAuthority⟩,
    ⟨"/logging/level", .engineeringSafety⟩,
    ⟨"/logging/format", .engineeringSafety⟩,
    ⟨"/operations/limits/header_count", .radrootsServiceHost⟩,
    ⟨"/operations/limits/header_bytes", .radrootsServiceHost⟩,
    ⟨"/operations/limits/response_body_utf8_bytes", .radrootsServiceHost⟩,
    ⟨"/operations/limits/concurrent_connections", .radrootsServiceHost⟩,
    ⟨"/operations/limits/request_deadline_ms", .radrootsServiceHost⟩,
    ⟨"/operations/limits/idle_timeout_ms", .radrootsServiceHost⟩,
    ⟨"/database/busy_timeout_ms", .radrootsServiceSqlite⟩,
    ⟨"/database/max_connections", .radrootsServiceSqlite⟩,
    ⟨"/network/connect_deadline_ms", .engineeringSafety⟩,
    ⟨"/network/dns_answer_limit", .engineeringSafety⟩,
    ⟨"/reconciliation/concurrency", .engineeringSafety⟩,
    ⟨"/reconciliation/queue_capacity", .engineeringSafety⟩,
    ⟨"/reconciliation/lease_ms", .engineeringSafety⟩,
    ⟨"/reconciliation/lease_renewal_ms", .engineeringSafety⟩,
    ⟨"/reconciliation/max_attempts", .engineeringSafety⟩,
    ⟨"/reconciliation/initial_backoff_ms", .engineeringSafety⟩,
    ⟨"/reconciliation/maximum_backoff_ms", .engineeringSafety⟩,
    ⟨"/reconciliation/attempt_deadline_ms", .engineeringSafety⟩,
    ⟨"/publication/retry/max_attempts", .engineeringSafety⟩,
    ⟨"/publication/retry/initial_backoff_ms", .engineeringSafety⟩,
    ⟨"/publication/retry/maximum_backoff_ms", .engineeringSafety⟩,
    ⟨"/publication/retry/attempt_deadline_ms", .engineeringSafety⟩,
    ⟨"/resource_limits/admin/header_count", .radrootsServiceHost⟩,
    ⟨"/resource_limits/admin/header_bytes", .radrootsServiceHost⟩,
    ⟨"/resource_limits/admin/request_body_utf8_bytes", .radrootsServiceHost⟩,
    ⟨"/resource_limits/admin/response_body_utf8_bytes", .radrootsServiceHost⟩,
    ⟨"/resource_limits/admin/concurrent_connections", .radrootsServiceHost⟩,
    ⟨"/resource_limits/admin/request_deadline_ms", .radrootsServiceHost⟩,
    ⟨"/resource_limits/admin/idle_timeout_ms", .radrootsServiceHost⟩,
    ⟨"/resource_limits/admin/query_items", .acceptedServiceAuthority⟩,
    ⟨"/resource_limits/events/wire_bytes", .radrootsEvent⟩,
    ⟨"/resource_limits/events/content_bytes", .radrootsEvent⟩,
    ⟨"/resource_limits/events/tag_count", .radrootsEvent⟩,
    ⟨"/resource_limits/events/tag_total_elements", .radrootsEvent⟩,
    ⟨"/resource_limits/events/tag_element_bytes", .radrootsEvent⟩,
    ⟨"/resource_limits/events/tag_total_bytes", .radrootsEvent⟩,
    ⟨"/resource_limits/source_results/events", .rhiEvidencePolicy⟩,
    ⟨"/resource_limits/source_results/bytes", .rhiEvidencePolicy⟩,
    ⟨"/resource_limits/queues/ingress", .engineeringSafety⟩,
    ⟨"/resource_limits/queues/reconciliation", .engineeringSafety⟩,
    ⟨"/resource_limits/queues/publication", .engineeringSafety⟩,
    ⟨"/resource_limits/queues/presence", .engineeringSafety⟩,
    ⟨"/resource_limits/metrics/descriptors", .radrootsServiceHost⟩,
    ⟨"/resource_limits/metrics/samples", .radrootsServiceHost⟩,
    ⟨"/resource_limits/metrics/labels_per_sample", .radrootsServiceHost⟩,
    ⟨"/resource_limits/metrics/render_utf8_bytes", .radrootsServiceHost⟩,
    ⟨"/resource_limits/runtime/worker_threads", .engineeringSafety⟩,
    ⟨"/resource_limits/runtime/blocking_threads", .engineeringSafety⟩]

/-- `default_entry`. -/
def defaultEntry (path : Text) : Option DefaultEntry :=
  configDefaults.find? fun entry => entry.path.toList == path

mutual

/-- `flatten_value`. -/
def flattenValue (path : Text) : Value → List (Text × Value) → List (Text × Value)
  | .object members, fields => flattenMembers path members fields
  | .array elements, fields =>
      if elements.all Value.isObject then
        flattenElements path 0 elements fields
      else
        SortedEntries.insert (path, .array elements) fields
  | .null, fields => SortedEntries.insert (path, .null) fields
  | .boolean value, fields => SortedEntries.insert (path, .boolean value) fields
  | .number value, fields => SortedEntries.insert (path, .number value) fields
  | .text value, fields => SortedEntries.insert (path, .text value) fields

/-- The loop of `flatten_value` over the members of an object. -/
def flattenMembers (path : Text) :
    List (String × Value) → List (Text × Value) → List (Text × Value)
  | [], fields => fields
  | (key, child) :: rest, fields =>
      flattenMembers path rest (flattenValue (path ++ '/' :: key.toList) child fields)

/-- The loop of `flatten_value` over the elements of an array, from an index on. -/
def flattenElements (path : Text) (index : Nat) :
    List Value → List (Text × Value) → List (Text × Value)
  | [], fields => fields
  | child :: rest, fields =>
      flattenElements path (index + 1) rest
        (flattenValue (path ++ '/' :: Nat.toDigits 10 index) child fields)

end

/-- `str::starts_with`. -/
def startsWith (text : Text) (front : String) : Bool := front.toList.isPrefixOf text

/-- `str::ends_with`. -/
def endsWith (text : Text) (back : String) : Bool := back.toList.isSuffixOf text

/-- The text that `redacted_value` puts in the place of a sensitive text. -/
def scalarRedaction (path : Text) : Option String :=
  if endsWith path "/envelope_path" then some "[redacted-path]"
  else if endsWith path "/credential_reference" then some "[redacted-credential-reference]"
  else if endsWith path "/expected_public_key" then some "[redacted-public-key]"
  else if path = "/operations/listen".toList then some "[redacted-address]"
  else if path = "/evidence/policy_id".toList then some "[redacted-policy-id]"
  else if startsWith path "/relays/" && endsWith path "/id" then some "[redacted-relay-id]"
  else if startsWith path "/relays/" && endsWith path "/url" then some "[redacted-url]"
  else if startsWith path "/evidence/sources/" && endsWith path "/source_id" then
    some "[redacted-source-id]"
  else if startsWith path "/evidence/sources/" && endsWith path "/relay_id" then
    some "[redacted-relay-id]"
  else none

/-- The length of an array, and zero for any other value. -/
def elementCount : Value → Nat
  | .array elements => elements.length
  | _ => 0

/-- `redacted_value`. -/
def redactedValue (path : Text) (value : Value) : Value :=
  match scalarRedaction path with
  | some redaction => .text redaction
  | none =>
      if path = "/publication/target_relay_ids".toList ∨
          path = "/presence/target_relay_ids".toList then
        .object [("count", .number (.integer (elementCount value))), ("values", .text "[redacted]")]
      else
        value

/-- `EffectiveField`. -/
structure EffectiveField where
  path : Text
  source : ConfigValueSource
  defaultAuthority : Option ConfigDefaultAuthority
  value : Value

/-- The authority of a default that the source document leaves to it. -/
def defaultAuthority (original : TomlValue) (path : Text) : Option ConfigDefaultAuthority :=
  (defaultEntry path).bind fun entry =>
    if (tomlPath original path).isNone then some entry.authority else none

/-- The field of one leaf. -/
def effectiveField (original : TomlValue) (path : Text) (value : Value) : EffectiveField where
  path := path
  source := if (defaultAuthority original path).isSome then .safeDefault else .toml
  defaultAuthority := defaultAuthority original path
  value := redactedValue path value

/-- The fields of the projection. -/
def effectiveFields (normalized : Value) (original : TomlValue) : List EffectiveField :=
  (flattenValue [] normalized []).map fun entry => effectiveField original entry.1 entry.2

variable (floatText : UInt64 → List Char)

/-- A field as JSON. -/
def EffectiveField.print (field : EffectiveField) : Text :=
  "\x7b\x22path\x22:".toList ++ quote (String.ofList field.path) ++ ",\x22source\x22:".toList ++
    quote field.source.text ++
    (match field.defaultAuthority with
      | some authority => ",\x22default_authority\x22:".toList ++ quote authority.text
      | none => []) ++
    ",\x22value\x22:".toList ++ field.value.print floatText ++ ['\x7d']

/-- `EffectiveProjection` as JSON. -/
def projectionText (fields : List EffectiveField) : Text :=
  "\x7b\x22schema\x22:\x22radroots.rhi.effective-config\x22,\x22schema_version\x22:1,".toList ++
    "\x22fields\x22:[".toList ++
    List.intercalate [','] (fields.map (EffectiveField.print floatText)) ++ "]\x7d".toList

/-- `RhiEffectiveConfigV1`. -/
structure EffectiveConfig where
  canonicalJson : Text
  fieldCount : Nat
deriving DecidableEq

/-- `RhiConfigV1ErrorKind`, as far as the projection reports it. -/
inductive ConfigErrorKind where
  | encoding
deriving DecidableEq, Repr

/-- `RHI_CONFIG_EFFECTIVE_MAX_UTF8_BYTES`. -/
def configEffectiveMaxBytes : Nat := 786432

/-- `build_effective`. -/
def buildEffective (normalized : Value) (original : TomlValue) :
    Except ConfigErrorKind EffectiveConfig := do
  let fields := effectiveFields normalized original
  let canonicalJson := projectionText floatText fields
  require (decide ((utf8 canonicalJson).length ≤ configEffectiveMaxBytes)) .encoding
  pure { canonicalJson, fieldCount := fields.length }

variable {floatText}

/-- What fits is shown. -/
theorem buildEffective_eq_ok {normalized : Value} {original : TomlValue}
    (fits : (utf8 (projectionText floatText (effectiveFields normalized original))).length ≤
      configEffectiveMaxBytes) :
    buildEffective floatText normalized original =
      .ok ⟨projectionText floatText (effectiveFields normalized original),
        (effectiveFields normalized original).length⟩ := by
  rw [buildEffective, decide_eq_true fits]
  rfl

theorem buildEffective_eq_error {normalized : Value} {original : TomlValue}
    (large : configEffectiveMaxBytes <
      (utf8 (projectionText floatText (effectiveFields normalized original))).length) :
    buildEffective floatText normalized original = .error .encoding := by
  rw [buildEffective, decide_eq_false (Nat.not_le.mpr large)]
  rfl

end Projection

section Lengths

theorem length_redaction_le {path : Text} {redaction : String}
    (redacted : scalarRedaction path = some redaction) : (quote redaction).length ≤ 64 := by
  unfold scalarRedaction at redacted
  repeat' split at redacted
  all_goals cases redacted
  all_goals decide

variable (floatText : UInt64 → List Char)

theorem length_redactedValue_le (path : Text) {value : Value} (single : elementCount value = 0) :
    ((redactedValue path value).print floatText).length ≤ (value.print floatText).length + 64 := by
  unfold redactedValue
  split
  case h_1 redaction redacted =>
    have bound := length_redaction_le redacted
    rw [Value.print]
    omega
  case h_2 =>
    split
    · have bound : ((Value.object [("count", .number (.integer (0 : Nat))),
          ("values", .text "[redacted]")]).print floatText).length ≤ 64 := by
        simp only [Value.print, Value.printMembers, Number.print]
        decide
      rw [single]
      omega
    · omega

theorem length_source_le (source : ConfigValueSource) : (quote source.text).length ≤ 32 := by
  cases source <;> decide

theorem length_authority_le (authority : ConfigDefaultAuthority) :
    (quote authority.text).length ≤ 32 := by
  cases authority <;> decide

/-- What the field of a leaf takes in the projection. -/
theorem length_print_le (original : TomlValue) (path : Text) {value : Value}
    (single : elementCount value = 0) :
    ((effectiveField original path value).print floatText).length ≤
      6 * path.length + (value.print floatText).length + 256 := by
  have pathBound := length_quote_le (String.ofList path)
  have sourceBound := length_source_le (effectiveField original path value).source
  have valueBound := length_redactedValue_le floatText path single
  have literals : "\x7b\x22path\x22:".toList.length = 8 ∧ ",\x22source\x22:".toList.length = 10 ∧
      ",\x22default_authority\x22:".toList.length = 21 ∧ ",\x22value\x22:".toList.length = 9 := by
    decide
  rw [String.toList_ofList] at pathBound
  unfold EffectiveField.print
  cases isDefault : (effectiveField original path value).defaultAuthority with
  | none =>
      simp only [List.length_append, literals, List.length_singleton, List.length_nil]
      simp only [effectiveField] at sourceBound ⊢
      omega
  | some authority =>
      have authorityBound := length_authority_le authority
      simp only [List.length_append, literals, List.length_singleton]
      simp only [effectiveField] at sourceBound ⊢
      omega

/-- What few short texts take with the commas between them. -/
theorem length_intercalate_le {texts : List Text} {bound : Nat}
    (short : ∀ text ∈ texts, text.length < bound) :
    (List.intercalate [','] texts).length ≤ bound * texts.length := by
  induction texts with
  | nil => exact Nat.zero_le _
  | cons first rest ih =>
      have head := short first List.mem_cons_self
      have tail := ih fun text member => short text (List.mem_cons_of_mem _ member)
      rw [List.length_cons, Nat.mul_succ]
      cases rest with
      | nil =>
          rw [List.intercalate_singleton]
          omega
      | cons second rest =>
          rw [List.intercalate_cons_cons, List.length_append, List.length_append,
            List.length_singleton]
          omega

/-- What few short fields take in the projection. -/
theorem length_projectionText_le {normalized : Value} (original : TomlValue) {bound : Nat}
    (short : ∀ entry ∈ flattenValue [] normalized [], elementCount entry.2 = 0 ∧
      6 * entry.1.length + (entry.2.print floatText).length ≤ bound) :
    (utf8 (projectionText floatText (effectiveFields normalized original))).length ≤
      4 * ((bound + 257) * (flattenValue [] normalized []).length + 128) := by
  have version : List.length (String.toList
      "\x7b\x22schema\x22:\x22radroots.rhi.effective-config\x22,\x22schema_version\x22:1,") =
        61 := by
    decide
  have brackets : "\x22fields\x22:[".toList.length = 10 ∧ "]\x7d".toList.length = 2 := by
    decide
  have room : ∀ text ∈ (effectiveFields normalized original).map (EffectiveField.print floatText),
      text.length < bound + 257 := by
    intro text member
    rcases List.mem_map.mp member with ⟨field, fieldMem, rfl⟩
    rcases List.mem_map.mp fieldMem with ⟨⟨path, value⟩, entryMem, rfl⟩
    rcases short (path, value) entryMem with ⟨single, small⟩
    refine Nat.lt_succ_of_le ((length_print_le floatText original path single).trans ?_)
    exact Nat.add_le_add_right small 256
  have fields := length_intercalate_le room
  refine (length_utf8_le _).trans (Nat.mul_le_mul_left 4 ?_)
  unfold projectionText
  rw [effectiveFields, List.length_map, List.length_map] at fields
  rw [List.length_append, List.length_append, List.length_append, version, brackets.1, brackets.2,
    effectiveFields]
  omega

end Lengths

end Rhi
