import Mathlib.Data.List.Infix
import Rhi.Lib.JsonString
import Rhi.Lib.Transaction

/-!
# The preflight of an event

An event is measured before it is parsed.  A scanner counts the bytes a string literal decodes to
without decoding it, nested visitors count the tags and their elements, and the fields of the event
are collected with a bound on those that are not its own.  What is wrong with a text reaches the
caller as a message, and the message is searched for the sentinels the visitors put into it.
-/

namespace Rhi

open Json Transactional

section Scanner

/-- `slice::get` of a range of bytes. -/
def byteRange (bytes : List UInt8) (start stop : Nat) : Option (List UInt8) :=
  if start ≤ stop ∧ stop ≤ bytes.length then some ((bytes.drop start).take (stop - start)) else none

/-- The rest of a text from a byte offset, which has to lie between two characters. -/
def fromByte : List Char → Nat → Option (List Char)
  | text, 0 => some text
  | [], _ + 1 => none
  | first :: rest, offset + 1 =>
      if first.utf8Size ≤ offset + 1 then fromByte rest (offset + 1 - first.utf8Size) else none

/-- The front of a text up to a byte offset, which has to lie between two characters. -/
def toByte : List Char → Nat → Option (List Char)
  | _, 0 => some []
  | [], _ + 1 => none
  | first :: rest, offset + 1 =>
      if first.utf8Size ≤ offset + 1 then
        (toByte rest (offset + 1 - first.utf8Size)).map (first :: ·)
      else
        none

/-- `str::get` of a range of bytes. -/
def textRange (text : List Char) (start stop : Nat) : Option (List Char) :=
  if start ≤ stop then do toByte (← fromByte text start) (stop - start) else none

def hexDigit (byte : UInt8) : Option Nat :=
  if 48 ≤ byte.toNat ∧ byte.toNat ≤ 57 then some (byte.toNat - 48)
  else if 97 ≤ byte.toNat ∧ byte.toNat ≤ 102 then some (byte.toNat - 97 + 10)
  else if 65 ≤ byte.toNat ∧ byte.toNat ≤ 70 then some (byte.toNat - 65 + 10)
  else none

/-- `parse_hex_u16`; four digits never leave sixteen bits. -/
def parseHexU16 (bytes : List UInt8) : Option Nat :=
  if bytes.length ≠ 4 then
    none
  else
    bytes.foldlM (fun value byte => do some (value * 16 + (← hexDigit byte))) 0

/-- `char::from_u32`. -/
def charFromU32 (scalar : Nat) : Option Char :=
  if scalar.isValidChar then some (Char.ofNat scalar) else none

/-- The code of a `\\u` escape whose letter stands at the index, and the index after it. -/
def unicodeEscape (bytes : List UInt8) (index : Nat) : Option (Nat × Nat) := do
  let first ← parseHexU16 (← byteRange bytes (index + 1) (index + 5))
  let index := index + 5
  if 0xd800 ≤ first ∧ first ≤ 0xdbff then
    if (← byteRange bytes index (index + 2)) ≠ [0x5c, 0x75] then
      none
    else
      let second ← parseHexU16 (← byteRange bytes (index + 2) (index + 6))
      if 0xdc00 ≤ second ∧ second ≤ 0xdfff then
        some (0x10000 + (first - 0xd800) * 0x400 + (second - 0xdc00), index + 6)
      else
        none
  else if 0xdc00 ≤ first ∧ first ≤ 0xdfff then
    none
  else
    some (first, index)

/-- The escape whose letter stands at the index. -/
def scanEscape (bytes : List UInt8) (index : Nat) : Option (Nat × Nat) := do
  let escaped ← bytes[index]?
  if escaped ∈ ([0x22, 0x5c, 0x2f, 0x62, 0x66, 0x6e, 0x72, 0x74] : List UInt8) then
    some (index + 1, 1)
  else if escaped = 0x75 then
    let (scalar, index) ← unicodeEscape bytes index
    let character ← charFromU32 scalar
    some (index, character.utf8Size)
  else
    none

/-- One turn of the loop: the index after it, and the bytes it adds.  The sums never exceed the
length of the literal, so that none of them overflows. -/
def scanTurn (raw : List Char) (bytes : List UInt8) (stop index : Nat) : Option (Nat × Nat) := do
  let byte ← bytes[index]?
  if byte = 0x5c then
    scanEscape bytes (index + 1)
  else if byte.toNat < 0x80 then
    if byte.toNat < 0x20 ∨ byte = 0x22 then none else some (index + 1, 1)
  else
    let character ← (← textRange raw index stop).head?
    some (index + character.utf8Size, character.utf8Size)

theorem unicodeEscape_advances {bytes : List UInt8} {index scalar next : Nat}
    (escaped : unicodeEscape bytes index = some (scalar, next)) : index < next := by
  simp only [unicodeEscape, Option.bind_eq_bind, Option.bind_eq_some_iff] at escaped
  rcases escaped with ⟨range, -, first, -, escaped⟩
  split at escaped
  · simp only [Option.bind_eq_some_iff] at escaped
    rcases escaped with ⟨letters, -, escaped⟩
    split at escaped
    · cases escaped
    · simp only [Option.bind_eq_some_iff] at escaped
      rcases escaped with ⟨second, -, code, -, escaped⟩
      split at escaped
      · rw [Option.some.injEq, Prod.mk.injEq] at escaped
        omega
      · cases escaped
  · split at escaped
    · cases escaped
    · cases escaped
      omega

theorem scanEscape_advances {bytes : List UInt8} {index next added : Nat}
    (escaped : scanEscape bytes index = some (next, added)) : index < next := by
  simp only [scanEscape, Option.bind_eq_bind, Option.bind_eq_some_iff] at escaped
  rcases escaped with ⟨letter, -, escaped⟩
  split at escaped
  · cases escaped
    omega
  · split at escaped
    · simp only [Option.bind_eq_some_iff] at escaped
      rcases escaped with ⟨⟨scalar, after⟩, read, character, -, escaped⟩
      cases escaped
      exact unicodeEscape_advances read
    · cases escaped

theorem scanTurn_advances {raw : List Char} {bytes : List UInt8} {stop index next added : Nat}
    (turned : scanTurn raw bytes stop index = some (next, added)) : index < next := by
  simp only [scanTurn, Option.bind_eq_bind, Option.bind_eq_some_iff] at turned
  rcases turned with ⟨byte, -, turned⟩
  split at turned
  · exact Nat.lt_of_succ_lt (scanEscape_advances turned)
  · split at turned
    · split at turned
      · cases turned
      · cases turned
        omega
    · simp only [Option.bind_eq_some_iff] at turned
      rcases turned with ⟨rest, -, character, -, turned⟩
      cases turned
      have positive := character.utf8Size_pos
      omega

/-- The loop, from an index and a length. -/
def scanString (raw : List Char) (bytes : List UInt8) (stop index length : Nat) : Option Nat :=
  if index < stop then
    match turned : scanTurn raw bytes stop index with
    | none => none
    | some (next, added) =>
        have := scanTurn_advances turned
        scanString raw bytes stop next (length + added)
  else if index = stop then
    some length
  else
    none
termination_by stop - index

/-- `decoded_json_string_utf8_bytes`. -/
def decodedJsonStringUtf8Bytes (raw : List Char) : Option Nat :=
  let bytes := utf8 raw
  if bytes.length < 2 ∨ bytes.head? ≠ some 0x22 ∨ bytes.getLast? ≠ some 0x22 then
    none
  else
    scanString raw bytes (bytes.length - 1) 1 0

end Scanner

section Reader

/-- The text of a JSON value or of a message. -/
abbrev Text := List Char

instance : LawfulBEq Text := inferInstanceAs (LawfulBEq (List Char))

/-- The sentinels. -/
def duplicateFieldSentinel : Text := "rhi-duplicate-event-field".toList

def extraCountSentinel : Text := "rhi-extra-field-count-limit".toList

def extraBytesSentinel : Text := "rhi-extra-field-bytes-limit".toList

def tagCountSentinel : Text := "rhi-tag-count-limit".toList

def tagElementCountSentinel : Text := "rhi-tag-element-count-limit".toList

def tagElementBytesSentinel : Text := "rhi-tag-element-bytes-limit".toList

def tagTotalBytesSentinel : Text := "rhi-tag-total-bytes-limit".toList

def wireSentinels : List Text :=
  [duplicateFieldSentinel, extraCountSentinel, extraBytesSentinel]

def tagSentinels : List Text :=
  [tagCountSentinel, tagElementCountSentinel, tagElementBytesSentinel, tagTotalBytesSentinel]

/-- `str::contains`. -/
def Text.contains (text sentinel : Text) : Bool := decide (sentinel <:+: text)

/-- The message of a malformed text, which quotes nothing of the text. -/
structure Malformation where
  message : Text
  quiet : ∀ sentinel ∈ wireSentinels ++ tagSentinels, Text.contains message sentinel = false

/-- What the map access of an object yields: keys, decoded, and values as they are written, until
the object ends or the text turns out to be malformed, before a key or before a value. -/
inductive Members where
  | close
  | broken (malformation : Malformation)
  | cut (key : Text) (malformation : Malformation)
  | entry (key value : Text) (rest : Members)

/-- What `deserialize_map` finds at the beginning of a text.  A value of another type is described
as the message describes it: a string by its quoted text. -/
inductive ObjectView where
  | malformed (malformation : Malformation)
  | mismatch (unexpected : Text)
  | object (members : Members) (trailing : Bool)

/-- What `deserialize_seq` finds in the text of a value. -/
inductive ArrayView where
  | mismatch (unexpected : Text)
  | array (elements : List Text)

/-- The reader of JSON texts. -/
structure JsonReader where
  object : Text → ObjectView
  /-- The sequence access of an array yields its elements in order. -/
  array : Text → ArrayView
  /-- The natural number a text denotes as an integer. -/
  natural : Text → Option Nat

/-- The errors of the reader and of its visitors. -/
inductive JsonError where
  | custom (message : Text)
  | invalidType (unexpected expected : Text)
  | malformed (malformation : Malformation)

/-- The message of an error, without the position at its end. -/
def JsonError.message : JsonError → Text
  | .custom message => message
  | .invalidType unexpected expected =>
      "invalid type: ".toList ++ unexpected ++ ", expected ".toList ++ expected
  | .malformed malformation => malformation.message

/-- `RhiTradeMutationAdmissionErrorKind`, as far as the preflight reports it. -/
inductive AdmissionErrorKind where
  | emptyEvent
  | eventTooLarge
  | invalidEventUtf8
  | malformedEvent
  | duplicateEventField
  | eventIdentifierTooLarge
  | eventContentTooLarge
  | tooManyTags
  | tooManyTagElements
  | tagElementTooLarge
  | tagsTooLarge
  | tooManyExtraFields
  | extraFieldsTooLarge
deriving DecidableEq, Repr

/-- `classify_wire_preflight_error`. -/
def classifyWirePreflightError (error : JsonError) : AdmissionErrorKind :=
  let rendered := error.message
  if rendered.contains duplicateFieldSentinel then .duplicateEventField
  else if rendered.contains extraCountSentinel then .tooManyExtraFields
  else if rendered.contains extraBytesSentinel then .extraFieldsTooLarge
  else .malformedEvent

/-- `classify_tag_error`. -/
def classifyTagError (error : JsonError) : AdmissionErrorKind :=
  let rendered := error.message
  if rendered.contains tagCountSentinel then .tooManyTags
  else if rendered.contains tagElementCountSentinel then .tooManyTagElements
  else if rendered.contains tagElementBytesSentinel then .tagElementTooLarge
  else if rendered.contains tagTotalBytesSentinel then .tagsTooLarge
  else .malformedEvent

/-- `RhiTradeMutationAdmissionLimits`, with the two constants of the shared wire library. -/
structure EventLimits where
  wireBytes : Nat
  contentBytes : Nat
  tagCount : Nat
  tagTotalElements : Nat
  tagElementBytes : Nat
  tagTotalBytes : Nat
  extraFields : Nat
  extraJsonBytes : Nat

end Reader

section Tags

/-- `Measurement`. -/
structure Measurement where
  count : Nat
  elements : Nat
  bytes : Nat
deriving DecidableEq, Repr

/-- How far a measurement has come: the tags its sequence has yielded, and the elements it has
decoded. -/
structure Progress where
  tags : Nat
  elements : Nat
deriving DecidableEq, Repr

/-- `StringLengthSeed::deserialize`. -/
def stringLength (maximum : Nat) (raw : Text) : Except JsonError Nat :=
  match decodedJsonStringUtf8Bytes raw with
  | none => .error (.invalidType "non-string".toList "a JSON string".toList)
  | some length =>
      if maximum < length then .error (.custom tagElementBytesSentinel) else .ok length

/-- `TagVisitor::visit_seq`, over the elements that are left.  The sums of lengths stay below the
length of the text. -/
def visitTag (maximumElements maximumElementBytes : Nat) (sequence : List Text)
    (result : Measurement) (progress : Progress) : Progress × Except JsonError Measurement :=
  if result.elements < maximumElements then
    match sequence with
    | [] => (progress, .ok result)
    | raw :: rest =>
        let progress := { progress with elements := progress.elements + 1 }
        match stringLength maximumElementBytes raw with
        | .error error => (progress, .error error)
        | .ok length =>
            visitTag maximumElements maximumElementBytes rest
              { result with elements := result.elements + 1, bytes := result.bytes + length }
              progress
  else
    match sequence with
    | [] => (progress, .ok result)
    | _ :: _ => (progress, .error (.custom tagElementCountSentinel))

/-- `TagSeed::deserialize`. -/
def readTag (reader : JsonReader) (maximumElements maximumElementBytes : Nat) (raw : Text)
    (progress : Progress) : Progress × Except JsonError Measurement :=
  match reader.array raw with
  | .mismatch unexpected =>
      (progress, .error (.invalidType unexpected "a bounded Nostr tag".toList))
  | .array elements =>
      visitTag maximumElements maximumElementBytes elements ⟨1, 0, 0⟩ progress

/-- `TagsVisitor::visit_seq`, over the tags that are left. -/
def visitTags (reader : JsonReader) (limits : EventLimits) (sequence : List Text)
    (result : Measurement) (progress : Progress) : Progress × Except JsonError Measurement :=
  if result.count < limits.tagCount then
    if limits.tagTotalElements < result.elements then
      (progress, .error (.custom tagElementCountSentinel))
    else
      match sequence with
      | [] => (progress, .ok result)
      | raw :: rest =>
          match readTag reader (limits.tagTotalElements - result.elements) limits.tagElementBytes
            raw
              { progress with tags := progress.tags + 1 } with
          | (progress, .error error) => (progress, .error error)
          | (progress, .ok tag) =>
              let bytes := result.bytes + tag.bytes
              if limits.tagTotalBytes < bytes then
                (progress, .error (.custom tagTotalBytesSentinel))
              else
                visitTags reader limits rest
                  ⟨result.count + 1, result.elements + tag.elements, bytes⟩ progress
  else
    match sequence with
    | [] => (progress, .ok result)
    | _ :: _ => ({ progress with tags := progress.tags + 1 }, .error (.custom tagCountSentinel))

/-- `TagsSeed::deserialize`. -/
def readTags (reader : JsonReader) (limits : EventLimits) (raw : Text) :
    Progress × Except JsonError Measurement :=
  match reader.array raw with
  | .mismatch unexpected =>
      (⟨0, 0⟩, .error (.invalidType unexpected "a bounded array of Nostr tags".toList))
  | .array elements => visitTags reader limits elements ⟨0, 0, 0⟩ ⟨0, 0⟩

/-- `measure_tags`; nothing follows the value that a raw value holds. -/
def measureTags (reader : JsonReader) (limits : EventLimits) (raw : Text) :
    Progress × Except AdmissionErrorKind Measurement :=
  let (progress, measured) := readTags reader limits raw
  (progress, measured.mapError classifyTagError)

end Tags

section Preflight

/-- The fields of an event; every other field of its object is an extra one. -/
def eventFields : List Text :=
  ["id".toList, "pubkey".toList, "created_at".toList, "kind".toList, "tags".toList,
    "content".toList, "sig".toList]

/-- `canonical_json_string_len`. -/
def canonicalJsonStringLen (value : Text) : Nat :=
  value.foldl (fun length character => length +
    if character ∈ ['\x22', '\x5c', '\x0a', '\x0d', '\x09', '\x08', '\x0c'] then 2
    else if character.toNat ≤ 0x1f then 6
    else character.utf8Size) 2

/-- The bytes of an extra field: its key, a colon and its value. -/
def extraFieldBytes (key value : Text) : Nat :=
  canonicalJsonStringLen key + 1 + (utf8 value).length

/-- What `RawEventVisitor::visit_map` has collected: the slots that are filled, by the name of their
field, the keys of the extra fields and their bytes. -/
structure EventSlots where
  fields : List (Text × Text)
  extras : List Text
  extraBytes : Nat

/-- The checks of a key, which come before its value is read. -/
def EventSlots.enter (slots : EventSlots) (limits : EventLimits) (key : Text) :
    Except JsonError EventSlots :=
  if key ∈ eventFields then
    if key ∈ slots.fields.map Prod.fst then .error (.custom duplicateFieldSentinel) else .ok slots
  else if key ∈ slots.extras then
    .error (.custom duplicateFieldSentinel)
  else
    let extras := slots.extras ++ [key]
    if limits.extraFields < extras.length then .error (.custom extraCountSentinel)
    else .ok { slots with extras }

/-- The value of a key that has been entered. -/
def EventSlots.fill (slots : EventSlots) (limits : EventLimits) (key value : Text) :
    Except JsonError EventSlots :=
  if key ∈ eventFields then
    .ok { slots with fields := slots.fields ++ [(key, value)] }
  else
    let extraBytes := slots.extraBytes + extraFieldBytes key value
    if limits.extraJsonBytes < extraBytes then .error (.custom extraBytesSentinel)
    else .ok { slots with extraBytes }

/-- The loop of `RawEventVisitor::visit_map`, over the members that are left. -/
def visitMembers (limits : EventLimits) : Members → EventSlots → Except JsonError EventSlots
  | .close, slots => .ok slots
  | .broken malformation, _ => .error (.malformed malformation)
  | .cut key malformation, slots => do
      let _ ← slots.enter limits key
      .error (.malformed malformation)
  | .entry key value rest, slots => do
      let entered ← slots.enter limits key
      let filled ← entered.fill limits key value
      visitMembers limits rest filled

/-- `required`. -/
def EventSlots.requiredField (slots : EventSlots) (field : Text) : Except JsonError Text :=
  orError (slots.fields.lookup field) (.custom "missing required event field".toList)

/-- `RawEvent`. -/
structure RawEvent where
  id : Text
  pubkey : Text
  createdAt : Text
  kind : Text
  tags : Text
  content : Text
  sig : Text

/-- `RawEventVisitor::visit_map`. -/
def visitEvent (limits : EventLimits) (members : Members) : Except JsonError RawEvent := do
  let slots ← visitMembers limits members ⟨[], [], 0⟩
  let id ← slots.requiredField "id".toList
  let pubkey ← slots.requiredField "pubkey".toList
  let createdAt ← slots.requiredField "created_at".toList
  let kind ← slots.requiredField "kind".toList
  let tags ← slots.requiredField "tags".toList
  let content ← slots.requiredField "content".toList
  let sig ← slots.requiredField "sig".toList
  pure { id, pubkey, createdAt, kind, tags, content, sig }

/-- `RawEventSeed::deserialize`, and whether something follows the object. -/
def readEvent (reader : JsonReader) (limits : EventLimits) (source : Text) :
    Except JsonError (RawEvent × Bool) :=
  match reader.object source with
  | .malformed malformation => .error (.malformed malformation)
  | .mismatch unexpected =>
      .error (.invalidType unexpected "a bounded NIP-01 event object".toList)
  | .object members trailing => (visitEvent limits members).map fun event => (event, trailing)

/-- `validate_bounded_string`. -/
def validateBoundedString (raw : Text) (maximum : Nat) (tooLarge : AdmissionErrorKind) :
    Except AdmissionErrorKind Unit := do
  let length ← orError (decodedJsonStringUtf8Bytes raw) .malformedEvent
  require (decide (length ≤ maximum)) tooLarge

/-- `parse_scalar` of an unsigned integer of so many bits. -/
def parseScalar (reader : JsonReader) (bits : Nat) (raw : Text) : Except AdmissionErrorKind Unit :=
  require ((reader.natural raw).any fun value => decide (value < 2 ^ bits)) .malformedEvent

/-- `RHI_TRADE_EVENT_ID_MAX_BYTES`. -/
def eventIdMaxBytes : Nat := 64

/-- `RHI_TRADE_EVENT_PUBLIC_KEY_MAX_BYTES`. -/
def eventPublicKeyMaxBytes : Nat := 64

/-- `RHI_TRADE_EVENT_SIGNATURE_MAX_BYTES`. -/
def eventSignatureMaxBytes : Nat := 128

/-- The checks of an event before its tags are measured. -/
def validateEvent (reader : JsonReader) (limits : EventLimits) (raw : RawEvent) :
    Except AdmissionErrorKind Unit := do
  validateBoundedString raw.id eventIdMaxBytes .eventIdentifierTooLarge
  validateBoundedString raw.pubkey eventPublicKeyMaxBytes .eventIdentifierTooLarge
  validateBoundedString raw.sig eventSignatureMaxBytes .eventIdentifierTooLarge
  validateBoundedString raw.content limits.contentBytes .eventContentTooLarge
  parseScalar reader 64 raw.createdAt
  parseScalar reader 32 raw.kind

/-- `preflight_wire`. -/
def preflightWire (reader : JsonReader) (limits : EventLimits) (source : Text) :
    Except AdmissionErrorKind Unit := do
  let (raw, trailing) ← (readEvent reader limits source).mapError classifyWirePreflightError
  require (!trailing) .malformedEvent
  validateEvent reader limits raw
  let _ ← (measureTags reader limits raw.tags).2
  pure ()

/-- `str::from_utf8`. -/
def textOfUtf8 (bytes : List UInt8) : Option Text :=
  (String.fromUTF8? ⟨bytes.toArray⟩).map String.toList

/-- The part of `admit_rhi_trade_mutation_event` before the event is parsed. -/
def preflight (reader : JsonReader) (limits : EventLimits) (original : List UInt8) :
    Except AdmissionErrorKind Unit := do
  require (!original.isEmpty) .emptyEvent
  require (decide (original.length ≤ limits.wireBytes)) .eventTooLarge
  let source ← orError (textOfUtf8 original) .invalidEventUtf8
  preflightWire reader limits source

end Preflight

end Rhi
