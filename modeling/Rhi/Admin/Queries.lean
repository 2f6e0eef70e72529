import Rhi.Admin.Validation

/-!
# Queries of the list routes

A list request names its page size, its filters and, after the first page, the cursor of the page
before.  The cursor is bound to a digest of the other fields.
-/

namespace Rhi

/-- The routes that answer in pages. -/
inductive ListRoute where
  | reconciliationJobs
  | sources
  | tradeReports
  | publicationBacklog
  | publicationTargets
deriving DecidableEq, Repr

namespace ListRoute

def route : ListRoute → AdminRoute
  | .reconciliationJobs => .reconciliationJobs
  | .sources => .sources
  | .tradeReports => .tradeReports
  | .publicationBacklog => .publicationBacklog
  | .publicationTargets => .publicationTargets

theorem route_inj {left right : ListRoute} (same : left.route = right.route) : left = right := by
  cases left <;> cases right <;> first | rfl | cases same

end ListRoute

section Fields

/-- The types of the query fields. -/
inductive FieldType where
  | pageLimit
  | pageCursor
  | bool
  | tradeId
  | boundedId
  | enum (values : List String)
deriving Repr

/-- `char::is_control`. -/
def isControl (character : Char) : Bool :=
  decide (character.toNat < 32) ||
    (decide (127 ≤ character.toNat) && decide (character.toNat < 160))

def isLowerHex (character : Char) : Bool :=
  (decide ('0' ≤ character) && decide (character ≤ '9')) ||
    (decide ('a' ≤ character) && decide (character ≤ 'f'))

/-- `lower_hex`. -/
def lowerHex (text : String) (exact : Nat) : Bool :=
  text.utf8ByteSize == exact && text.toList.all isLowerHex

def isAlphanumeric (character : Char) : Bool :=
  (decide ('0' ≤ character) && decide (character ≤ '9')) ||
    (decide ('A' ≤ character) && decide (character ≤ 'Z')) ||
    (decide ('a' ≤ character) && decide (character ≤ 'z'))

/-- `bounded_id`. -/
def boundedId (text : String) : Bool :=
  decide (1 ≤ text.utf8ByteSize ∧ text.utf8ByteSize ≤ 128) &&
    text.toList.head?.any isAlphanumeric &&
    text.toList.all fun character => isAlphanumeric character || character == '.' ||
      character == '_' || character == ':' || character == '-'

/-- `validate_type`, for the types of the query fields. -/
def FieldType.validates : FieldType → Json.Scalar → Bool
  | .pageLimit, .number value => decide (1 ≤ value ∧ value ≤ 200)
  | .pageCursor, .text value =>
      decide (1 ≤ value.utf8ByteSize ∧ value.utf8ByteSize ≤ 512) &&
        !value.toList.any isControl && canonicalBase64urlNoPadding value
  | .bool, .boolean _ => true
  | .tradeId, .text value => !value.toList.any isControl && lowerHex value 32
  | .boundedId, .text value => !value.toList.any isControl && Rhi.boundedId value
  | .enum values, .text value => values.contains value
  | _, _ => false

/-- A field of a query model of the operator contract. -/
structure QueryField where
  name : String
  type : FieldType
  required : Bool

def QueryField.limit : QueryField := ⟨"limit", .pageLimit, true⟩

def QueryField.cursor : QueryField := ⟨"cursor", .pageCursor, false⟩

/-- `publication_state`. -/
def publicationStates : List String :=
  ["disabled", "pending", "submitted", "accepted", "rejected", "rate_limited", "auth_required",
    "failed", "unknown"]

/-- The fields of the query model of a route. -/
def queryFields : ListRoute → List QueryField
  | .reconciliationJobs => [.limit, .cursor,
      ⟨"state", .enum ["pending", "leased", "retry_scheduled", "completed", "failed"], false⟩,
      ⟨"trade_id", .tradeId, false⟩]
  | .sources => [.limit, .cursor, ⟨"required", .bool, false⟩,
      ⟨"completion", .enum ["complete", "incomplete_timeout", "incomplete_unavailable",
        "incomplete_resource_limit", "incomplete_unknown", "unsupported"], false⟩]
  | .tradeReports => [.limit, .cursor,
      ⟨"outcome", .enum ["Valid", "Invalid", "Indeterminate"], false⟩]
  | .publicationBacklog => [.limit, .cursor, ⟨"state", .enum publicationStates, false⟩]
  | .publicationTargets => [.limit, .cursor, ⟨"workflow_id", .boundedId, false⟩,
      ⟨"state", .enum publicationStates, false⟩]

end Fields

section Requests

/-- The query of a request as an object, its keys in their order. -/
structure QueryModel where
  entries : List Json.Entry
  sorted : entries.Pairwise fun left right => left.1 < right.1
deriving DecidableEq

namespace QueryModel

/-- `Value::pointer` of a field. -/
def get (model : QueryModel) (field : String) : Option Json.Scalar :=
  (model.entries.find? fun entry => entry.1 == field).map (·.2)

/-- A field that is a text. -/
def text (model : QueryModel) (field : String) : Option String :=
  match model.get field with
  | some (.text value) => some value
  | _ => none

/-- A field that is a boolean. -/
def boolean (model : QueryModel) (field : String) : Option Bool :=
  match model.get field with
  | some (.boolean value) => some value
  | _ => none

/-- `validate_model`. -/
def validates (route : ListRoute) (model : QueryModel) : Bool :=
  model.entries.all (fun entry => (queryFields route).any fun field => field.name == entry.1) &&
    (queryFields route).all fun field =>
      match model.get field.name with
      | some value => field.type.validates value
      | none => !field.required

/-- The entries that the digest is taken over. -/
def filters (model : QueryModel) : List Json.Entry :=
  model.entries.filter fun entry => entry.1 != "cursor"

/-- The bytes that the digest is taken of. -/
def digested (model : QueryModel) : List UInt8 := Json.objectBytes model.filters

end QueryModel

/-- What `request_document` admits of a route, its path parameter and its query. -/
def admitsRequest (route : ListRoute) (tradeId : Option String) (model : QueryModel) : Bool :=
  model.validates route &&
    match route, tradeId with
    | .tradeReports, some text => FieldType.tradeId.validates (.text text)
    | .tradeReports, none => false
    | _, parameter => parameter.isNone

/-- `RhiAdminRequestDocument` of a list route. -/
structure ListRequest where
  route : ListRoute
  /-- The path parameter, that only the reports of a trade have. -/
  tradeId : Option String
  model : QueryModel
  admitted : admitsRequest route tradeId model = true
deriving DecidableEq

/-- `page_limit`. -/
def pageLimit (model : QueryModel) : Except AdminHandlerErrorKind Nat :=
  match model.get "limit" with
  | some (.number value) => if 1 ≤ value ∧ value ≤ 200 then .ok value else .error .internal
  | _ => .error .internal

variable [Sha256]

/-- `query_digest`. -/
def queryDigest (model : QueryModel) : Digest := Sha256.digest model.digested

/-- `RuntimeAdminHandler::cursor_or_new`. -/
def cursorOrNew (key : CursorKey) (request : ListRequest) (newSnapshot : UInt64) :
    Except AdminHandlerErrorKind (UInt64 × UInt32) :=
  match request.model.text "cursor" with
  | some cursor =>
      decodeRuntimeCursor key request.route.route cursor (queryDigest request.model)
  | none => .ok (newSnapshot, 0)

end Requests

section Filters

namespace QueryModel

/-- Two entries of a model never share their key. -/
theorem eq_of_key {model : QueryModel} {left right : Json.Entry} (leftMem : left ∈ model.entries)
    (rightMem : right ∈ model.entries) (same : left.1 = right.1) : left = right := by
  have keys : (model.entries.map (·.1)).Nodup := by
    rw [List.Nodup, List.pairwise_map]
    refine model.sorted.imp ?_
    intro before after less same
    exact String.lt_irrefl _ (same ▸ less)
  exact List.inj_on_of_nodup_map keys leftMem rightMem same

theorem get_eq_some_iff {model : QueryModel} {field : String} {value : Json.Scalar} :
    model.get field = some value ↔ (field, value) ∈ model.entries := by
  constructor
  · intro found
    simp only [get, Option.map_eq_some_iff] at found
    rcases found with ⟨entry, found, rfl⟩
    have named := List.find?_some found
    rw [← beq_iff_eq.mp named]
    exact List.mem_of_find?_eq_some found
  · intro entryMem
    cases found : model.entries.find? fun entry => entry.1 == field with
    | none =>
        have absent := List.find?_eq_none.mp found _ entryMem
        simp at absent
    | some entry =>
        have named := List.find?_some found
        have same := eq_of_key (List.mem_of_find?_eq_some found) entryMem (beq_iff_eq.mp named)
        simp [get, found, same]

theorem mem_filters_iff {model : QueryModel} {field : String} {value : Json.Scalar} :
    (field, value) ∈ model.filters ↔ field ≠ "cursor" ∧ model.get field = some value := by
  rw [get_eq_some_iff]
  simp [filters, and_comm]

/-- What is digested are the fields other than the cursor. -/
theorem filters_eq_iff {left right : QueryModel} :
    left.filters = right.filters ↔
      ∀ field, field ≠ "cursor" → left.get field = right.get field := by
  constructor
  · intro same field other
    refine Option.ext fun value => ?_
    have leftMem := @mem_filters_iff left field value
    have rightMem := @mem_filters_iff right field value
    rw [same] at leftMem
    exact and_congr_right_iff.mp (leftMem.symm.trans rightMem) other
  · intro same
    have members : ∀ entry, entry ∈ left.filters ↔ entry ∈ right.filters := by
      rintro ⟨field, value⟩
      rw [mem_filters_iff, mem_filters_iff]
      exact and_congr_right fun other => by rw [same field other]
    have distinct : ∀ model : QueryModel, model.filters.Nodup := by
      intro model
      refine List.Pairwise.filter _ (model.sorted.imp ?_)
      intro before after less same
      exact String.lt_irrefl _ (same ▸ less)
    refine ((List.perm_ext_iff_of_nodup (distinct left) (distinct right)).mpr
      members).eq_of_pairwise
      ?_ (left.sorted.filter _) (right.sorted.filter _)
    intro first second _ _ before after
    exact absurd (String.lt_trans before after) (String.lt_irrefl _)

end QueryModel

end Filters

end Rhi
