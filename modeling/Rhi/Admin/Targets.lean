import Rhi.Admin.Queries
import Rhi.Admission
import Rhi.Lib.Percent
import Rhi.Lib.SortedEntries

/-!
# Targets of the page requests

The command line writes a page request into the target of a request, and the admin boundary reads
the query of the target back.  The cursor is written as it is and read as a part of a form, so that
what is read may not be what was written.
-/

namespace Rhi

open Json Transactional

section Pages

/-- `char::is_whitespace`. -/
def isWhitespace (character : Char) : Bool :=
  decide (9 ≤ character.toNat ∧ character.toNat ≤ 13) ||
    decide (0x2000 ≤ character.toNat ∧ character.toNat ≤ 0x200a) ||
    [0x20, 0x85, 0xa0, 0x1680, 0x2028, 0x2029, 0x202f, 0x205f, 0x3000].contains character.toNat

/-- `str::trim`. -/
def trim (text : Text) : Text :=
  ((text.dropWhile isWhitespace).reverse.dropWhile isWhitespace).reverse

/-- `RawPageQuery`. -/
structure RawPageQuery where
  limit : UInt16
  cursor : Option String
deriving DecidableEq

/-- What the command line admits of a page. -/
def admitsPage (page : RawPageQuery) : Bool :=
  decide (1 ≤ page.limit ∧ page.limit ≤ 200) &&
    page.cursor.all fun cursor =>
      !cursor.isEmpty && decide (cursor.utf8ByteSize ≤ 512) &&
        cursor.toList == trim cursor.toList && !cursor.toList.any isControl

/-- `RhiPageQueryArgsV1`. -/
structure PageQuery extends RawPageQuery where
  admitted : admitsPage toRawPageQuery = true

/-- `RhiCliV1ErrorKind`, as far as pages go. -/
inductive CliErrorKind where
  | invalidCommandInput
deriving DecidableEq, Repr

/-- The admission of a page in `admit_command`. -/
def admitPage (page : RawPageQuery) : Except CliErrorKind PageQuery :=
  if admitted : admitsPage page then .ok ⟨page, admitted⟩ else .error .invalidCommandInput

theorem admitPage_eq_ok_iff {raw : RawPageQuery} {page : PageQuery} :
    admitPage raw = .ok page ↔ page.toRawPageQuery = raw := by
  unfold admitPage
  constructor
  · intro made
    split at made
    · cases made
      rfl
    · cases made
  · rintro rfl
    rw [dif_pos page.admitted]

/-- The model of a page request. -/
def PageQuery.entries (page : PageQuery) : List Entry :=
  match page.cursor with
  | some cursor => [("cursor", .text cursor), ("limit", .number page.limit.toNat)]
  | none => [("limit", .number page.limit.toNat)]

end Pages

section Routes

/-- The routes of method `GET`, whose request model is read from the query. -/
inductive GetRoute where
  | status
  | effectiveConfig
  | identityStatus
  | identityPublic
  | stateStatus
  | metricsSnapshot
  | reconciliationStatus
  | tradeProjection
  | tradeReportCurrent
  | presenceDesired
  | list (route : ListRoute)
deriving DecidableEq, Repr

namespace GetRoute

def route : GetRoute → AdminRoute
  | .status => .status
  | .effectiveConfig => .effectiveConfig
  | .identityStatus => .identityStatus
  | .identityPublic => .identityPublic
  | .stateStatus => .stateStatus
  | .metricsSnapshot => .metricsSnapshot
  | .reconciliationStatus => .reconciliationStatus
  | .tradeProjection => .tradeProjection
  | .tradeReportCurrent => .tradeReportCurrent
  | .presenceDesired => .presenceDesired
  | .list route => route.route

theorem exists_route_iff {route : AdminRoute} :
    (∃ get : GetRoute, get.route = route) ↔ route.isMutation = false := by
  constructor
  · rintro ⟨get, rfl⟩
    cases get with
    | list pages => cases pages <;> rfl
    | _ => rfl
  · intro read
    cases route with
    | status => exact ⟨.status, rfl⟩
    | effectiveConfig => exact ⟨.effectiveConfig, rfl⟩
    | identityStatus => exact ⟨.identityStatus, rfl⟩
    | identityPublic => exact ⟨.identityPublic, rfl⟩
    | stateStatus => exact ⟨.stateStatus, rfl⟩
    | metricsSnapshot => exact ⟨.metricsSnapshot, rfl⟩
    | reconciliationStatus => exact ⟨.reconciliationStatus, rfl⟩
    | reconciliationJobs => exact ⟨.list .reconciliationJobs, rfl⟩
    | sources => exact ⟨.list .sources, rfl⟩
    | tradeProjection => exact ⟨.tradeProjection, rfl⟩
    | tradeReportCurrent => exact ⟨.tradeReportCurrent, rfl⟩
    | tradeReports => exact ⟨.list .tradeReports, rfl⟩
    | publicationBacklog => exact ⟨.list .publicationBacklog, rfl⟩
    | publicationTargets => exact ⟨.list .publicationTargets, rfl⟩
    | presenceDesired => exact ⟨.presenceDesired, rfl⟩
    | stateBackup | reconciliationRefresh | publicationRetry | presenceRender | presenceRefresh =>
        cases read

/-- The fields of the request model of a route. -/
def fields : GetRoute → List QueryField
  | .identityStatus | .identityPublic => [⟨"role", .enum ["service"], true⟩]
  | .list route => queryFields route
  | _ => []

/-- A trade in a path, in lower-case hexadecimal digits. -/
def tradeText (trade : TradeId) : Text :=
  (toBeBytes 16 trade.toNat).flatMap fun byte =>
    [Json.hexDigit (byte.toNat / 16), Json.hexDigit (byte.toNat % 16)]

/-- `RhiAdminRoute::path`, with the trade of the request in its place. -/
def path (trade : TradeId) : GetRoute → Text
  | .status => "/v1/status".toList
  | .effectiveConfig => "/v1/config/effective".toList
  | .identityStatus => "/v1/identity/status".toList
  | .identityPublic => "/v1/identity/public".toList
  | .stateStatus => "/v1/state/status".toList
  | .metricsSnapshot => "/v1/metrics/snapshot".toList
  | .reconciliationStatus => "/v1/reconciliation/status".toList
  | .tradeProjection => "/v1/trades/".toList ++ tradeText trade ++ "/projection".toList
  | .tradeReportCurrent => "/v1/trades/".toList ++ tradeText trade ++ "/reports/current".toList
  | .presenceDesired => "/v1/presence/desired".toList
  | .list .reconciliationJobs => "/v1/reconciliation/jobs".toList
  | .list .sources => "/v1/sources".toList
  | .list .tradeReports => "/v1/trades/".toList ++ tradeText trade ++ "/reports".toList
  | .list .publicationBacklog => "/v1/publication/backlog".toList
  | .list .publicationTargets => "/v1/publication/targets".toList

end GetRoute

/-- `paged_target`. -/
def pagedTarget (path : Text) (page : PageQuery) : Text :=
  let target := path ++ "?limit=".toList ++ Nat.toDigits 10 page.limit.toNat
  match page.cursor with
  | some cursor => target ++ "&cursor=".toList ++ cursor.toList
  | none => target

/-- `str::split_once`. -/
def splitOnce (separator : Char) : Text → Option (Text × Text)
  | [] => none
  | first :: rest =>
      if first = separator then
        some ([], rest)
      else
        (splitOnce separator rest).map fun (before, after) => (first :: before, after)

/-- The query part of a target. -/
def targetQuery (target : Text) : Option Text := (splitOnce '?' target).map (·.2)

end Routes

section Percents

/-- `RhiAdminDocumentErrorKind`, as far as queries go; `outOfBounds` is the panic of an index past
the end of a text. -/
inductive QueryError where
  | invalidModel
  | duplicateField
  | outOfBounds
deriving DecidableEq, Repr

/-- `hex_nibble`. -/
def hexNibble (byte : UInt8) : Option UInt8 :=
  if 48 ≤ byte ∧ byte ≤ 57 then some (byte - 48)
  else if 97 ≤ byte ∧ byte ≤ 102 then some (byte - 97 + 10)
  else if 65 ≤ byte ∧ byte ≤ 70 then some (byte - 65 + 10)
  else none

/-- `u8::is_ascii_hexdigit`. -/
def isAsciiHexdigit (byte : UInt8) : Bool :=
  decide (48 ≤ byte ∧ byte ≤ 57) || decide (65 ≤ byte ∧ byte ≤ 70) ||
    decide (97 ≤ byte ∧ byte ≤ 102)

/-- The loop of `valid_percent_encoding`, on the bytes from the index on. -/
def validEscapes : List UInt8 → Bool
  | [] => true
  | byte :: rest =>
      if byte = 0x25 then
        match rest with
        | high :: low :: later => isAsciiHexdigit high && isAsciiHexdigit low && validEscapes later
        | _ => false
      else
        validEscapes rest

/-- `valid_percent_encoding`. -/
def validPercentEncoding (value : Text) : Bool := validEscapes (utf8 value)

/-- The loop of `percent_decode`, on the bytes from the index on. -/
def decodeEscapes : List UInt8 → Except QueryError (List UInt8)
  | [] => .ok []
  | byte :: rest =>
      if byte = 0x25 then
        match rest with
        | high :: low :: later => do
            let high ← orError (hexNibble high) .invalidModel
            let low ← orError (hexNibble low) .invalidModel
            let decoded ← decodeEscapes later
            pure ((high <<< 4 ||| low) :: decoded)
        | [high] => do
            let _ ← orError (hexNibble high) .invalidModel
            .error .outOfBounds
        | [] => .error .outOfBounds
      else do
        let decoded ← decodeEscapes rest
        pure ((if byte = 0x2b then 0x20 else byte) :: decoded)

/-- `percent_decode`. -/
def percentDecode (value : Text) : Except QueryError String := do
  let decoded ← decodeEscapes (utf8 value)
  let text ← orError (textOfUtf8 decoded) .invalidModel
  pure (String.ofList text)

end Percents

section Models

/-- `Map::insert`. -/
def QueryModel.insert (model : QueryModel) (key : String) (value : Scalar) : QueryModel where
  entries := SortedEntries.insert (key, value) model.entries
  sorted := SortedEntries.sorted_insert model.sorted

/-- The model without fields. -/
def QueryModel.empty : QueryModel := ⟨[], List.Pairwise.nil⟩

/-- A number without leading zeros. -/
def canonicalInteger (value : Text) : Bool :=
  value == ['0'] ||
    (value.head?.any Char.isDigit && value.head? != some '0' && value.all Char.isDigit)

/-- `query_scalar`. -/
def queryScalar (type : FieldType) (value : String) : Except QueryError Scalar :=
  match type with
  | .pageLimit => do
      require (canonicalInteger value.toList) .invalidModel
      let number := Nat.ofDigitChars 10 value.toList 0
      require (decide (number < 2 ^ 64)) .invalidModel
      pure (.number number)
  | .bool =>
      if value = "true" then .ok (.boolean true)
      else if value = "false" then .ok (.boolean false)
      else .error .invalidModel
  | _ => .ok (.text value)

/-- One turn of the loop of `query_model`. -/
def queryItem (fields : List QueryField) (output : QueryModel) (item : Text) :
    Except QueryError QueryModel := do
  let (rawKey, rawValue) ← orError (splitOnce '=' item) .invalidModel
  require (!(rawKey.isEmpty || !validPercentEncoding rawKey || !validPercentEncoding rawValue))
    .invalidModel
  let key ← percentDecode rawKey
  let value ← percentDecode rawValue
  require (!(output.get key).isSome) .duplicateField
  let descriptor ← orError (fields.find? fun field => field.name == key) .invalidModel
  let scalar ← queryScalar descriptor.type value
  pure (output.insert key scalar)

/-- `query_model`. -/
def queryModel (route : GetRoute) (query : Option Text) : Except QueryError QueryModel :=
  match query with
  | none => .ok QueryModel.empty
  | some query => do
      require (!query.isEmpty) .invalidModel
      (query.splitOn '&').foldlM (queryItem route.fields) QueryModel.empty

/-- `validate_model`. -/
def validateModel (fields : List QueryField) (model : QueryModel) : Except QueryError Unit := do
  require (model.entries.all fun entry => fields.any fun field => field.name == entry.1)
    .invalidModel
  fields.forM fun field =>
    match model.get field.name with
    | some value => require (field.type.validates value) .invalidModel
    | none => require (!field.required) .invalidModel

end Models

end Rhi
