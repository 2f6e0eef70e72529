import Rhi.Admin.Queries
import Rhi.Lib.Transaction

/-!
# Pages of the list routes

A page is cut out of the rows that a request selects, at the position that its cursor stands for,
and the cursor of the next page is made for the digest of the query.  The digest is taken of the
query alone, while the reports of a trade are also selected by the trade in the path.
-/

namespace Rhi

open Transactional

section Selections

/-- What the statement of a list is bound to, but for the snapshot and the bounds of the page.  Ids
are kept as their texts, which the contract admits in one spelling only. -/
inductive Selection where
  | reconciliationJobs (state tradeId : Option String)
  | sources (required : Option Bool) (completion : Option String)
  | tradeReports (tradeId : String) (outcome : Option String)
  | publicationBacklog (state : Option String)
  | publicationTargets (workflowId state : Option String)
deriving DecidableEq, Repr

/-- `contract_outcome_to_db`. -/
def contractOutcomeToDb (value : String) : Except AdminHandlerErrorKind String :=
  if value = "Valid" then .ok "valid"
  else if value = "Invalid" then .ok "invalid"
  else if value = "Indeterminate" then .ok "indeterminate"
  else .error .internal

/-- `parse_trade_id`, the bytes of an id kept as their one text. -/
def parseTradeId (value : String) : Except AdminHandlerErrorKind String :=
  if lowerHex value 32 then .ok value else .error .internal

/-- `parse_digest`. -/
def parseDigest (value : String) : Except AdminHandlerErrorKind String :=
  if lowerHex value 64 then .ok value else .error .internal

/-- What the handler of a route reads of a request before it looks at the cursor. -/
def ListRequest.selection (request : ListRequest) : Except AdminHandlerErrorKind Selection :=
  match request.route with
  | .reconciliationJobs => do
      let tradeId ← (request.model.text "trade_id").mapM parseTradeId
      pure (.reconciliationJobs (request.model.text "state") tradeId)
  | .sources => .ok (.sources (request.model.boolean "required") (request.model.text "completion"))
  | .tradeReports => do
      let tradeId ← orError request.tradeId .internal
      let tradeId ← parseTradeId tradeId
      let outcome ← (request.model.text "outcome").mapM contractOutcomeToDb
      pure (.tradeReports tradeId outcome)
  | .publicationBacklog => .ok (.publicationBacklog (request.model.text "state"))
  | .publicationTargets => do
      let workflowId ← (request.model.text "workflow_id").mapM parseDigest
      pure (.publicationTargets workflowId (request.model.text "state"))

/-- Two requests that differ in their cursors at most. -/
structure SameQuery (first second : ListRequest) : Prop where
  route : first.route = second.route
  tradeId : first.tradeId = second.tradeId
  fields : ∀ field, field ≠ "cursor" → first.model.get field = second.model.get field

/-- Two requests for the reports of different trades, with the same query but for the cursor. -/
structure OtherTrade (first second : ListRequest) : Prop where
  route : first.route = .tradeReports
  sameRoute : second.route = .tradeReports
  fields : ∀ field, field ≠ "cursor" → first.model.get field = second.model.get field
  tradeId : first.tradeId ≠ second.tradeId

end Selections

section Handlers

variable {Item : Type}

/-- What a list route answers. -/
structure AdminPage (Item : Type) where
  items : List Item
  snapshotGeneration : UInt64
  nextCursor : Option String
deriving DecidableEq

/-- What the host reads for the list routes. -/
structure ListStore (Item : Type) where
  /-- Whether the sources of the configuration are read. -/
  configured : Bool
  /-- The rows that the statement of a selection and a snapshot has in its order, without bounds; a
  row that is not read as an item is absent.  The transaction may fail as a whole. -/
  rows : Selection → UInt64 → Option (List (Option Item))
  /-- Whether the page is a document of the contract. -/
  admits : AdminPage Item → Bool

/-- `response`. -/
def response (store : ListStore Item) (page : AdminPage Item) :
    Except AdminHandlerErrorKind (AdminPage Item) :=
  if store.admits page then .ok page else .error .internal

theorem response_eq_ok {store : ListStore Item} {page other : AdminPage Item}
    (answered : response store page = .ok other) : page = other := by
  unfold response at answered
  split at answered
  · cases answered
    rfl
  · cases answered

variable [Sha256]

/-- The handlers that bound their statement by one row more than the limit: `reconciliation_jobs`,
`trade_reports`, `publication_backlog` and `publication_targets`. -/
def fetchPage (key : CursorKey) (store : ListStore Item) (clock : Option UInt64)
    (request : ListRequest) : Except AdminHandlerErrorKind (AdminPage Item) := do
  let limit ← pageLimit request.model
  let selection ← request.selection
  let newSnapshot ← orError clock .unavailable
  let (snapshot, offset) ← cursorOrNew key request newSnapshot
  require (decide (snapshot.toNat < 2 ^ 63)) .internal
  let rows ← orError (store.rows selection snapshot) .internal
  let fetched := (rows.drop offset.toNat).take (limit + 1)
  let items ← (fetched.take limit).mapM fun row => orError row .internal
  if limit < fetched.length then
    require (decide (offset.toNat + limit < 2 ^ 32)) .internal
    response store ⟨items, snapshot, some (encodeRuntimeCursor key request.route.route snapshot
      (UInt32.ofNat (offset.toNat + limit)) (queryDigest request.model))⟩
  else
    response store ⟨items, snapshot, none⟩

/-- `sources`, which reads all rows, and refuses a cursor beyond them. -/
def sourcesPage (key : CursorKey) (store : ListStore Item) (clock : Option UInt64)
    (request : ListRequest) : Except AdminHandlerErrorKind (AdminPage Item) := do
  let limit ← pageLimit request.model
  let selection ← request.selection
  require store.configured .internal
  let newSnapshot ← orError clock .unavailable
  let (snapshot, offset) ← cursorOrNew key request newSnapshot
  require (decide (snapshot.toNat < 2 ^ 63)) .internal
  let rows ← orError (store.rows selection snapshot) .internal
  let items ← rows.mapM fun row => orError row .internal
  require (decide (offset.toNat ≤ items.length)) .invalidCursor
  let stop := min (offset.toNat + limit) items.length
  if stop < items.length then
    require (decide (stop < 2 ^ 32)) .internal
    response store ⟨(items.take stop).drop offset.toNat, snapshot, some (encodeRuntimeCursor key
      request.route.route snapshot (UInt32.ofNat stop) (queryDigest request.model))⟩
  else
    response store ⟨(items.take stop).drop offset.toNat, snapshot, none⟩

/-- The answer of a list route.  The clock is read in seconds for `trade_reports`, and in
milliseconds for the other routes. -/
def listPage (key : CursorKey) (store : ListStore Item) (clock : Option UInt64)
    (request : ListRequest) : Except AdminHandlerErrorKind (AdminPage Item) :=
  match request.route with
  | .sources => sourcesPage key store clock request
  | _ => fetchPage key store clock request

end Handlers

section Answers

variable {Item : Type}

theorem mem_of_mapM_orError {rows : List (Option Item)} {items : List Item}
    (read : (rows.mapM fun row => orError row AdminHandlerErrorKind.internal) = .ok items) :
    ∀ item ∈ items, some item ∈ rows := by
  induction rows generalizing items with
  | nil =>
      cases read
      exact fun _ member => absurd member List.not_mem_nil
  | cons row rows ih =>
      rw [List.mapM_cons] at read
      rcases bind_eq_ok.mp read with ⟨first, here, read⟩
      rcases bind_eq_ok.mp read with ⟨others, later, read⟩
      cases read
      intro item member
      rcases List.mem_cons.mp member with rfl | member
      · rw [orError_eq_ok.mp here]
        exact List.mem_cons_self
      · exact List.mem_cons_of_mem _ (ih later item member)

variable [Sha256] {key : CursorKey} {store : ListStore Item} {clock : Option UInt64}
  {request first second : ListRequest} {page : AdminPage Item}

/-- What a page was cut out of, and what its next cursor stands for. -/
structure PageAnswered (key : CursorKey) (store : ListStore Item) (request : ListRequest)
    (page : AdminPage Item) : Prop where
  limit : ∃ limit, pageLimit request.model = .ok limit
  position : ∃ newSnapshot offset,
    cursorOrNew key request newSnapshot = .ok (page.snapshotGeneration, offset)
  snapshot : page.snapshotGeneration.toNat < 2 ^ 63
  rows : ∃ selection rows, request.selection = .ok selection ∧
    store.rows selection page.snapshotGeneration = some rows ∧
      ∀ item ∈ page.items, some item ∈ rows
  nextCursor : ∀ text ∈ page.nextCursor, ∃ offset, text = encodeRuntimeCursor key
    request.route.route page.snapshotGeneration offset (queryDigest request.model)

theorem answered_of_fetchPage (answered : fetchPage key store clock request = .ok page) :
    PageAnswered key store request page := by
  rcases bind_eq_ok.mp answered with ⟨limit, isLimit, answered⟩
  rcases bind_eq_ok.mp answered with ⟨selection, isSelection, answered⟩
  rcases bind_eq_ok.mp answered with ⟨newSnapshot, -, answered⟩
  rcases bind_eq_ok.mp answered with ⟨⟨snapshot, offset⟩, isPosition, answered⟩
  rcases bind_eq_ok.mp answered with ⟨_, small, answered⟩
  rcases bind_eq_ok.mp answered with ⟨rows, isRows, answered⟩
  rcases bind_eq_ok.mp answered with ⟨items, isItems, answered⟩
  have small := of_decide_eq_true (require_eq_ok.mp small)
  have within : ∀ item ∈ items, some item ∈ rows := fun item member =>
    List.mem_of_mem_drop (List.mem_of_mem_take
      (List.mem_of_mem_take (mem_of_mapM_orError isItems item member)))
  split at answered
  · rcases bind_eq_ok.mp answered with ⟨_, -, answered⟩
    cases response_eq_ok answered
    refine ⟨⟨limit, isLimit⟩, ⟨newSnapshot, offset, isPosition⟩, small,
      ⟨selection, rows, isSelection, orError_eq_ok.mp isRows, within⟩, ?_⟩
    rintro text ⟨⟩
    exact ⟨_, rfl⟩
  · cases response_eq_ok answered
    exact ⟨⟨limit, isLimit⟩, ⟨newSnapshot, offset, isPosition⟩, small,
      ⟨selection, rows, isSelection, orError_eq_ok.mp isRows, within⟩, nofun⟩

theorem answered_of_sourcesPage (answered : sourcesPage key store clock request = .ok page) :
    PageAnswered key store request page := by
  rcases bind_eq_ok.mp answered with ⟨limit, isLimit, answered⟩
  rcases bind_eq_ok.mp answered with ⟨selection, isSelection, answered⟩
  rcases bind_eq_ok.mp answered with ⟨_, -, answered⟩
  rcases bind_eq_ok.mp answered with ⟨newSnapshot, -, answered⟩
  rcases bind_eq_ok.mp answered with ⟨⟨snapshot, offset⟩, isPosition, answered⟩
  rcases bind_eq_ok.mp answered with ⟨_, small, answered⟩
  rcases bind_eq_ok.mp answered with ⟨rows, isRows, answered⟩
  rcases bind_eq_ok.mp answered with ⟨items, isItems, answered⟩
  rcases bind_eq_ok.mp answered with ⟨_, -, answered⟩
  have small := of_decide_eq_true (require_eq_ok.mp small)
  have within : ∀ stop, ∀ item ∈ (items.take stop).drop offset.toNat, some item ∈ rows :=
    fun stop item member => mem_of_mapM_orError isItems item
      (List.mem_of_mem_take (List.mem_of_mem_drop member))
  dsimp only at answered
  split at answered
  · rcases bind_eq_ok.mp answered with ⟨_, -, answered⟩
    cases response_eq_ok answered
    refine ⟨⟨limit, isLimit⟩, ⟨newSnapshot, offset, isPosition⟩, small,
      ⟨selection, rows, isSelection, orError_eq_ok.mp isRows, within _⟩, ?_⟩
    rintro text ⟨⟩
    exact ⟨_, rfl⟩
  · cases response_eq_ok answered
    exact ⟨⟨limit, isLimit⟩, ⟨newSnapshot, offset, isPosition⟩, small,
      ⟨selection, rows, isSelection, orError_eq_ok.mp isRows, within _⟩, nofun⟩

theorem answered_of_listPage (answered : listPage key store clock request = .ok page) :
    PageAnswered key store request page := by
  unfold listPage at answered
  split at answered
  · exact answered_of_sourcesPage answered
  · exact answered_of_fetchPage answered

end Answers

section Queries

variable {request first second : ListRequest}

/-- Only the reports of a trade have a trade in their path. -/
theorem tradeId_eq_none (other : request.route ≠ .tradeReports) : request.tradeId = none := by
  have admitted := request.admitted
  unfold admitsRequest at admitted
  rw [Bool.and_eq_true] at admitted
  have parameter := admitted.2
  split at parameter
  case h_1 reports _ => exact absurd reports other
  case h_2 reports _ => exact absurd reports other
  case h_3 => exact Option.isNone_iff_eq_none.mp parameter

/-- The trade in the path of its reports is admitted as an id. -/
theorem parses_tradeId (reports : request.route = .tradeReports) :
    ∃ tradeId, request.tradeId = some tradeId ∧ parseTradeId tradeId = .ok tradeId := by
  have admitted := request.admitted
  unfold admitsRequest at admitted
  rw [Bool.and_eq_true, reports] at admitted
  cases given : request.tradeId with
  | none =>
      rw [given] at admitted
      cases admitted.2
  | some tradeId =>
      rw [given] at admitted
      have spelled := (Bool.and_eq_true _ _).mp admitted.2
      exact ⟨tradeId, rfl, if_pos spelled.2⟩

theorem text_eq (fields : ∀ field, field ≠ "cursor" →
    first.model.get field = second.model.get field) {field : String} (other : field ≠ "cursor") :
    first.model.text field = second.model.text field := by
  rw [QueryModel.text, QueryModel.text, fields field other]

theorem boolean_eq (fields : ∀ field, field ≠ "cursor" →
    first.model.get field = second.model.get field) {field : String} (other : field ≠ "cursor") :
    first.model.boolean field = second.model.boolean field := by
  rw [QueryModel.boolean, QueryModel.boolean, fields field other]

/-- One query selects one set of rows. -/
theorem selection_of_sameQuery (same : SameQuery first second) :
    first.selection = second.selection := by
  have text : ∀ {field}, field ≠ "cursor" → first.model.text field = second.model.text field :=
    fun other => text_eq same.fields other
  unfold ListRequest.selection
  rw [same.route, same.tradeId, text (by decide : "state" ≠ "cursor"),
    text (by decide : "trade_id" ≠ "cursor"), text (by decide : "completion" ≠ "cursor"),
    text (by decide : "outcome" ≠ "cursor"), text (by decide : "workflow_id" ≠ "cursor"),
    boolean_eq same.fields (by decide : "required" ≠ "cursor")]

/-- Where the reports of one trade are selected, those of the other trade are. -/
theorem exists_selection (unlike : OtherTrade first second) {selection : Selection}
    (selected : first.selection = .ok selection) : ∃ other, second.selection = .ok other := by
  rcases parses_tradeId unlike.sameRoute with ⟨tradeId, given, parsed⟩
  rw [ListRequest.selection, unlike.route] at selected
  rcases bind_eq_ok.mp selected with ⟨_, -, selected⟩
  rcases bind_eq_ok.mp selected with ⟨_, -, selected⟩
  rcases bind_eq_ok.mp selected with ⟨outcome, converted, -⟩
  rw [text_eq unlike.fields (by decide : "outcome" ≠ "cursor")] at converted
  refine ⟨.tradeReports tradeId outcome, ?_⟩
  rw [ListRequest.selection, unlike.sameRoute, given]
  exact bind_eq_ok.mpr ⟨tradeId, rfl, bind_eq_ok.mpr ⟨tradeId, parsed,
    bind_eq_ok.mpr ⟨outcome, converted, rfl⟩⟩⟩

/-- Requests that share their fields are one query, or ask for the reports of different trades. -/
theorem sameQuery_of_fields (route : first.route = second.route)
    (fields : ∀ field, field ≠ "cursor" → first.model.get field = second.model.get field)
    (alike : ¬OtherTrade first second) : SameQuery first second := by
  refine ⟨route, ?_, fields⟩
  by_cases reports : first.route = .tradeReports
  · by_contra different
    exact alike ⟨reports, route ▸ reports, fields, different⟩
  · rw [tradeId_eq_none reports, tradeId_eq_none (route ▸ reports)]

theorem SameQuery.not_otherTrade (same : SameQuery first second) : ¬OtherTrade first second :=
  fun unlike => unlike.tradeId same.tradeId

theorem SameQuery.trans {third : ListRequest} (same : SameQuery first second)
    (further : SameQuery second third) : SameQuery first third where
  route := same.route.trans further.route
  tradeId := same.tradeId.trans further.tradeId
  fields field other := (same.fields field other).trans (further.fields field other)

end Queries

section Acceptance

variable {Item : Type} [Sha256] {key : CursorKey} {store later : ListStore Item}
  {clock reading : Option UInt64} {first second : ListRequest} {page other : AdminPage Item}
  {text : String}

/-- Two queries whose digests collide are the same bytes. -/
def QueryCollisionFree (first second : ListRequest) : Prop :=
  queryDigest first.model = queryDigest second.model → first.model.digested = second.model.digested

/-- A next cursor is read again exactly where it was made for: for the route and the digest. -/
theorem read_of_nextCursor (answered : PageAnswered key store first page)
    (next : page.nextCursor = some text) (given : second.model.text "cursor" = some text)
    (reanswered : PageAnswered key later second other) :
    first.route = second.route ∧ queryDigest first.model = queryDigest second.model ∧
      page.snapshotGeneration = other.snapshotGeneration := by
  rcases answered.nextCursor text next with ⟨offset, rfl⟩
  rcases reanswered.position with ⟨newSnapshot, position, decoded⟩
  rw [cursorOrNew, given] at decoded
  have encoded := decodeRuntimeCursor_eq_ok decoded
  have same := @request_eq_of_encoded _ key key
    ⟨first.route.route, page.snapshotGeneration, offset, queryDigest first.model⟩
    ⟨second.route.route, other.snapshotGeneration, position, queryDigest second.model⟩ encoded
  rw [CursorRequest.mk.injEq] at same
  exact ⟨ListRoute.route_inj same.1, same.2.2.2, same.2.1⟩

theorem fields_of_digest (collisionFree : QueryCollisionFree first second)
    (same : queryDigest first.model = queryDigest second.model) :
    ∀ field, field ≠ "cursor" → first.model.get field = second.model.get field :=
  QueryModel.filters_eq_iff.mp (Json.objectBytes_inj (collisionFree same))

theorem digest_of_fields
    (fields : ∀ field, field ≠ "cursor" → first.model.get field = second.model.get field) :
    queryDigest first.model = queryDigest second.model := by
  rw [queryDigest, queryDigest, QueryModel.digested, QueryModel.digested,
    QueryModel.filters_eq_iff.mpr fields]

/-- A host that has no rows left. -/
def emptyStore (Item : Type) : ListStore Item := ⟨true, fun _ _ => some [], fun _ => true⟩

theorem fetchPage_emptyStore {limit : Nat} {selection : Selection} {snapshot : UInt64}
    {offset : UInt32} (isLimit : pageLimit second.model = .ok limit)
    (isSelection : second.selection = .ok selection)
    (isPosition : cursorOrNew key second 0 = .ok (snapshot, offset))
    (small : snapshot.toNat < 2 ^ 63) :
    fetchPage key (emptyStore Item) (some 0) second = .ok ⟨[], snapshot, none⟩ := by
  refine bind_eq_ok.mpr ⟨limit, isLimit, bind_eq_ok.mpr ⟨selection, isSelection,
    bind_eq_ok.mpr ⟨0, rfl, bind_eq_ok.mpr ⟨(snapshot, offset), isPosition, bind_eq_ok.mpr
      ⟨(), require_eq_ok.mpr (decide_eq_true small), bind_eq_ok.mpr ⟨[], rfl, ?_⟩⟩⟩⟩⟩⟩
  simp [emptyStore, response]

/-- A cursor of the reports of one trade is accepted for the reports of another trade. -/
theorem accepted_of_otherTrade (answered : PageAnswered key store first page)
    (next : page.nextCursor = some text) (given : second.model.text "cursor" = some text)
    (unlike : OtherTrade first second) :
    ∃ other, listPage key (emptyStore Item) (some 0) second = .ok other := by
  rcases answered.nextCursor text next with ⟨offset, rfl⟩
  rcases answered.limit with ⟨limit, isLimit⟩
  rcases answered.rows with ⟨selection, -, isSelection, -⟩
  rcases exists_selection unlike isSelection with ⟨other, isOther⟩
  have sameLimit : pageLimit second.model = .ok limit := by
    rw [← isLimit, pageLimit, pageLimit, unlike.fields "limit" (by decide)]
  have position : cursorOrNew key second 0 = .ok (page.snapshotGeneration, offset) := by
    rw [cursorOrNew, given, unlike.route, digest_of_fields unlike.fields, unlike.sameRoute]
    exact decodeRuntimeCursor_encodeRuntimeCursor key ⟨_, _, _, _⟩
  have fetched : listPage key (emptyStore Item) (some 0) second =
      fetchPage key (emptyStore Item) (some 0) second := by
    rw [listPage, unlike.sameRoute]
  exact ⟨_, fetched.trans (fetchPage_emptyStore sameLimit isOther position answered.snapshot)⟩

/-- A next cursor is accepted for its own query only, but for the reports of another trade. -/
theorem sameQuery_iff (answered : listPage key store clock first = .ok page)
    (next : page.nextCursor = some text) (given : second.model.text "cursor" = some text)
    (collisionFree : QueryCollisionFree first second) :
    (∀ (later : ListStore Item) (reading : Option UInt64) (other : AdminPage Item),
      listPage key later reading second = .ok other → SameQuery first second) ↔
      ¬OtherTrade first second := by
  have answered := answered_of_listPage answered
  constructor
  · intro bound unlike
    rcases accepted_of_otherTrade answered next given unlike with ⟨other, accepted⟩
    exact (bound _ _ other accepted).not_otherTrade unlike
  · intro alike later reading other accepted
    rcases read_of_nextCursor answered next given (answered_of_listPage accepted) with
      ⟨route, digest, -⟩
    exact sameQuery_of_fields route (fields_of_digest collisionFree digest) alike

end Acceptance

section Traversals

variable {Item : Type}

/-- A request, what the host held when it was answered, and the answer. -/
structure PageVisit (Item : Type) where
  request : ListRequest
  store : ListStore Item
  clock : Option UInt64
  page : AdminPage Item

/-- The cursor of one page is sent for the next page. -/
def PageVisit.Continues (before after : PageVisit Item) : Prop :=
  ∃ text, before.page.nextCursor = some text ∧ after.request.model.text "cursor" = some text

/-- Two visits that read one query at one snapshot. -/
structure PageVisit.Agrees (before after : PageVisit Item) : Prop where
  query : SameQuery before.request after.request
  snapshot : before.page.snapshotGeneration = after.page.snapshotGeneration

instance : IsTrans (PageVisit Item) PageVisit.Agrees where
  trans _ _ _ same further :=
    ⟨same.query.trans further.query, same.snapshot.trans further.snapshot⟩

variable [Sha256]

/-- The pages of one traversal, the host updated at will between them. -/
structure Traversal (key : CursorKey) (visits : List (PageVisit Item)) : Prop where
  answered : ∀ visit ∈ visits, listPage key visit.store visit.clock visit.request = .ok visit.page
  continued : visits.IsChain PageVisit.Continues
  collisionFree : visits.IsChain fun before after => QueryCollisionFree before.request after.request

/-- The pages are of one query at one snapshot, and hold its rows only. -/
structure SingleQuery (visits : List (PageVisit Item)) : Prop where
  agrees : visits.Pairwise PageVisit.Agrees
  rows : ∃ selection snapshot, ∀ visit ∈ visits, visit.request.selection = .ok selection ∧
    visit.page.snapshotGeneration = snapshot ∧
      ∃ rows, visit.store.rows selection snapshot = some rows ∧
        ∀ item ∈ visit.page.items, some item ∈ rows

variable {key : CursorKey} {visits : List (PageVisit Item)}

theorem agrees_of_continues {before after : PageVisit Item}
    (answered : PageAnswered key before.store before.request before.page)
    (reanswered : PageAnswered key after.store after.request after.page)
    (continues : before.Continues after)
    (collisionFree : QueryCollisionFree before.request after.request)
    (alike : ¬OtherTrade before.request after.request) : before.Agrees after := by
  rcases continues with ⟨text, next, given⟩
  rcases read_of_nextCursor answered next given reanswered with ⟨route, digest, snapshot⟩
  exact ⟨sameQuery_of_fields route (fields_of_digest collisionFree digest) alike, snapshot⟩

theorem pairwise_agrees (traversal : Traversal key visits)
    (alike : visits.IsChain fun before after => ¬OtherTrade before.request after.request) :
    visits.Pairwise PageVisit.Agrees := by
  have steps := List.isChain_iff_getElem.mp traversal.continued
  have collisionFree := List.isChain_iff_getElem.mp traversal.collisionFree
  have alike := List.isChain_iff_getElem.mp alike
  refine List.isChain_iff_pairwise.mp (List.isChain_iff_getElem.mpr ?_)
  intro index bound
  have answered : ∀ visit ∈ visits, PageAnswered key visit.store visit.request visit.page :=
    fun visit member => answered_of_listPage (traversal.answered visit member)
  exact agrees_of_continues (answered _ (List.getElem_mem _)) (answered _ (List.getElem_mem _))
    (steps index bound) (collisionFree index bound) (alike index bound)

theorem singleQuery_of_agrees (traversal : Traversal key visits)
    (agrees : visits.Pairwise PageVisit.Agrees) : SingleQuery visits := by
  refine ⟨agrees, ?_⟩
  cases visits with
  | nil => exact ⟨.sources none none, 0, nofun⟩
  | cons first others =>
      have answered := answered_of_listPage (traversal.answered first List.mem_cons_self)
      rcases answered.rows with ⟨selection, rows, isSelection, isRows, within⟩
      refine ⟨selection, first.page.snapshotGeneration, ?_⟩
      intro visit member
      rcases List.mem_cons.mp member with rfl | member
      · exact ⟨isSelection, rfl, rows, isRows, within⟩
      · have same := (List.pairwise_cons.mp agrees).1 visit member
        have sameSelection := (selection_of_sameQuery same.query).symm.trans isSelection
        have reanswered := answered_of_listPage
          (traversal.answered visit (List.mem_cons_of_mem _ member))
        rcases reanswered.rows with ⟨other, rows, isOther, isRows, within⟩
        cases isOther.symm.trans sameSelection
        exact ⟨sameSelection, same.snapshot.symm, rows, same.snapshot ▸ isRows, within⟩

/-- A traversal stays with its query exactly if no cursor is taken to another trade. -/
theorem singleQuery_iff (traversal : Traversal key visits) : SingleQuery visits ↔
    visits.IsChain fun before after => ¬OtherTrade before.request after.request := by
  constructor
  · intro single
    exact single.agrees.isChain.imp fun _ _ agrees => agrees.query.not_otherTrade
  · intro alike
    exact singleQuery_of_agrees traversal (pairwise_agrees traversal alike)

/-- What a cursor is bound to. -/
structure CursorsBound (key : CursorKey) (Item : Type) : Prop where
  pair : ∀ (store : ListStore Item) (clock : Option UInt64) (first second : ListRequest)
    (page : AdminPage Item) (text : String), listPage key store clock first = .ok page →
      page.nextCursor = some text → second.model.text "cursor" = some text →
        QueryCollisionFree first second →
          ((∀ (later : ListStore Item) (reading : Option UInt64) (other : AdminPage Item),
            listPage key later reading second = .ok other → SameQuery first second) ↔
            ¬OtherTrade first second)
  traversal : ∀ visits : List (PageVisit Item), Traversal key visits → (SingleQuery visits ↔
    visits.IsChain fun before after => ¬OtherTrade before.request after.request)

theorem cursors_bound_iff (key : CursorKey) (Item : Type) : CursorsBound key Item where
  pair _ _ _ _ _ _ answered next given collisionFree :=
    sameQuery_iff answered next given collisionFree
  traversal _ traversal := singleQuery_iff traversal

end Traversals

section Exceptions

namespace Sample.Pages

local instance : Sha256 := ⟨Hashing.sha256⟩

def key : CursorKey := 0x2a#256

def trade : String := "11111111111111111111111111111111"

def otherTrade : String := "22222222222222222222222222222222"

/-- The reports of a trade, one on a page. -/
def first : ListRequest where
  route := .tradeReports
  tradeId := some trade
  model := ⟨[("limit", .number 1)], by decide⟩
  admitted := by decide +kernel

/-- The position after the first page, at the snapshot of second 5. -/
def cursor : String :=
  "AQ0AAAAAAAAABQAAAAEVb-3vmvl2hdDm9D7r5V2K5n_L80sv6iPCsa8GG0vN8BN_JEMTnGLPXPHkykdbbj6NBMNj9OzxbN_8CjY9QyY9"

def model : QueryModel := ⟨[("cursor", .text cursor), ("limit", .number 1)], by decide⟩

theorem validates_model : model.validates .tradeReports = true := by decide +kernel

/-- The next page of the reports of a trade. -/
def next (tradeId : String) (admitted : FieldType.tradeId.validates (.text tradeId) = true) :
    ListRequest where
  route := .tradeReports
  tradeId := some tradeId
  model := model
  admitted := (Bool.and_eq_true _ _).mpr ⟨validates_model, admitted⟩

def second : ListRequest := next trade (by decide +kernel)

def crossing : ListRequest := next otherTrade (by decide +kernel)

def store : ListStore String where
  configured := true
  rows
    | .tradeReports tradeId _, _ =>
        if tradeId = trade then some [some "second of the trade", some "first of the trade"]
        else some [some "second of the other trade", some "first of the other trade"]
    | _, _ => some []
  admits _ := true

def visits : List (PageVisit String) :=
  [⟨first, store, some 5, ["second of the trade"], 5, some cursor⟩,
    ⟨second, store, some 6, ["first of the trade"], 5, none⟩]

theorem answered : ∀ visit ∈ visits,
    listPage key visit.store visit.clock visit.request = .ok visit.page := by
  decide +kernel

theorem traversal : Traversal key visits := by
  refine ⟨answered, .cons_cons ⟨cursor, rfl, ?_⟩ (.singleton _), .cons_cons ?_ (.singleton _)⟩
  · rfl
  · exact fun _ => rfl

/-- The second page of a trade is of the query of the first page. -/
theorem cursor_stays : SingleQuery visits :=
  ((cursors_bound_iff key String).traversal visits traversal).mpr
    (.cons_cons (fun unlike => unlike.tradeId rfl) (.singleton _))

/-- The cursor of the reports of one trade turns a page of the reports of another trade. -/
theorem cursor_crosses :
    listPage key store (some 5) first = .ok ⟨["second of the trade"], 5, some cursor⟩ ∧
      crossing.model.text "cursor" = some cursor ∧ crossing.tradeId ≠ first.tradeId ∧
        listPage key store (some 6) crossing = .ok ⟨["first of the other trade"], 5, none⟩ := by
  refine ⟨answered _ List.mem_cons_self, rfl, by decide, ?_⟩
  decide +kernel

example : crossing.model.text "cursor" = second.model.text "cursor" := by decide +kernel

end Sample.Pages

end Exceptions

end Rhi
