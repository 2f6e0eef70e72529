import Rhi.Admin.Agreement

/-!
# Disguised cursors

A page request and its reading agree exactly when the cursor is not disguised.  A disguised cursor
begins with a writing of another cursor, or goes on behind an ampersand with writings of the filters
of its route.
-/

namespace Rhi

open Json Transactional

section Writings

theorem mem_utf8_iff {text : Text} {character : Char} (ascii : character.toNat < 128) :
    UInt8.ofNat character.toNat ∈ utf8 text ↔ character ∈ text := by
  have small : (UInt8.ofNat character.toNat).toNat = character.toNat := by
    rw [UInt8.toNat_ofNat']
    omega
  constructor
  · intro member
    rcases List.mem_flatMap.mp member with ⟨other, otherMem, member⟩
    by_cases otherAscii : other.toNat < 128
    · rw [utf8EncodeChar_of_ascii otherAscii, List.mem_singleton] at member
      have value := congrArg UInt8.toNat member
      rw [small, UInt8.toNat_ofNat'] at value
      have same : character = other := Char.toNat_inj.mp (by omega)
      exact same ▸ otherMem
    · have large := le_of_mem_utf8EncodeChar (Nat.not_lt.mp otherAscii) member
      omega
  · intro member
    refine List.mem_flatMap.mpr ⟨character, member, ?_⟩
    rw [utf8EncodeChar_of_ascii ascii]
    exact List.mem_singleton_self _

namespace Spells

theorem unique {raw left right : Text} (first : Spells raw left) (second : Spells raw right) :
    left = right :=
  utf8_inj (Percent.Spelling.unique first second)

theorem of_plain {raw : Text} (noPercent : '%' ∉ raw) (noPlus : '+' ∉ raw) : Spells raw raw := by
  refine Percent.Spelling.of_plain ?_ ?_
  · exact fun member => noPercent ((mem_utf8_iff (by decide)).mp member)
  · exact fun member => noPlus ((mem_utf8_iff (by decide)).mp member)

theorem eq_of_plain {raw text : Text} (spelled : Spells raw text) (noPercent : '%' ∉ raw)
    (noBlank : ' ' ∉ text) : text = raw := by
  refine utf8_inj (Percent.Spelling.eq_of_plain spelled ?_ ?_)
  · exact fun member => noPercent ((mem_utf8_iff (by decide)).mp member)
  · exact fun member => noBlank ((mem_utf8_iff (by decide)).mp member)

end Spells

/-- The symbols of a cursor are symbols of Base64. -/
theorem mem_alphabet_of_pageCursor {text : String}
    (valid : FieldType.pageCursor.validates (.text text) = true) :
    ∀ character ∈ text.toList, character ∈ Base64.alphabet := by
  simp only [FieldType.validates, Bool.and_eq_true] at valid
  rcases canonicalBase64urlNoPadding_iff.mp valid.2 with ⟨symbols, read, -⟩
  rcases Base64.mapM_value_eq_some read with ⟨bounded, same⟩
  intro character member
  rw [← same] at member
  rcases List.mem_map.mp member with ⟨bits, bitsMem, rfl⟩
  exact Base64.symbol_mem_alphabet (bounded bits bitsMem)

end Writings

section Items

/-- An item whose key is written plainly. -/
theorem readsAs_plain_iff {fields : List QueryField} {key : String} {rawValue : Text}
    {entry : Entry} (nonempty : key.toList ≠ []) (noEquals : '=' ∉ key.toList)
    (noPercent : '%' ∉ key.toList) (noPlus : '+' ∉ key.toList) :
    ReadsAs fields (key.toList ++ '=' :: rawValue) entry ↔
      entry.1 = key ∧ ∃ value : String, ∃ field, Spells rawValue value.toList ∧
        (fields.find? fun field => field.name == key) = some field ∧
        queryScalar field.type value = .ok entry.2 := by
  constructor
  · rintro ⟨rawKey, raw, value, field, split, absent, -, keySpelled, valueSpelled, found, read⟩
    have first := splitOnce_eq_some_iff.mpr
      (⟨rfl, noEquals⟩ : key.toList ++ '=' :: rawValue = key.toList ++ '=' :: rawValue ∧ _)
    have second := splitOnce_eq_some_iff.mpr ⟨split, absent⟩
    cases first.symm.trans second
    have named : entry.1 = key :=
      String.toList_inj.mp (keySpelled.unique (.of_plain noPercent noPlus))
    exact ⟨named, value, field, valueSpelled, named ▸ found, read⟩
  · rintro ⟨rfl, value, field, valueSpelled, found, read⟩
    exact ⟨_, rawValue, value, field, rfl, noEquals, nonempty, .of_plain noPercent noPlus,
      valueSpelled, found, read⟩

theorem queryScalar_limit {limit : UInt16} (lower : 1 ≤ limit) (upper : limit ≤ 200) :
    queryScalar .pageLimit (String.ofList (Nat.toDigits 10 limit.toNat)) =
      .ok (.number limit.toNat) := by
  have every : ∀ number : Fin 201, 1 ≤ number.val →
      queryScalar .pageLimit (String.ofList (Nat.toDigits 10 number.val)) =
        .ok (.number number.val) := by
    decide +kernel
  have lowerNat : 1 ≤ limit.toNat := UInt16.le_iff_toNat_le.mp lower
  have upperNat : limit.toNat ≤ 200 := UInt16.le_iff_toNat_le.mp upper
  exact every ⟨limit.toNat, by omega⟩ lowerNat

theorem validPage (page : PageQuery) : 1 ≤ page.limit ∧ page.limit ≤ 200 := by
  have admitted := page.admitted
  simp only [admitsPage, Bool.and_eq_true, decide_eq_true_eq] at admitted
  exact admitted.1

theorem find?_limit (pages : ListRoute) :
    ((queryFields pages).find? fun field => field.name == "limit") = some .limit := by
  cases pages <;> rfl

theorem find?_cursor (pages : ListRoute) :
    ((queryFields pages).find? fun field => field.name == "cursor") = some .cursor := by
  cases pages <;> rfl

theorem names_nodup (pages : ListRoute) :
    ((queryFields pages).map QueryField.name).Nodup := by
  cases pages <;> decide

/-- Of the fields of a list route only the limit is required. -/
theorem eq_limit_of_required {pages : ListRoute} {field : QueryField}
    (member : field ∈ queryFields pages) (required : field.required = true) :
    field.name = "limit" := by
  have every : (queryFields pages).all
      (fun field => !field.required || field.name == "limit") = true := by
    cases pages <;> rfl
  have here := List.all_eq_true.mp every field member
  rw [required] at here
  exact beq_iff_eq.mp here

/-- Routes without pages have no limit. -/
theorem find?_limit_eq_none {route : GetRoute} (unpaged : ∀ pages, route ≠ .list pages) :
    (route.fields.find? fun field => field.name == "limit") = none := by
  cases route with
  | list pages => exact absurd rfl (unpaged pages)
  | _ => rfl

end Items

section Validation

theorem forM_eq_ok_iff {Error Element : Type} {check : Element → Except Error Unit}
    {elements : List Element} :
    elements.forM check = .ok () ↔ ∀ element ∈ elements, check element = .ok () := by
  induction elements with
  | nil => simp
  | cons element elements ih =>
      rw [List.forall_mem_cons, ← ih]
      refine bind_eq_ok.trans ?_
      exact ⟨fun ⟨_, first, later⟩ => ⟨first, later⟩, fun ⟨first, later⟩ => ⟨(), first, later⟩⟩

/-- A value that its field takes. -/
def Valid (fields : List QueryField) (entry : Entry) : Prop :=
  ∃ field, (fields.find? fun field => field.name == entry.1) = some field ∧
    field.type.validates entry.2 = true

theorem find?_eq_some_iff_of_nodup {fields : List QueryField} {name : String} {field : QueryField}
    (distinct : (fields.map QueryField.name).Nodup) :
    (fields.find? fun field => field.name == name) = some field ↔
      field ∈ fields ∧ field.name = name := by
  constructor
  · intro found
    have named := List.find?_some found
    exact ⟨List.mem_of_find?_eq_some found, beq_iff_eq.mp named⟩
  · rintro ⟨member, rfl⟩
    cases found : fields.find? fun other => other.name == field.name with
    | none => exact absurd (beq_self_eq_true _) (List.find?_eq_none.mp found field member)
    | some other =>
        have named := List.find?_some found
        rw [List.inj_on_of_nodup_map distinct (List.mem_of_find?_eq_some found) member
          (beq_iff_eq.mp named)]

theorem validateModel_eq_ok_iff {fields : List QueryField} {model : QueryModel}
    (distinct : (fields.map QueryField.name).Nodup) :
    validateModel fields model = .ok () ↔
      (∀ entry ∈ model.entries, Valid fields entry) ∧
        ∀ field ∈ fields, field.required = true → model.get field.name ≠ none := by
  simp only [validateModel, bind_eq_ok, require_eq_ok, forM_eq_ok_iff, List.all_eq_true,
    List.any_eq_true, beq_iff_eq]
  constructor
  · rintro ⟨-, known, checked⟩
    refine ⟨?_, ?_⟩
    · intro entry member
      rcases known entry member with ⟨field, fieldMem, named⟩
      have valid := checked field fieldMem
      rw [named, QueryModel.get_eq_some_iff.mpr member] at valid
      exact ⟨field, (find?_eq_some_iff_of_nodup distinct).mpr ⟨fieldMem, named⟩,
        require_eq_ok.mp valid⟩
    · intro field fieldMem required absent
      have valid := checked field fieldMem
      rw [absent] at valid
      have optional := require_eq_ok.mp valid
      rw [required] at optional
      cases optional
  · rintro ⟨valid, present⟩
    refine ⟨(), ?_, ?_⟩
    · intro entry member
      rcases valid entry member with ⟨field, found, -⟩
      exact ⟨field, (find?_eq_some_iff_of_nodup distinct).mp found⟩
    · intro field fieldMem
      cases read : model.get field.name with
      | none =>
          refine require_eq_ok.mpr ?_
          cases required : field.required with
          | false => rfl
          | true => exact absurd read (present field fieldMem required)
      | some value =>
          rcases valid _ (QueryModel.get_eq_some_iff.mp read) with ⟨other, found, takes⟩
          have fieldFound := (find?_eq_some_iff_of_nodup distinct).mpr ⟨fieldMem, rfl⟩
          cases fieldFound.symm.trans found
          exact require_eq_ok.mpr takes

/-- The validation of the models of the list routes. -/
theorem validateModel_eq_ok_iff_validates {pages : ListRoute} {model : QueryModel} :
    validateModel (queryFields pages) model = .ok () ↔ model.validates pages = true := by
  simp only [validateModel, QueryModel.validates, bind_eq_ok, require_eq_ok, forM_eq_ok_iff,
    Bool.and_eq_true, List.all_eq_true (l := queryFields pages)]
  refine ⟨?_, ?_⟩
  · rintro ⟨-, known, checked⟩
    refine ⟨known, fun field member => ?_⟩
    have here := checked field member
    cases read : model.get field.name with
    | none =>
        rw [read] at here
        exact require_eq_ok.mp here
    | some value =>
        rw [read] at here
        exact require_eq_ok.mp here
  · rintro ⟨known, checked⟩
    refine ⟨(), known, fun field member => ?_⟩
    have here := checked field member
    cases read : model.get field.name with
    | none =>
        rw [read] at here
        exact require_eq_ok.mpr here
    | some value =>
        rw [read] at here
        exact require_eq_ok.mpr here

end Validation

section Pages

/-- The query the command line writes. -/
def PageQuery.query (page : PageQuery) : Text :=
  "limit".toList ++ '=' :: (Nat.toDigits 10 page.limit.toNat ++
    match page.cursor with
    | some cursor => '&' :: ("cursor".toList ++ '=' :: cursor.toList)
    | none => [])

/-- The model the command line means. -/
def PageQuery.model (page : PageQuery) : QueryModel where
  entries := page.entries
  sorted := by
    unfold PageQuery.entries
    split
    · refine List.pairwise_pair.mpr ?_
      exact (by decide : "cursor" < "limit")
    · exact List.pairwise_singleton _ _

theorem question_not_mem_tradeText (trade : TradeId) : '?' ∉ GetRoute.tradeText trade := by
  intro member
  have every : ∀ digit : Fin 16, Json.hexDigit digit.val ≠ '?' := by decide
  rcases List.mem_flatMap.mp member with ⟨byte, -, member⟩
  have bounded := byte.toNat_lt
  simp only [List.mem_cons, List.not_mem_nil, or_false] at member
  rcases member with same | same
  · exact every ⟨byte.toNat / 16, by omega⟩ same.symm
  · exact every ⟨byte.toNat % 16, by omega⟩ same.symm

theorem question_not_mem_path (route : GetRoute) (trade : TradeId) :
    '?' ∉ route.path trade := by
  have within : ∀ {before after : Text}, '?' ∉ before → '?' ∉ after →
      '?' ∉ before ++ GetRoute.tradeText trade ++ after := by
    intro before after first second
    rw [List.mem_append, List.mem_append, not_or, not_or]
    exact ⟨⟨first, question_not_mem_tradeText trade⟩, second⟩
  cases route with
  | tradeProjection => exact within (by decide) (by decide)
  | tradeReportCurrent => exact within (by decide) (by decide)
  | status => exact (by decide : '?' ∉ "/v1/status".toList)
  | effectiveConfig => exact (by decide : '?' ∉ "/v1/config/effective".toList)
  | identityStatus => exact (by decide : '?' ∉ "/v1/identity/status".toList)
  | identityPublic => exact (by decide : '?' ∉ "/v1/identity/public".toList)
  | stateStatus => exact (by decide : '?' ∉ "/v1/state/status".toList)
  | metricsSnapshot => exact (by decide : '?' ∉ "/v1/metrics/snapshot".toList)
  | reconciliationStatus => exact (by decide : '?' ∉ "/v1/reconciliation/status".toList)
  | presenceDesired => exact (by decide : '?' ∉ "/v1/presence/desired".toList)
  | list pages =>
      cases pages with
      | tradeReports => exact within (by decide) (by decide)
      | reconciliationJobs => exact (by decide : '?' ∉ "/v1/reconciliation/jobs".toList)
      | sources => exact (by decide : '?' ∉ "/v1/sources".toList)
      | publicationBacklog => exact (by decide : '?' ∉ "/v1/publication/backlog".toList)
      | publicationTargets => exact (by decide : '?' ∉ "/v1/publication/targets".toList)

theorem targetQuery_pagedTarget (route : GetRoute) (trade : TradeId) (page : PageQuery) :
    targetQuery (pagedTarget (route.path trade) page) = some page.query := by
  have written : pagedTarget (route.path trade) page = route.path trade ++ '?' :: page.query := by
    unfold pagedTarget PageQuery.query
    cases page.cursor with
    | none =>
        simp only [List.append_assoc, List.append_nil]
        rfl
    | some cursor =>
        simp only [List.append_assoc]
        rfl
  rw [targetQuery, written,
    splitOnce_eq_some_iff.mpr ⟨rfl, question_not_mem_path route trade⟩]
  rfl

theorem splitOn_query (page : PageQuery) :
    page.query.splitOn '&' =
      ("limit".toList ++ '=' :: Nat.toDigits 10 page.limit.toNat) ::
        match page.cursor with
        | some cursor => (cursor.toList.splitOn '&').modifyHead ("cursor=".toList ++ ·)
        | none => [] := by
  have digits : '&' ∉ Nat.toDigits 10 page.limit.toNat := by
    intro member
    have digit := Nat.isDigit_of_mem_toDigits (by decide) (by decide) member
    exact absurd digit (by decide)
  have plain : '&' ∉ "limit".toList ++ '=' :: Nat.toDigits 10 page.limit.toNat := by
    rw [List.mem_append, List.mem_cons, not_or, not_or]
    exact ⟨by decide, by decide, digits⟩
  unfold PageQuery.query
  cases page.cursor with
  | none => rw [List.append_nil, List.splitOn_eq_singleton plain]
  | some cursor =>
      have named : ∀ key : Text, '&' ∉ key → ∀ text : Text,
          (key ++ text).splitOn '&' = (text.splitOn '&').modifyHead (key ++ ·) := by
        intro key
        induction key with
        | nil =>
            intro _ text
            rw [List.nil_append]
            cases text.splitOn '&' <;> rfl
        | cons first key ih =>
            intro absent text
            rw [List.mem_cons, not_or] at absent
            rw [List.cons_append, List.splitOn_cons_eq_if_modifyHead,
              if_neg (by simpa using Ne.symm absent.1), ih absent.2, List.modifyHead_modifyHead]
            rfl
      have whole : "limit".toList ++ '=' :: (Nat.toDigits 10 page.limit.toNat ++
          '&' :: ("cursor".toList ++ '=' :: cursor.toList)) =
          ("limit".toList ++ '=' :: Nat.toDigits 10 page.limit.toNat) ++
            '&' :: ("cursor=".toList ++ cursor.toList) := by
        rw [List.append_assoc]
        rfl
      rw [whole, List.splitOn_append_cons_self_of_not_mem plain, named _ (by decide)]

end Pages

section Disguises

/-- A filter of a route and a value it takes. -/
def IsFilter (fields : List QueryField) (entry : Entry) : Prop :=
  entry.1 ≠ "limit" ∧ entry.1 ≠ "cursor" ∧ Valid fields entry

/-- A cursor that the boundary of a list route reads as another cursor, or as a cursor and some
filters. -/
def Disguised (route : GetRoute) (page : PageQuery) : Prop :=
  ∃ pages, route = .list pages ∧ ∃ cursor, page.cursor = some cursor ∧
    ∃ first others, cursor.toList.splitOn '&' = first :: others ∧ ('%' ∈ first ∨ others ≠ []) ∧
      ∃ shown : String, Spells first shown.toList ∧
        FieldType.pageCursor.validates (.text shown) = true ∧
        ∃ entries, List.Forall₂ (ReadsAs (queryFields pages)) others entries ∧
          (entries.map Prod.fst).Nodup ∧ ∀ entry ∈ entries, IsFilter (queryFields pages) entry

/-- What the boundary admits of a page request is what the command line meant. -/
def Agrees (route : GetRoute) (trade : TradeId) (page : PageQuery) : Prop :=
  ∀ model, queryModel route (targetQuery (pagedTarget (route.path trade) page)) = .ok model →
    validateModel route.fields model = .ok () → model = page.model

theorem readsAs_limit_iff {pages : ListRoute} {page : PageQuery} {entry : Entry} :
    ReadsAs (queryFields pages) ("limit".toList ++ '=' :: Nat.toDigits 10 page.limit.toNat) entry ↔
      entry = ("limit", .number page.limit.toNat) := by
  have digits : ∀ character : Char, character.isDigit = false →
      character ∉ Nat.toDigits 10 page.limit.toNat := by
    intro character noDigit member
    have digit := Nat.isDigit_of_mem_toDigits (by decide) (by decide) member
    rw [noDigit] at digit
    cases digit
  have plain := Spells.of_plain (digits '%' rfl) (digits '+' rfl)
  rcases validPage page with ⟨lower, upper⟩
  have read := queryScalar_limit lower upper
  rw [readsAs_plain_iff (by decide) (by decide) (by decide)
    (by decide)]
  constructor
  · rintro ⟨named, value, field, spelled, found, scalar⟩
    have whole := String.toList_inj.mp
      ((spelled.unique plain).trans String.toList_ofList.symm)
    rw [find?_limit] at found
    cases found
    rw [whole] at scalar
    exact Prod.ext named (Except.ok.inj (scalar.symm.trans read))
  · rintro rfl
    exact ⟨rfl, _, .limit, by rwa [String.toList_ofList], find?_limit pages, read⟩

/-- Only the routes with pages read a limit. -/
theorem pages_of_readsAs_limit {route : GetRoute} {rawValue : Text} {entry : Entry}
    (reads : ReadsAs route.fields ("limit".toList ++ '=' :: rawValue) entry) :
    ∃ pages, route = .list pages := by
  by_contra unpaged
  rw [readsAs_plain_iff (by decide) (by decide) (by decide)
    (by decide)] at reads
  rcases reads with ⟨-, value, field, -, found, -⟩
  rw [find?_limit_eq_none fun pages same => unpaged ⟨pages, same⟩] at found
  cases found

theorem readsAs_cursor_iff {pages : ListRoute} {first : Text} {entry : Entry} :
    ReadsAs (queryFields pages) ("cursor=".toList ++ first) entry ↔
      ∃ shown : String, Spells first shown.toList ∧ entry = ("cursor", .text shown) := by
  have split : "cursor=".toList ++ first = "cursor".toList ++ '=' :: first := rfl
  rw [split, readsAs_plain_iff (by decide) (by decide) (by decide)
    (by decide)]
  constructor
  · rintro ⟨named, value, field, spelled, found, scalar⟩
    rw [find?_cursor] at found
    cases found
    exact ⟨value, spelled, Prod.ext named (Except.ok.inj scalar).symm⟩
  · rintro ⟨shown, spelled, rfl⟩
    exact ⟨rfl, shown, .cursor, spelled, find?_cursor pages, rfl⟩

theorem limit_valid (pages : ListRoute) (page : PageQuery) :
    Valid (queryFields pages) ("limit", .number page.limit.toNat) := by
  rcases validPage page with ⟨lower, upper⟩
  refine ⟨.limit, find?_limit pages, decide_eq_true ⟨?_, ?_⟩⟩
  · exact UInt16.le_iff_toNat_le.mp lower
  · exact UInt16.le_iff_toNat_le.mp upper

theorem cursor_valid_iff {pages : ListRoute} {shown : String} :
    Valid (queryFields pages) ("cursor", .text shown) ↔
      FieldType.pageCursor.validates (.text shown) = true := by
  constructor
  · rintro ⟨field, found, valid⟩
    rw [find?_cursor] at found
    cases found
    exact valid
  · exact fun valid => ⟨.cursor, find?_cursor pages, valid⟩

theorem mem_model_iff {page : PageQuery} {cursor : String} (given : page.cursor = some cursor)
    {entry : Entry} :
    entry ∈ page.model.entries ↔
      entry = ("cursor", .text cursor) ∨ entry = ("limit", .number page.limit.toNat) := by
  have listed : page.model.entries =
      [("cursor", .text cursor), ("limit", .number page.limit.toNat)] := by
    show page.entries = _
    rw [PageQuery.entries, given]
  rw [listed, List.mem_cons, List.mem_singleton]

/-- A page request without a cursor is read as it is meant. -/
theorem agrees_of_no_cursor {route : GetRoute} {trade : TradeId} {page : PageQuery}
    (first : page.cursor = none) : Agrees route trade page := by
  intro model read valid
  rw [targetQuery_pagedTarget, queryModel_eq_ok_iff, splitOn_query, first] at read
  rcases read with ⟨-, entries, read, -, members⟩
  cases read with
  | @cons _ entry _ entries reads rest =>
      cases rest
      rcases pages_of_readsAs_limit reads with ⟨pages, rfl⟩
      have named := readsAs_limit_iff.mp reads
      refine QueryModel.eq_of_mem_iff fun other => ?_
      have listed : page.model.entries = [("limit", .number page.limit.toNat)] := by
        show page.entries = _
        rw [PageQuery.entries, first]
      rw [members, listed, named]

/-- What is read of a page request with a cursor: the limit, a cursor, and the filters that stand
behind the ampersands of the cursor. -/
theorem queryModel_page_iff {pages : ListRoute} {trade : TradeId} {page : PageQuery}
    {cursor : String} {first : Text} {others : List Text} (given : page.cursor = some cursor)
    (pieces : cursor.toList.splitOn '&' = first :: others) {model : QueryModel} :
    queryModel (.list pages)
        (targetQuery (pagedTarget ((GetRoute.list pages).path trade) page)) = .ok model ↔
      ∃ (shown : String) (entries : List Entry), Spells first shown.toList ∧
        List.Forall₂ (ReadsAs (queryFields pages)) others entries ∧
        (entries.map Prod.fst).Nodup ∧
        (∀ entry ∈ entries, entry.1 ≠ "limit" ∧ entry.1 ≠ "cursor") ∧
        ∀ entry, entry ∈ model.entries ↔ entry = ("limit", .number page.limit.toNat) ∨
          entry = ("cursor", .text shown) ∨ entry ∈ entries := by
  have distinct_iff : ∀ shown (entries : List Entry),
      ((("limit", .number page.limit.toNat) :: ("cursor", Scalar.text shown) :: entries).map
        Prod.fst).Nodup ↔ (entries.map Prod.fst).Nodup ∧
          ∀ entry ∈ entries, entry.1 ≠ "limit" ∧ entry.1 ≠ "cursor" := by
    intro shown entries
    have other : "limit" ≠ "cursor" := by decide
    simp only [List.map_cons, List.nodup_cons, List.mem_cons, not_or, List.mem_map, not_exists,
      not_and]
    constructor
    · rintro ⟨⟨-, noLimit⟩, noCursor, distinct⟩
      exact ⟨distinct, fun entry member => ⟨noLimit entry member, noCursor entry member⟩⟩
    · rintro ⟨distinct, absent⟩
      exact ⟨⟨other, fun entry member => (absent entry member).1⟩,
        fun entry member => (absent entry member).2, distinct⟩
  rw [targetQuery_pagedTarget, queryModel_eq_ok_iff, splitOn_query, given]
  simp only [pieces, List.modifyHead_cons]
  constructor
  · rintro ⟨-, all, read, distinct, members⟩
    cases read with
    | cons limitReads read =>
        cases read with
        | @cons _ _ _ entries cursorReads read =>
            cases readsAs_limit_iff.mp limitReads
            rcases readsAs_cursor_iff.mp cursorReads with ⟨shown, spelled, rfl⟩
            rcases (distinct_iff shown entries).mp distinct with ⟨distinct, absent⟩
            simp only [List.mem_cons] at members
            exact ⟨shown, entries, spelled, read, distinct, absent, members⟩
  · rintro ⟨shown, entries, spelled, read, distinct, absent, members⟩
    have nonempty : page.query ≠ [] := by
      intro empty
      have length := congrArg List.length empty
      simp [PageQuery.query] at length
    refine ⟨nonempty, ("limit", .number page.limit.toNat) :: ("cursor", .text shown) :: entries,
      .cons (readsAs_limit_iff.mpr rfl)
        (.cons (readsAs_cursor_iff.mpr ⟨shown, spelled, rfl⟩) read),
      (distinct_iff shown entries).mpr ⟨distinct, absent⟩, ?_⟩
    simpa only [List.mem_cons] using members

/-- A cursor in no disguise is read as it was given. -/
theorem agrees_of_not_disguised {route : GetRoute} {trade : TradeId} {page : PageQuery}
    (honest : ¬Disguised route page) : Agrees route trade page := by
  cases given : page.cursor with
  | none => exact agrees_of_no_cursor given
  | some cursor =>
      intro model read valid
      have paged : ∃ pages, route = .list pages := by
        rw [targetQuery_pagedTarget, queryModel_eq_ok_iff, splitOn_query] at read
        rcases read with ⟨-, all, read, -⟩
        cases read with
        | cons limitReads => exact pages_of_readsAs_limit limitReads
      rcases paged with ⟨pages, rfl⟩
      cases pieces : cursor.toList.splitOn '&' with
      | nil => exact absurd pieces (List.splitOn_ne_nil _ _)
      | cons first others =>
          rcases (queryModel_page_iff given pieces).mp read with
            ⟨shown, entries, spelled, filters, distinct, absent, members⟩
          have takes := ((validateModel_eq_ok_iff (names_nodup pages)).mp valid).1
          have shownValid := cursor_valid_iff.mp (takes _ ((members _).mpr (.inr (.inl rfl))))
          have filtered : ∀ entry ∈ entries, IsFilter (queryFields pages) entry := by
            intro entry member
            rcases absent entry member with ⟨noLimit, noCursor⟩
            exact ⟨noLimit, noCursor, takes entry ((members entry).mpr (.inr (.inr member)))⟩
          by_cases plain : '%' ∉ first ∧ others = []
          · rcases plain with ⟨noPercent, rfl⟩
            cases filters
            have symbols := mem_alphabet_of_pageCursor shownValid
            have noBlank : ' ' ∉ shown.toList :=
              fun member => absurd (symbols _ member) (by decide)
            have whole : cursor.toList = first := by
              have joined : ['&'].intercalate (cursor.toList.splitOn '&') = cursor.toList :=
                List.intercalate_splitOn '&'
              rw [pieces] at joined
              simpa using joined.symm
            have same : shown = cursor := String.toList_inj.mp
              ((spelled.eq_of_plain noPercent noBlank).trans whole.symm)
            refine QueryModel.eq_of_mem_iff fun entry => ?_
            rw [members, mem_model_iff given, same, or_comm]
            simp only [List.not_mem_nil, or_false]
          · have disguise : '%' ∈ first ∨ others ≠ [] := by
              by_contra none
              rw [not_or, not_not] at none
              exact plain none
            exact absurd ⟨pages, rfl, cursor, given, first, others, pieces, disguise, shown,
              spelled, shownValid, entries, filters, distinct, filtered⟩ honest

/-- A disguised cursor is read as something else. -/
theorem not_disguised_of_agrees {route : GetRoute} {trade : TradeId} {page : PageQuery}
    (agrees : Agrees route trade page) : ¬Disguised route page := by
  rintro ⟨pages, rfl, cursor, given, first, others, pieces, disguise, shown, spelled, shownValid,
    entries, read, distinct, filters⟩
  have absent : ∀ entry ∈ entries, entry.1 ≠ "limit" ∧ entry.1 ≠ "cursor" :=
    fun entry member => ⟨(filters entry member).1, (filters entry member).2.1⟩
  let all : List Entry :=
    ("limit", .number page.limit.toNat) :: ("cursor", .text shown) :: entries
  have fresh : QueryModel.empty.Fresh all := by
    have other : "limit" ≠ "cursor" := by decide
    refine ⟨?_, fun entry _ => rfl⟩
    rw [List.map_cons, List.map_cons, List.nodup_cons, List.nodup_cons, List.mem_cons, not_or]
    refine ⟨⟨other, ?_⟩, ?_, distinct⟩
    · intro member
      rcases List.mem_map.mp member with ⟨entry, member, same⟩
      exact (absent entry member).1 same
    · intro member
      rcases List.mem_map.mp member with ⟨entry, member, same⟩
      exact (absent entry member).2 same
  have members : ∀ entry, entry ∈ (QueryModel.empty.insertAll all).entries ↔
      entry = ("limit", .number page.limit.toNat) ∨ entry = ("cursor", .text shown) ∨
        entry ∈ entries := by
    intro entry
    rw [QueryModel.mem_insertAll_iff fresh, List.mem_cons, List.mem_cons]
    exact or_iff_right List.not_mem_nil
  have valid : validateModel (GetRoute.list pages).fields (QueryModel.empty.insertAll all) =
      .ok () := by
    refine (validateModel_eq_ok_iff (names_nodup pages)).mpr ⟨?_, ?_⟩
    · intro entry member
      rcases (members entry).mp member with rfl | rfl | member
      · exact limit_valid pages page
      · exact cursor_valid_iff.mpr shownValid
      · exact (filters entry member).2.2
    · intro field member required
      rw [eq_limit_of_required member required,
        QueryModel.get_eq_some_iff.mpr ((members _).mpr (.inl rfl))]
      nofun
  have same := agrees _ ((queryModel_page_iff given pieces).mpr
    ⟨shown, entries, spelled, read, distinct, absent, members⟩) valid
  have meant : ∀ entry, entry = ("cursor", .text shown) ∨ entry ∈ entries →
      entry = ("cursor", .text cursor) ∨ entry = ("limit", .number page.limit.toNat) :=
    fun entry member => (mem_model_iff given).mp (same ▸ (members entry).mpr (.inr member))
  rcases disguise with percent | further
  · -- the cursor that was given has a percent sign, and the one that is read has none
    have shownSame : shown = cursor := by
      rcases meant _ (.inl rfl) with equal | equal
      · cases equal
        rfl
      · have key : "cursor" = "limit" := congrArg Prod.fst equal
        exact absurd key (by decide)
    have present : '%' ∈ cursor.toList := by
      have joined : ['&'].intercalate (cursor.toList.splitOn '&') = cursor.toList :=
        List.intercalate_splitOn '&'
      rw [pieces] at joined
      rw [← joined]
      cases others with
      | nil => simpa using percent
      | cons => simp [List.intercalate, percent]
    have symbol := mem_alphabet_of_pageCursor shownValid '%' (shownSame ▸ present)
    exact absurd symbol (by decide)
  · -- a filter is read that was not meant
    cases read with
    | nil => exact further rfl
    | @cons _ entry _ entries =>
        rcases meant entry (.inr List.mem_cons_self) with equal | equal
        · exact (absent entry List.mem_cons_self).2 (congrArg Prod.fst equal)
        · exact (absent entry List.mem_cons_self).1 (congrArg Prod.fst equal)

end Disguises

section Guarantees

/-- The key of an item, as the boundary decodes it. -/
def KeyOf (item : Text) (key : String) : Prop :=
  ∃ rawKey rawValue : Text, splitOnce '=' item = some (rawKey, rawValue) ∧
    percentDecode rawKey = .ok key

/-- No accepted query has two items of one key, however the keys are written. -/
theorem keys_nodup_of_queryModel {route : GetRoute} {query : Text} {model : QueryModel}
    (read : queryModel route (some query) = .ok model) :
    ∃ keys, List.Forall₂ KeyOf (query.splitOn '&') keys ∧ keys.Nodup := by
  rcases queryModel_eq_ok_iff.mp read with ⟨-, entries, read, distinct, -⟩
  refine ⟨entries.map Prod.fst, ?_, distinct⟩
  rw [List.forall₂_map_right_iff]
  refine read.imp ?_
  rintro item entry ⟨rawKey, rawValue, value, field, split, absent, -, spelled, -⟩
  exact ⟨rawKey, rawValue, splitOnce_eq_some_iff.mpr ⟨split, absent⟩,
    percentDecode_eq_ok_iff.mpr spelled⟩

/-- What the decoder of queries keeps, whatever text it is given. -/
structure QueriesRead : Prop where
  inBounds : ∀ (route : GetRoute) (query : Option Text),
    queryModel route query ≠ .error .outOfBounds
  keys : ∀ (route : GetRoute) (query : Text) (model : QueryModel),
    queryModel route (some query) = .ok model →
      ∃ keys, List.Forall₂ KeyOf (query.splitOn '&') keys ∧ keys.Nodup
  roundTrip : ∀ text : String,
    validPercentEncoding (Percent.encodeText text.toList) = true ∧
      percentDecode (Percent.encodeText text.toList) = .ok text

/-- A page request is read as it is meant exactly when its cursor is not disguised; the rest holds
of every query. -/
theorem targets_agree_iff (route : GetRoute) (trade : TradeId) (page : PageQuery) :
    (Agrees route trade page ↔ ¬Disguised route page) ∧ QueriesRead := by
  refine ⟨⟨not_disguised_of_agrees, agrees_of_not_disguised⟩, ?_, ?_, ?_⟩
  · exact fun route query => queryModel_ne_outOfBounds
  · exact fun route query model => keys_nodup_of_queryModel
  · exact percentDecode_encodeText

end Guarantees

section Exceptions

namespace Sample.Targets

/-- A cursor that goes on with a filter. -/
def page : PageQuery := ⟨⟨100, some "AA&state=pending"⟩, by decide⟩

/-- The command line asks for the page of one cursor, and the boundary answers a filtered
request. -/
theorem cursor_adds_filter : ¬Agrees (.list .reconciliationJobs) 0 page := by
  intro agrees
  have read : queryModel (.list .reconciliationJobs)
      (targetQuery (pagedTarget ((GetRoute.list .reconciliationJobs).path 0) page)) =
        .ok ((QueryModel.empty.insert "limit" (.number 100)).insert "cursor" (.text "AA")
          |>.insert "state" (.text "pending")) := by
    decide +kernel
  have same := agrees _ read (by decide)
  have entries := congrArg (fun model => model.entries.length) same
  exact absurd entries (by decide)

end Sample.Targets

end Exceptions

end Rhi
