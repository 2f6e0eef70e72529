import Rhi.Admin.Targets

/-!
# What the boundary reads of a page request

The decoder of a query reads each item as a key and a value, and what it reads is what the item is a
writing of.  A cursor that is itself such a writing is disguised: the boundary reads another cursor,
or further fields, where the command line wrote one cursor.
-/

namespace Rhi

open Json Transactional

section Percents

theorem hexNibble_eq_nibble (byte : UInt8) : hexNibble byte = Percent.nibble byte := rfl

theorem isAsciiHexdigit_eq_true_iff {byte : UInt8} :
    isAsciiHexdigit byte = true ↔ ∃ value, Percent.nibble byte = some value := by
  have every : ∀ number : Fin 256, isAsciiHexdigit (UInt8.ofNat number.val) =
      (Percent.nibble (UInt8.ofNat number.val)).isSome := by
    decide +kernel
  have here := every ⟨byte.toNat, byte.toNat_lt⟩
  rw [← Option.isSome_iff_exists]
  simp only [UInt8.ofNat_toNat] at here
  rw [here]

theorem decodeEscapes_cons {byte : UInt8} {rest : List UInt8} (notPercent : byte ≠ 0x25) :
    decodeEscapes (byte :: rest) =
      (do
        let decoded ← decodeEscapes rest
        pure ((if byte = 0x2b then 0x20 else byte) :: decoded)) := by
  rw [decodeEscapes.eq_def]
  exact if_neg notPercent

theorem validEscapes_cons {byte : UInt8} {rest : List UInt8} (notPercent : byte ≠ 0x25) :
    validEscapes (byte :: rest) = validEscapes rest := by
  rw [validEscapes.eq_def]
  exact if_neg notPercent

/-- The decoder reads what is written. -/
theorem decodeEscapes_eq_ok_iff {raw bytes : List UInt8} :
    decodeEscapes raw = .ok bytes ↔ Percent.Spelling raw bytes := by
  constructor
  · intro decoded
    fun_induction decodeEscapes raw generalizing bytes with
    | case1 =>
        cases decoded
        exact .nil
    | case2 high low later ih =>
        simp only [bind_eq_ok, orError_eq_ok, pure_eq_ok] at decoded
        rcases decoded with ⟨upper, highValue, lower, lowValue, rest, decoded, rfl⟩
        exact .escape highValue lowValue (ih decoded)
    | case3 high =>
        simp only [bind_eq_ok] at decoded
        rcases decoded with ⟨upper, -, failed⟩
        cases failed
    | case4 => cases decoded
    | case5 byte rest notPercent ih =>
        simp only [bind_eq_ok, pure_eq_ok] at decoded
        rcases decoded with ⟨later, decoded, rfl⟩
        by_cases plus : byte = 0x2b
        · rw [plus, if_pos rfl]
          exact .blank (ih decoded)
        · rw [if_neg plus]
          exact .self notPercent plus (ih decoded)
  · intro spelled
    induction spelled with
    | nil => rfl
    | escape highValue lowValue _ ih =>
        rw [decodeEscapes, if_pos rfl]
        simp only [bind_eq_ok, orError_eq_ok, pure_eq_ok]
        exact ⟨_, highValue, _, lowValue, _, ih, rfl⟩
    | blank _ ih =>
        rw [decodeEscapes_cons (by decide)]
        simp only [bind_eq_ok, pure_eq_ok]
        exact ⟨_, ih, rfl⟩
    | self notPercent notPlus _ ih =>
        rw [decodeEscapes_cons notPercent]
        simp only [bind_eq_ok, pure_eq_ok]
        exact ⟨_, ih, by rw [if_neg notPlus]⟩

/-- What is valid is a writing of something, so that the decoder never reads past its end. -/
theorem validEscapes_eq_true_iff {raw : List UInt8} :
    validEscapes raw = true ↔ ∃ bytes, Percent.Spelling raw bytes := by
  constructor
  · intro valid
    fun_induction validEscapes raw with
    | case1 => exact ⟨[], .nil⟩
    | case2 high low later ih =>
        simp only [Bool.and_eq_true] at valid
        rcases valid with ⟨⟨highDigit, lowDigit⟩, valid⟩
        rcases isAsciiHexdigit_eq_true_iff.mp highDigit with ⟨upper, highValue⟩
        rcases isAsciiHexdigit_eq_true_iff.mp lowDigit with ⟨lower, lowValue⟩
        rcases ih valid with ⟨bytes, spelled⟩
        exact ⟨_, .escape highValue lowValue spelled⟩
    | case3 => cases valid
    | case4 byte rest notPercent ih =>
        rcases ih valid with ⟨bytes, spelled⟩
        by_cases plus : byte = 0x2b
        · rw [plus]
          exact ⟨_, .blank spelled⟩
        · exact ⟨_, .self notPercent plus spelled⟩
  · rintro ⟨bytes, spelled⟩
    induction spelled with
    | nil => rfl
    | escape highValue lowValue _ ih =>
        rw [validEscapes, if_pos rfl]
        simp only [Bool.and_eq_true]
        exact ⟨⟨isAsciiHexdigit_eq_true_iff.mpr ⟨_, highValue⟩,
          isAsciiHexdigit_eq_true_iff.mpr ⟨_, lowValue⟩⟩, ih⟩
    | blank _ ih => rwa [validEscapes_cons (by decide)]
    | self notPercent _ _ ih => rwa [validEscapes_cons notPercent]

theorem textOfUtf8_eq_some_iff {bytes : List UInt8} {text : Text} :
    textOfUtf8 bytes = some text ↔ utf8 text = bytes := by
  have array : (⟨bytes.toArray⟩ : ByteArray) = bytes.toByteArray :=
    ByteArray.ext List.data_toByteArray.symm
  unfold textOfUtf8 String.fromUTF8?
  rw [array]
  constructor
  · intro read
    split at read
    case isTrue valid =>
      cases read
      have encoded : (String.fromUTF8 bytes.toByteArray valid).toList.utf8Encode =
          bytes.toByteArray := by
        rw [← String.toByteArray_ofList, String.ofList_toList]
        rfl
      have same := congrArg (fun array => array.data.toList) encoded
      rwa [List.utf8Encode, List.toList_data_toByteArray, List.toList_data_toByteArray] at same
    case isFalse => cases read
  · rintro rfl
    have encoded : (utf8 text).toByteArray = (String.ofList text).toByteArray :=
      String.toByteArray_ofList.symm
    have valid : (utf8 text).toByteArray.IsValidUTF8 := encoded ▸ (String.ofList text).isValidUTF8
    have made : String.fromUTF8 (utf8 text).toByteArray valid = String.ofList text :=
      String.toByteArray_inj.mp encoded
    rw [dif_pos valid, made, Option.map_some, String.toList_ofList]

/-- A text that is written as another one. -/
def Spells (raw text : Text) : Prop := Percent.Spelling (utf8 raw) (utf8 text)

theorem percentDecode_eq_ok_iff {raw : Text} {text : String} :
    percentDecode raw = .ok text ↔ Spells raw text.toList := by
  unfold percentDecode
  simp only [bind_eq_ok, orError_eq_ok, pure_eq_ok, decodeEscapes_eq_ok_iff,
    textOfUtf8_eq_some_iff]
  constructor
  · rintro ⟨bytes, spelled, characters, rfl, rfl⟩
    rwa [Spells, String.toList_ofList]
  · intro spelled
    exact ⟨_, spelled, text.toList, rfl, String.ofList_toList⟩

theorem validPercentEncoding_of_spells {raw text : Text} (spelled : Spells raw text) :
    validPercentEncoding raw = true :=
  validEscapes_eq_true_iff.mpr ⟨_, spelled⟩

/-- The decoder never reads past the end of what the scan found valid. -/
theorem percentDecode_ne_outOfBounds {raw : Text} (valid : validPercentEncoding raw = true) :
    percentDecode raw ≠ .error .outOfBounds := by
  rcases validEscapes_eq_true_iff.mp valid with ⟨bytes, spelled⟩
  unfold percentDecode
  rw [decodeEscapes_eq_ok_iff.mpr spelled]
  intro failed
  rcases bind_eq_error.mp failed with failed | ⟨decoded, made, failed⟩
  · cases failed
  · rcases bind_eq_error.mp failed with failed | ⟨text, -, failed⟩
    · cases (orError_eq_error.mp failed).2
    · exact pure_ne_error failed

/-- What a form writes of a text is valid, and is read as the text. -/
theorem percentDecode_encodeText (text : String) :
    validPercentEncoding (Percent.encodeText text.toList) = true ∧
      percentDecode (Percent.encodeText text.toList) = .ok text := by
  have spelled : Spells (Percent.encodeText text.toList) text.toList := by
    rw [Spells, Percent.utf8_encodeText]
    exact Percent.spelling_encode _
  exact ⟨validPercentEncoding_of_spells spelled, percentDecode_eq_ok_iff.mpr spelled⟩

end Percents

section Insertions

namespace QueryModel

theorem get_eq_none_iff {model : QueryModel} {field : String} :
    model.get field = none ↔ ∀ entry ∈ model.entries, entry.1 ≠ field := by
  simp [get, List.find?_eq_none]

theorem mem_insert_iff {model : QueryModel} {key : String} {value : Scalar} {entry : Entry}
    (fresh : model.get key = none) :
    entry ∈ (model.insert key value).entries ↔ entry = (key, value) ∨ entry ∈ model.entries := by
  refine (SortedEntries.mem_insert_iff model.sorted).trans (or_congr_right ?_)
  exact and_iff_left_of_imp fun member => get_eq_none_iff.mp fresh entry member

theorem get_insert_eq_none_iff {model : QueryModel} {key field : String} {value : Scalar}
    (fresh : model.get key = none) :
    (model.insert key value).get field = none ↔ key ≠ field ∧ model.get field = none := by
  simp only [get_eq_none_iff, mem_insert_iff fresh]
  constructor
  · exact fun absent => ⟨absent _ (.inl rfl), fun entry member => absent entry (.inr member)⟩
  · rintro ⟨other, absent⟩ entry (rfl | member)
    · exact other
    · exact absent entry member

/-- A model is its set of entries. -/
theorem eq_of_mem_iff {left right : QueryModel}
    (same : ∀ entry, entry ∈ left.entries ↔ entry ∈ right.entries) : left = right := by
  have entries := SortedEntries.eq_of_mem_iff left.sorted right.sorted same
  cases left
  cases right
  cases entries
  rfl

/-- The model after the insertion of some entries. -/
def insertAll (model : QueryModel) (entries : List Entry) : QueryModel :=
  entries.foldl (fun output entry => output.insert entry.1 entry.2) model

/-- Entries of different keys that are not in a model. -/
def Fresh (model : QueryModel) (entries : List Entry) : Prop :=
  (entries.map Prod.fst).Nodup ∧ ∀ entry ∈ entries, model.get entry.1 = none

theorem fresh_cons_iff {model : QueryModel} {entry : Entry} {entries : List Entry} :
    model.Fresh (entry :: entries) ↔
      model.get entry.1 = none ∧ (model.insert entry.1 entry.2).Fresh entries := by
  unfold Fresh
  rw [List.map_cons, List.nodup_cons, List.forall_mem_cons]
  constructor
  · rintro ⟨⟨absent, distinct⟩, first, later⟩
    refine ⟨first, distinct, fun other member => (get_insert_eq_none_iff first).mpr ?_⟩
    exact ⟨fun same => absent (same ▸ List.mem_map_of_mem member), later other member⟩
  · rintro ⟨first, distinct, later⟩
    have split := fun other member => (get_insert_eq_none_iff first).mp (later other member)
    refine ⟨⟨?_, distinct⟩, first, fun other member => (split other member).2⟩
    intro present
    rcases List.mem_map.mp present with ⟨other, member, same⟩
    exact (split other member).1 same.symm

theorem mem_insertAll_iff {model : QueryModel} {entries : List Entry} {entry : Entry}
    (fresh : model.Fresh entries) :
    entry ∈ (model.insertAll entries).entries ↔ entry ∈ model.entries ∨ entry ∈ entries := by
  induction entries generalizing model with
  | nil => simp [insertAll]
  | cons first entries ih =>
      rcases fresh_cons_iff.mp fresh with ⟨absent, later⟩
      have inserted := ih later
      rw [mem_insert_iff absent] at inserted
      rw [List.mem_cons, ← or_assoc, @or_comm (entry ∈ model.entries)]
      exact inserted

end QueryModel

end Insertions

section Items

theorem splitOnce_eq_some_iff {separator : Char} {text before after : Text} :
    splitOnce separator text = some (before, after) ↔
      text = before ++ separator :: after ∧ separator ∉ before := by
  induction text generalizing before with
  | nil => simp [splitOnce]
  | cons first rest ih =>
      rw [splitOnce]
      by_cases here : first = separator
      · rw [if_pos here, here]
        constructor
        · intro found
          cases found
          exact ⟨rfl, List.not_mem_nil⟩
        · rintro ⟨split, absent⟩
          cases before with
          | nil =>
              cases split
              rfl
          | cons other before =>
              cases split
              exact absurd List.mem_cons_self absent
      · rw [if_neg here, Option.map_eq_some_iff]
        constructor
        · rintro ⟨⟨before, after⟩, found, made⟩
          cases made
          rcases ih.mp found with ⟨rfl, absent⟩
          exact ⟨rfl, by simpa [Ne.symm here] using absent⟩
        · rintro ⟨split, absent⟩
          cases before with
          | nil =>
              cases split
              exact absurd rfl here
          | cons other before =>
              cases split
              rw [List.mem_cons, not_or] at absent
              exact ⟨(before, after), ih.mpr ⟨rfl, absent.2⟩, rfl⟩

/-- An item that is a writing of a field and of a value of its type. -/
def ReadsAs (fields : List QueryField) (item : Text) (entry : Entry) : Prop :=
  ∃ rawKey rawValue : Text, ∃ value : String, ∃ field : QueryField,
    item = rawKey ++ '=' :: rawValue ∧ '=' ∉ rawKey ∧ rawKey ≠ [] ∧
      Spells rawKey entry.1.toList ∧ Spells rawValue value.toList ∧
      (fields.find? fun field => field.name == entry.1) = some field ∧
      queryScalar field.type value = .ok entry.2

/-- One turn reads an item as an entry of a new key. -/
theorem queryItem_eq_ok_iff {fields : List QueryField} {output next : QueryModel} {item : Text} :
    queryItem fields output item = .ok next ↔
      ∃ entry, ReadsAs fields item entry ∧ output.get entry.1 = none ∧
        output.insert entry.1 entry.2 = next := by
  unfold queryItem
  constructor
  · intro read
    rcases bind_eq_ok.mp read with ⟨⟨rawKey, rawValue⟩, split, read⟩
    rcases splitOnce_eq_some_iff.mp (orError_eq_ok.mp split) with ⟨split, noEquals⟩
    rcases bind_eq_ok.mp read with ⟨_, admitted, read⟩
    rcases bind_eq_ok.mp read with ⟨key, keyRead, read⟩
    rcases bind_eq_ok.mp read with ⟨value, valueRead, read⟩
    rcases bind_eq_ok.mp read with ⟨_, absent, read⟩
    rcases bind_eq_ok.mp read with ⟨field, found, read⟩
    rcases bind_eq_ok.mp read with ⟨scalar, scalarRead, read⟩
    refine ⟨(key, scalar), ⟨rawKey, rawValue, value, field, split, noEquals, ?_,
      percentDecode_eq_ok_iff.mp keyRead, percentDecode_eq_ok_iff.mp valueRead,
      orError_eq_ok.mp found, scalarRead⟩, ?_, pure_eq_ok.mp read⟩
    · rintro rfl
      simp at admitted
    · simpa using absent
  · rintro ⟨⟨key, scalar⟩, ⟨rawKey, rawValue, value, field, split, noEquals, nonempty, keySpelled,
      valueSpelled, found, scalarRead⟩, absent, rfl⟩
    refine bind_eq_ok.mpr ⟨(rawKey, rawValue),
      orError_eq_ok.mpr (splitOnce_eq_some_iff.mpr ⟨split, noEquals⟩), ?_⟩
    refine bind_eq_ok.mpr ⟨(), require_eq_ok.mpr ?_, ?_⟩
    · simp [validPercentEncoding_of_spells keySpelled, validPercentEncoding_of_spells valueSpelled,
        nonempty]
    refine bind_eq_ok.mpr ⟨key, percentDecode_eq_ok_iff.mpr keySpelled, ?_⟩
    refine bind_eq_ok.mpr ⟨value, percentDecode_eq_ok_iff.mpr valueSpelled, ?_⟩
    refine bind_eq_ok.mpr ⟨(), require_eq_ok.mpr (by simp [absent]), ?_⟩
    refine bind_eq_ok.mpr ⟨field, orError_eq_ok.mpr found, ?_⟩
    exact bind_eq_ok.mpr ⟨scalar, scalarRead, rfl⟩

/-- The loop reads every item as an entry, each of its own key. -/
theorem foldlM_queryItem_eq_ok_iff {fields : List QueryField} {items : List Text}
    {output model : QueryModel} :
    items.foldlM (queryItem fields) output = .ok model ↔
      ∃ entries, List.Forall₂ (ReadsAs fields) items entries ∧ output.Fresh entries ∧
        output.insertAll entries = model := by
  induction items generalizing output with
  | nil =>
      rw [List.foldlM_nil, pure_eq_ok]
      constructor
      · rintro rfl
        exact ⟨[], .nil, ⟨List.nodup_nil, by simp⟩, rfl⟩
      · rintro ⟨entries, read, -, same⟩
        cases read
        exact same
  | cons item items ih =>
      rw [List.foldlM_cons, bind_eq_ok]
      constructor
      · rintro ⟨next, turned, run⟩
        rcases queryItem_eq_ok_iff.mp turned with ⟨entry, reads, absent, rfl⟩
        rcases ih.mp run with ⟨entries, read, fresh, same⟩
        exact ⟨entry :: entries, .cons reads read,
          QueryModel.fresh_cons_iff.mpr ⟨absent, fresh⟩, same⟩
      · rintro ⟨entries, read, fresh, same⟩
        cases read with
        | cons reads read =>
            rcases QueryModel.fresh_cons_iff.mp fresh with ⟨absent, fresh⟩
            exact ⟨_, queryItem_eq_ok_iff.mpr ⟨_, reads, absent, rfl⟩,
              ih.mpr ⟨_, read, fresh, same⟩⟩

/-- A query is read as the entries its items are writings of. -/
theorem queryModel_eq_ok_iff {route : GetRoute} {query : Text} {model : QueryModel} :
    queryModel route (some query) = .ok model ↔
      query ≠ [] ∧ ∃ entries, List.Forall₂ (ReadsAs route.fields) (query.splitOn '&') entries ∧
        (entries.map Prod.fst).Nodup ∧ ∀ entry, entry ∈ model.entries ↔ entry ∈ entries := by
  have fresh : ∀ entries : List Entry, QueryModel.empty.Fresh entries ↔
      (entries.map Prod.fst).Nodup :=
    fun entries => and_iff_left fun entry _ => rfl
  simp only [queryModel, bind_eq_ok, require_eq_ok, foldlM_queryItem_eq_ok_iff, fresh]
  constructor
  · rintro ⟨-, nonempty, entries, read, distinct, rfl⟩
    refine ⟨by simpa using nonempty, entries, read, distinct, fun entry => ?_⟩
    rw [QueryModel.mem_insertAll_iff ((fresh entries).mpr distinct)]
    exact or_iff_right List.not_mem_nil
  · rintro ⟨nonempty, entries, read, distinct, members⟩
    refine ⟨(), by simpa using nonempty, entries, read, distinct, ?_⟩
    refine QueryModel.eq_of_mem_iff fun entry => ?_
    rw [QueryModel.mem_insertAll_iff ((fresh entries).mpr distinct), members]
    exact or_iff_right List.not_mem_nil

theorem queryScalar_ne_outOfBounds {type : FieldType} {value : String} :
    queryScalar type value ≠ .error .outOfBounds := by
  intro failed
  unfold queryScalar at failed
  split at failed
  · rcases bind_eq_error.mp failed with failed | ⟨-, -, failed⟩
    · cases (require_eq_error.mp failed).2
    rcases bind_eq_error.mp failed with failed | ⟨-, -, failed⟩
    · cases (require_eq_error.mp failed).2
    · exact pure_ne_error failed
  · split at failed
    · cases failed
    · split at failed <;> cases failed
  · cases failed

theorem queryItem_ne_outOfBounds {fields : List QueryField} {output : QueryModel} {item : Text} :
    queryItem fields output item ≠ .error .outOfBounds := by
  intro failed
  unfold queryItem at failed
  rcases bind_eq_error.mp failed with failed | ⟨⟨rawKey, rawValue⟩, -, failed⟩
  · cases (orError_eq_error.mp failed).2
  rcases bind_eq_error.mp failed with failed | ⟨_, admitted, failed⟩
  · cases (require_eq_error.mp failed).2
  have valid : validPercentEncoding rawKey = true ∧ validPercentEncoding rawValue = true := by
    have admitted := require_eq_ok.mp admitted
    simp only [Bool.not_or, Bool.not_not, Bool.and_eq_true] at admitted
    exact ⟨admitted.1.2, admitted.2⟩
  rcases bind_eq_error.mp failed with failed | ⟨key, -, failed⟩
  · exact percentDecode_ne_outOfBounds valid.1 failed
  rcases bind_eq_error.mp failed with failed | ⟨value, -, failed⟩
  · exact percentDecode_ne_outOfBounds valid.2 failed
  rcases bind_eq_error.mp failed with failed | ⟨-, -, failed⟩
  · cases (require_eq_error.mp failed).2
  rcases bind_eq_error.mp failed with failed | ⟨field, -, failed⟩
  · cases (orError_eq_error.mp failed).2
  rcases bind_eq_error.mp failed with failed | ⟨scalar, -, failed⟩
  · exact queryScalar_ne_outOfBounds failed
  · exact pure_ne_error failed

/-- No query makes the decoder read past the end of an escape. -/
theorem queryModel_ne_outOfBounds {route : GetRoute} {query : Option Text} :
    queryModel route query ≠ .error .outOfBounds := by
  cases query with
  | none => nofun
  | some query =>
      intro failed
      rcases bind_eq_error.mp failed with failed | ⟨-, -, failed⟩
      · cases (require_eq_error.mp failed).2
      · generalize query.splitOn '&' = items at failed
        generalize QueryModel.empty = output at failed
        induction items generalizing output with
        | nil => exact pure_ne_error failed
        | cons item items ih =>
            rcases bind_eq_error.mp failed with failed | ⟨next, -, failed⟩
            · exact queryItem_ne_outOfBounds failed
            · exact ih next failed

end Items

end Rhi
