import Rhi.Admin.Cursor
import Rhi.Lib.JsonString

/-!
# Validation of cursors

The validator of the operator contract reads the bytes of a text: their number, the alphabet, and
the unused bits of the last one.  What it accepts are the encodings of byte strings that are not
empty.
-/

namespace Rhi

section Validator

/-- The six bits of a byte of the URL-safe alphabet. -/
def sextet (byte : UInt8) : Option UInt8 :=
  if 65 ≤ byte ∧ byte ≤ 90 then some (byte - 65)
  else if 97 ≤ byte ∧ byte ≤ 122 then some (byte - 97 + 26)
  else if 48 ≤ byte ∧ byte ≤ 57 then some (byte - 48 + 52)
  else if byte = 45 then some 62
  else if byte = 95 then some 63
  else none

/-- `canonical_base64url_no_padding`, on the bytes of a text. -/
def canonicalBase64urlNoPadding (value : String) : Bool :=
  let bytes := Json.utf8 value.toList
  if bytes.isEmpty || bytes.length % 4 == 1 then
    false
  else if bytes.any fun byte => (sextet byte).isNone then
    false
  else
    match bytes.getLast?.bind sextet with
    | none => false
    | some last =>
        match bytes.length % 4 with
        | 0 => true
        | 2 => last &&& 0x0f == 0
        | 3 => last &&& 0x03 == 0
        | _ => false

end Validator

section Symbols

/-- The bytes of the alphabet are its symbols. -/
theorem sextet_of_ascii {character : Char} (ascii : character.toNat < 128) :
    (sextet (UInt8.ofNat character.toNat)).map UInt8.toNat = Base64.value character := by
  have every : ∀ code < 128,
      (sextet (UInt8.ofNat code)).map UInt8.toNat = Base64.value (Char.ofNat code) := by
    decide +kernel
  have here := every character.toNat ascii
  rwa [Char.ofNat_toNat] at here

theorem sextet_of_large {byte : UInt8} (large : 128 ≤ byte.toNat) : sextet byte = none := by
  have every : ∀ code < 256, 128 ≤ code → sextet (UInt8.ofNat code) = none := by decide +kernel
  have here := every byte.toNat byte.toNat_lt large
  rwa [UInt8.ofNat_toNat] at here

/-- The alphabet has no characters from 128 on. -/
theorem value_of_large {character : Char} (large : 128 ≤ character.toNat) :
    Base64.value character = none := by
  cases read : Base64.value character with
  | none => rfl
  | some bits =>
      rcases Base64.value_eq_some read with ⟨bounded, rfl⟩
      have every : ∀ bits < 64, (Base64.symbol bits).toNat < 128 := by decide +kernel
      have small := every bits bounded
      omega

/-- The bytes of a text are read as its characters are. -/
theorem mapM_sextet (text : List Char) :
    (Json.utf8 text).mapM (fun byte => (sextet byte).map UInt8.toNat) =
      text.mapM Base64.value := by
  induction text with
  | nil => rfl
  | cons character text ih =>
      rw [Json.utf8_cons, List.mapM_append, ih, List.mapM_cons]
      by_cases ascii : character.toNat < 128
      · rw [Json.utf8EncodeChar_of_ascii ascii, List.mapM_cons, sextet_of_ascii ascii]
        cases Base64.value character <;> rfl
      · rcases Json.utf8EncodeChar_eq_cons character with ⟨byte, bytes, encoded⟩
        have large := Json.le_of_mem_utf8EncodeChar (Nat.not_lt.mp ascii)
          (encoded ▸ List.mem_cons_self)
        rw [encoded, List.mapM_cons, sextet_of_large large, value_of_large (Nat.not_lt.mp ascii)]
        rfl

/-- What is read of a byte string that is read to its end. -/
theorem read_of_mapM {bytes : List UInt8} {symbols : List Nat}
    (read : bytes.mapM (fun byte => (sextet byte).map UInt8.toNat) = some symbols) :
    symbols.length = bytes.length ∧ (∀ byte ∈ bytes, (sextet byte).isSome) ∧
      symbols.getLast? = (bytes.getLast?.bind sextet).map UInt8.toNat := by
  induction bytes generalizing symbols with
  | nil =>
      cases read
      exact ⟨rfl, nofun, rfl⟩
  | cons byte bytes ih =>
      simp only [List.mapM_cons, Option.bind_eq_bind, Option.bind_eq_some_iff,
        Option.map_eq_some_iff, Option.pure_def, Option.some.injEq] at read
      rcases read with ⟨_, ⟨first, here, rfl⟩, others, later, rfl⟩
      rcases ih later with ⟨length, present, last⟩
      refine ⟨by rw [List.length_cons, List.length_cons, length], ?_, ?_⟩
      · intro other member
        rcases List.mem_cons.mp member with rfl | member
        · rw [here]
          rfl
        · exact present other member
      · cases bytes with
        | nil =>
            cases later
            simp [here]
        | cons second bytes =>
            cases others with
            | nil => cases length
            | cons => rw [List.getLast?_cons_cons, List.getLast?_cons_cons, last]

/-- A byte string without bytes outside the alphabet is read to its end. -/
theorem mapM_of_present {bytes : List UInt8} (present : ∀ byte ∈ bytes, (sextet byte).isSome) :
    ∃ symbols, bytes.mapM (fun byte => (sextet byte).map UInt8.toNat) = some symbols := by
  induction bytes with
  | nil => exact ⟨[], rfl⟩
  | cons byte bytes ih =>
      rcases Option.isSome_iff_exists.mp (present byte List.mem_cons_self) with ⟨first, here⟩
      rcases ih fun other member => present other (List.mem_cons_of_mem byte member) with
        ⟨others, later⟩
      exact ⟨first.toNat :: others, by simp [List.mapM_cons, here, later]⟩

theorem and_fifteen_eq_zero_iff {last : UInt8} :
    (last &&& 0x0f == 0) = true ↔ last.toNat % 16 = 0 := by
  have masked : (last &&& 0x0f).toNat = last.toNat % 16 := by
    rw [UInt8.toNat_and]
    exact Nat.and_two_pow_sub_one_eq_mod last.toNat 4
  rw [beq_iff_eq, ← UInt8.toNat_inj, masked]
  rfl

theorem and_three_eq_zero_iff {last : UInt8} :
    (last &&& 0x03 == 0) = true ↔ last.toNat % 4 = 0 := by
  have masked : (last &&& 0x03).toNat = last.toNat % 4 := by
    rw [UInt8.toNat_and]
    exact Nat.and_two_pow_sub_one_eq_mod last.toNat 2
  rw [beq_iff_eq, ← UInt8.toNat_inj, masked]
  rfl

/-- The last step of the validator, on the length and the last sextet of what it read. -/
theorem lastBits_iff {bytes : List UInt8} {symbols : List Nat} (nonempty : symbols ≠ [])
    (length : symbols.length = bytes.length)
    (last : symbols.getLast? = (bytes.getLast?.bind sextet).map UInt8.toNat) :
    (match bytes.getLast?.bind sextet with
      | none => false
      | some last =>
          match bytes.length % 4 with
          | 0 => true
          | 2 => last &&& 0x0f == 0
          | 3 => last &&& 0x03 == 0
          | _ => false) = true ↔ Base64.Whole symbols := by
  cases read : bytes.getLast?.bind sextet with
  | none =>
      rw [read] at last
      exact absurd (List.getLast?_eq_none_iff.mp last) nonempty
  | some final =>
      rw [read, Option.map_some] at last
      unfold Base64.Whole
      rw [length, last]
      simp only [Option.mem_some_iff, forall_eq']
      rcases bytes.length % 4 with _ | _ | _ | _ | _
      · exact ⟨fun _ => trivial, fun _ => rfl⟩
      · exact ⟨Bool.false_ne_true, False.elim⟩
      · exact and_fifteen_eq_zero_iff
      · exact and_three_eq_zero_iff
      · exact ⟨Bool.false_ne_true, False.elim⟩

/-- The validator accepts the texts of symbols that a byte string leaves no bits of. -/
theorem canonicalBase64urlNoPadding_iff {value : String} :
    canonicalBase64urlNoPadding value = true ↔
      ∃ symbols, value.toList.mapM Base64.value = some symbols ∧ symbols ≠ [] ∧
        Base64.Whole symbols := by
  rw [← mapM_sextet]
  unfold canonicalBase64urlNoPadding
  generalize Json.utf8 value.toList = bytes
  simp only
  constructor
  · intro accepted
    split at accepted
    case isTrue => cases accepted
    case isFalse length =>
      rw [Bool.or_eq_true, List.isEmpty_iff, beq_iff_eq, not_or] at length
      split at accepted
      case isTrue => cases accepted
      case isFalse absent =>
        have present : ∀ byte ∈ bytes, (sextet byte).isSome := by
          intro byte member
          by_contra none
          exact absent (List.any_eq_true.mpr ⟨byte, member, by simpa using none⟩)
        rcases mapM_of_present present with ⟨symbols, read⟩
        rcases read_of_mapM read with ⟨same, -, last⟩
        have nonempty : symbols ≠ [] := by
          rintro rfl
          exact length.1 (List.length_eq_zero_iff.mp same.symm)
        exact ⟨symbols, read, nonempty, (lastBits_iff nonempty same last).mp accepted⟩
  · rintro ⟨symbols, read, nonempty, whole⟩
    rcases read_of_mapM read with ⟨same, present, last⟩
    have length : ¬(bytes.isEmpty || bytes.length % 4 == 1) = true := by
      rw [Bool.or_eq_true, List.isEmpty_iff, beq_iff_eq, not_or]
      constructor
      · rintro rfl
        exact nonempty (List.length_eq_zero_iff.mp same)
      · intro single
        unfold Base64.Whole at whole
        rw [same, single] at whole
        exact whole
    have absent : ¬(bytes.any fun byte => (sextet byte).isNone) = true := by
      intro any
      rcases List.any_eq_true.mp any with ⟨byte, member, none⟩
      have some := present byte member
      rw [Option.isNone_iff_eq_none.mp none] at some
      cases some
    rw [if_neg length, if_neg absent]
    exact (lastBits_iff nonempty same last).mpr whole

end Symbols

section Encodings

/-- What the validator accepts are the encodings of byte strings that are not empty. -/
theorem canonical_iff_encode {value : String} : canonicalBase64urlNoPadding value = true ↔
    ∃ bytes, bytes ≠ [] ∧ Base64.encode bytes = value := by
  rw [canonicalBase64urlNoPadding_iff]
  constructor
  · rintro ⟨symbols, read, nonempty, whole⟩
    rcases Base64.exists_decodeSymbols_iff.mpr whole with ⟨bytes, decoded⟩
    have text : Base64.decode value = some bytes := by
      unfold Base64.decode
      rw [read]
      exact decoded
    refine ⟨bytes, ?_, Base64.encode_of_decode text⟩
    rintro rfl
    have symbolsNil := Base64.encodeSymbols_of_decodeSymbols
      (Base64.mapM_value_eq_some read).1 decoded
    exact nonempty symbolsNil.symm
  · rintro ⟨bytes, nonempty, rfl⟩
    have text := Base64.decode_encode bytes
    simp only [Base64.decode, Option.bind_eq_bind, Option.bind_eq_some_iff] at text
    rcases text with ⟨symbols, read, decoded⟩
    refine ⟨symbols, read, ?_, Base64.exists_decodeSymbols_iff.mp ⟨bytes, decoded⟩⟩
    rintro rfl
    cases decoded
    exact nonempty rfl

/-- What the validator of cursors is worth. -/
structure ValidatesBase64url : Prop where
  canonical : ∀ value : String, canonicalBase64urlNoPadding value = true ↔
    ∃ bytes : List UInt8, bytes ≠ [] ∧ Base64.encode bytes = value
  unique : ∀ left right : List UInt8, Base64.encode left = Base64.encode right → left = right
  cursors : ∀ [Sha256] (key : CursorKey) (route : AdminRoute) (snapshot : UInt64) (offset : UInt32)
    (queryDigest : Digest), canonicalBase64urlNoPadding
      (encodeRuntimeCursor key route snapshot offset queryDigest) = true
  decoded : ∀ left right : String, canonicalBase64urlNoPadding left = true →
    canonicalBase64urlNoPadding right = true → Base64.decode left = Base64.decode right →
      left = right

/-- The validator accepts exactly the canonical base64url texts. -/
theorem validates_base64url : ValidatesBase64url where
  canonical _ := canonical_iff_encode
  unique left right same := by
    have bytes := congrArg Base64.decode same
    rwa [Base64.decode_encode, Base64.decode_encode, Option.some.injEq] at bytes
  cursors key route snapshot offset queryDigest := by
    refine canonical_iff_encode.mpr ⟨_, ?_, rfl⟩
    exact List.cons_ne_nil _ _
  decoded left right leftValid rightValid same := by
    rcases canonical_iff_encode.mp leftValid with ⟨leftBytes, -, rfl⟩
    rcases canonical_iff_encode.mp rightValid with ⟨rightBytes, -, rfl⟩
    rw [Base64.decode_encode, Base64.decode_encode, Option.some.injEq] at same
    rw [same]

end Encodings

end Rhi
