import Rhi.Admission

/-!
# What the scanner measures

One turn of the loop reads one piece of the literal.  Going on from there, the scanner succeeds
exactly on the inside of a literal, with the number of bytes of the text it stands for.
-/

namespace Rhi

open Json

section Reading

theorem byteRange_append (front back : List UInt8) (start stop : Nat) :
    byteRange (front ++ back) (front.length + start) (front.length + stop) =
      byteRange back start stop := by
  have bounds : (front.length + start ≤ front.length + stop ∧
      front.length + stop ≤ (front ++ back).length) ↔ start ≤ stop ∧ stop ≤ back.length := by
    rw [List.length_append]
    omega
  have width : front.length + stop - (front.length + start) = stop - start := by omega
  unfold byteRange
  simp only [bounds, width, List.drop_append, Nat.add_sub_cancel_left,
    List.drop_eq_nil_of_le (Nat.le_add_right front.length start), List.nil_append]

theorem byteRange_eq_some {bytes range : List UInt8} {width : Nat} :
    byteRange bytes 0 width = some range ↔
      range.length = width ∧ ∃ rest, bytes = range ++ rest := by
  simp only [byteRange, Nat.zero_le, true_and, List.drop_zero, Nat.sub_zero,
    Option.ite_none_right_eq_some, Option.some.injEq]
  constructor
  · rintro ⟨fits, rfl⟩
    exact ⟨List.length_take_of_le fits, _, (List.take_append_drop width bytes).symm⟩
  · rintro ⟨rfl, rest, rfl⟩
    simp

theorem hexDigit_of_toNat {character : Char} {byte : UInt8}
    (same : character.toNat = byte.toNat) : hexDigit byte = hexValue character := by
  simp only [hexDigit, hexValue, same]

theorem ascii_of_hexValue {character : Char} {value : Nat}
    (read : hexValue character = some value) : character.toNat < 128 := by
  unfold hexValue at read
  split at read
  · omega
  · split at read
    · omega
    · split at read
      · omega
      · cases read

theorem ascii_of_hexDigit {byte : UInt8} {value : Nat} (read : hexDigit byte = some value) :
    byte.toNat < 128 := by
  unfold hexDigit at read
  split at read
  · omega
  · split at read
    · omega
    · split at read
      · omega
      · cases read

theorem parseHexU16_four (first second third fourth : UInt8) (code : Nat) :
    parseHexU16 [first, second, third, fourth] = some code ↔
      ∃ a b c d, hexDigit first = some a ∧ hexDigit second = some b ∧ hexDigit third = some c ∧
        hexDigit fourth = some d ∧ code = ((a * 16 + b) * 16 + c) * 16 + d := by
  simp only [parseHexU16, List.length_cons, List.length_nil, ne_eq, not_true_eq_false, if_false,
    List.foldlM_cons, List.foldlM_nil, Option.bind_eq_bind, Option.bind_eq_some_iff,
    Option.pure_def, Option.some.injEq, Nat.zero_mul, Nat.zero_add]
  constructor
  · rintro ⟨_, ⟨a, readA, rfl⟩, _, ⟨b, readB, rfl⟩, _, ⟨c, readC, rfl⟩, _, ⟨d, readD, rfl⟩, rfl⟩
    exact ⟨a, b, c, d, readA, readB, readC, readD, rfl⟩
  · rintro ⟨a, b, c, d, readA, readB, readC, readD, rfl⟩
    exact ⟨_, ⟨a, readA, rfl⟩, _, ⟨b, readB, rfl⟩, _, ⟨c, readC, rfl⟩, _, ⟨d, readD, rfl⟩, rfl⟩

/-- Four bytes of a text are a code exactly when they are four of its characters that name it. -/
theorem readHexU16 {text : List Char} {code : Nat} :
    (∃ range, byteRange (utf8 text) 0 4 = some range ∧ parseHexU16 range = some code) ↔
      ∃ digits rest, text = digits ++ rest ∧ HexCode digits code := by
  constructor
  · rintro ⟨range, taken, parsed⟩
    rcases byteRange_eq_some.mp taken with ⟨four, others, encoded⟩
    rcases List.length_eq_four.mp four with ⟨first, second, third, fourth, rfl⟩
    rcases (parseHexU16_four _ _ _ _ _).mp parsed with ⟨a, b, c, d, readA, readB, readC, readD, rfl⟩
    simp only [List.cons_append, List.nil_append] at encoded
    rcases utf8_eq_cons encoded (ascii_of_hexDigit readA) with ⟨charA, _, rfl, sameA, encoded⟩
    rcases utf8_eq_cons encoded (ascii_of_hexDigit readB) with ⟨charB, _, rfl, sameB, encoded⟩
    rcases utf8_eq_cons encoded (ascii_of_hexDigit readC) with ⟨charC, _, rfl, sameC, encoded⟩
    rcases utf8_eq_cons encoded (ascii_of_hexDigit readD) with ⟨charD, rest, rfl, sameD, -⟩
    rw [hexDigit_of_toNat sameA] at readA
    rw [hexDigit_of_toNat sameB] at readB
    rw [hexDigit_of_toNat sameC] at readC
    rw [hexDigit_of_toNat sameD] at readD
    exact ⟨[charA, charB, charC, charD], rest, rfl, .intro readA readB readC readD⟩
  · rintro ⟨_, rest, rfl, @⟨charA, charB, charC, charD, a, b, c, d, readA, readB, readC, readD⟩⟩
    have asByte : ∀ {character : Char} {value : Nat}, hexValue character = some value →
        String.utf8EncodeChar character = [UInt8.ofNat character.toNat] ∧
          hexDigit (UInt8.ofNat character.toNat) = some value := by
      intro character value read
      have ascii := ascii_of_hexValue read
      refine ⟨utf8EncodeChar_of_ascii ascii, ?_⟩
      rw [← read]
      apply hexDigit_of_toNat
      simp only [UInt8.toNat_ofNat']
      omega
    rcases asByte readA with ⟨encodedA, digitA⟩
    rcases asByte readB with ⟨encodedB, digitB⟩
    rcases asByte readC with ⟨encodedC, digitC⟩
    rcases asByte readD with ⟨encodedD, digitD⟩
    refine ⟨_, byteRange_eq_some.mpr ⟨rfl, utf8 rest, ?_⟩,
      (parseHexU16_four _ _ _ _ _).mpr ⟨a, b, c, d, digitA, digitB, digitC, digitD, rfl⟩⟩
    simp only [List.cons_append, List.nil_append, utf8_cons, encodedA, encodedB, encodedC, encodedD]

theorem hexCode_size {digits : List Char} {code : Nat} (names : HexCode digits code) :
    (utf8 digits).length = 4 := by
  rcases names with ⟨readA, readB, readC, readD⟩
  simp only [utf8_cons, utf8_nil, utf8EncodeChar_of_ascii (ascii_of_hexValue readA),
    utf8EncodeChar_of_ascii (ascii_of_hexValue readB),
    utf8EncodeChar_of_ascii (ascii_of_hexValue readC),
    utf8EncodeChar_of_ascii (ascii_of_hexValue readD), List.cons_append, List.nil_append,
    List.length_cons, List.length_nil]

/-- Two bytes of a text introduce an escape exactly when its next two characters do. -/
theorem readEscape {text : List Char} :
    byteRange (utf8 text) 0 2 = some [0x5c, 0x75] ↔ ∃ rest, text = '\x5c' :: 'u' :: rest := by
  rw [byteRange_eq_some]
  constructor
  · rintro ⟨-, others, encoded⟩
    simp only [List.cons_append, List.nil_append] at encoded
    rcases utf8_eq_cons encoded (by decide) with ⟨first, _, rfl, sameFirst, encoded⟩
    rcases utf8_eq_cons encoded (by decide) with ⟨second, rest, rfl, sameSecond, -⟩
    have backslash : first = '\x5c' := Char.toNat_inj.mp sameFirst
    have letter : second = 'u' := Char.toNat_inj.mp sameSecond
    exact ⟨rest, by rw [backslash, letter]⟩
  · rintro ⟨rest, rfl⟩
    exact ⟨rfl, utf8 rest, rfl⟩

end Reading

section Turns

/-- What a `\\u` escape can be, given the text after its letter. -/
inductive CodeRead (text : List Char) (scalar width : Nat) : Prop where
  | single (digits rest : List Char) : text = digits ++ rest → HexCode digits scalar →
      ¬(0xd800 ≤ scalar ∧ scalar ≤ 0xdfff) → width = 5 → CodeRead text scalar width
  | pair (high low rest : List Char) (upper lower : Nat) :
      text = high ++ '\x5c' :: 'u' :: (low ++ rest) → HexCode high upper → HexCode low lower →
      (0xd800 ≤ upper ∧ upper ≤ 0xdbff) → (0xdc00 ≤ lower ∧ lower ≤ 0xdfff) →
      scalar = 0x10000 + (upper - 0xd800) * 0x400 + (lower - 0xdc00) → width = 11 →
      CodeRead text scalar width

theorem unicodeEscape_spec {front : List UInt8} {text : List Char} {index scalar next : Nat}
    (position : front.length = index + 1) :
    unicodeEscape (front ++ utf8 text) index = some (scalar, next) ↔
      CodeRead text scalar (next - index) ∧ index ≤ next := by
  have shifted :
      ∀ start stop, byteRange (front ++ utf8 text) (index + 1 + start) (index + 1 + stop) =
      byteRange (utf8 text) start stop := by
    intro start stop
    rw [← position, byteRange_append]
  have firstRange := shifted 0 4
  have hexAt : ∀ {code : Nat} {rest digits : List Char}, text = digits ++ rest →
      HexCode digits code →
      ∀ start stop, byteRange (front ++ utf8 text) (index + 5 + start) (index + 5 + stop) =
        byteRange (utf8 rest) start stop := by
    rintro code rest digits rfl names start stop
    have inner := byteRange_append (utf8 digits) (utf8 rest) start stop
    rw [hexCode_size names, ← utf8_append] at inner
    rw [← inner, ← shifted]
    congr 1 <;> omega
  have escapeAt : ∀ {code : Nat} {more digits : List Char},
      text = digits ++ '\x5c' :: 'u' :: more → HexCode digits code →
      byteRange (front ++ utf8 text) (index + 5) (index + 5 + 2) = some [0x5c, 0x75] ∧
        byteRange (front ++ utf8 text) (index + 5 + 2) (index + 5 + 6) =
          byteRange (utf8 more) 0 4 := by
    intro code more digits split names
    refine ⟨(hexAt split names 0 2).trans (readEscape.mpr ⟨more, rfl⟩), ?_⟩
    rw [hexAt split names 2 6]
    exact byteRange_append [0x5c, 0x75] (utf8 more) 0 4
  simp only [unicodeEscape, Option.bind_eq_bind, Option.bind_eq_some_iff]
  constructor
  · rintro ⟨range, taken, first, parsed, escaped⟩
    rcases readHexU16.mp ⟨range, firstRange ▸ taken, parsed⟩ with ⟨digits, rest, split, names⟩
    split at escaped
    · rename_i high
      simp only [Option.bind_eq_some_iff] at escaped
      rcases escaped with ⟨letters, read, escaped⟩
      split at escaped
      · cases escaped
      · rename_i introduced
        rw [not_not.mp introduced, hexAt split names 0 2] at read
        rcases readEscape.mp read with ⟨more, rfl⟩
        simp only [Option.bind_eq_some_iff] at escaped
        rcases escaped with ⟨secondRange, secondTaken, second, secondParsed, escaped⟩
        rw [(escapeAt split names).2] at secondTaken
        rcases readHexU16.mp ⟨secondRange, secondTaken, secondParsed⟩ with
          ⟨low, others, rfl, lowNames⟩
        split at escaped
        · rename_i lower
          rw [Option.some.injEq, Prod.mk.injEq] at escaped
          rcases escaped with ⟨rfl, rfl⟩
          exact ⟨.pair digits low others first second split names lowNames high lower rfl
            (by omega), by omega⟩
        · cases escaped
    · rename_i notHigh
      split at escaped
      · cases escaped
      · rename_i notLow
        rw [Option.some.injEq, Prod.mk.injEq] at escaped
        rcases escaped with ⟨rfl, rfl⟩
        exact ⟨.single digits rest split names (by omega) (by omega), by omega⟩
  · rintro ⟨read, after⟩
    cases read with
    | single digits rest split names ordinary width =>
        rcases readHexU16.mpr ⟨digits, rest, split, names⟩ with ⟨range, taken, parsed⟩
        refine ⟨range, firstRange.trans taken, scalar, parsed, ?_⟩
        rw [if_neg (by omega), if_neg (by omega), Option.some.injEq, Prod.mk.injEq]
        exact ⟨rfl, by omega⟩
    | pair high low rest upper lower split names lowNames upperBounds lowerBounds same width =>
        rcases readHexU16.mpr ⟨high, _, split, names⟩ with ⟨range, taken, parsed⟩
        rcases readHexU16.mpr ⟨low, rest, rfl, lowNames⟩ with ⟨lowRange, lowTaken, lowParsed⟩
        rcases escapeAt split names with ⟨introduced, followed⟩
        refine ⟨range, firstRange.trans taken, upper, parsed, ?_⟩
        rw [if_pos upperBounds]
        refine Option.bind_eq_some_iff.mpr ⟨_, introduced, ?_⟩
        rw [if_neg (not_not.mpr rfl)]
        refine Option.bind_eq_some_iff.mpr ⟨lowRange, followed.trans lowTaken, ?_⟩
        refine Option.bind_eq_some_iff.mpr ⟨lower, lowParsed, ?_⟩
        rw [if_pos lowerBounds, Option.some.injEq, Prod.mk.injEq]
        exact ⟨same.symm, by omega⟩

theorem charFromU32_eq_some {scalar : Nat} {character : Char} :
    charFromU32 scalar = some character ↔ character.toNat = scalar := by
  unfold charFromU32
  constructor
  · intro made
    split at made
    · rename_i valid
      cases made
      rw [Char.ofNat, dif_pos valid]
      rfl
    · cases made
  · rintro rfl
    have valid : character.toNat.isValidChar := character.valid
    rw [if_pos valid, Char.ofNat_toNat]

theorem shortEscape_ascii {letter character : Char} (escape : shortEscape letter = some character) :
    letter.toNat < 128 ∧ character.toNat < 128 := by
  unfold shortEscape at escape
  split at escape <;> cases escape <;> decide

/-- The bytes of the short escapes. -/
theorem shortEscape_byte {letter : Char} (ascii : letter.toNat < 128) :
    UInt8.ofNat letter.toNat ∈ ([0x22, 0x5c, 0x2f, 0x62, 0x66, 0x6e, 0x72, 0x74] : List UInt8) ↔
      ∃ character, shortEscape letter = some character := by
  have every : ∀ code : Fin 128,
      UInt8.ofNat code.val ∈ ([0x22, 0x5c, 0x2f, 0x62, 0x66, 0x6e, 0x72, 0x74] : List UInt8) ↔
        (shortEscape (Char.ofNat code.val)).isSome = true := by
    decide
  have named := every ⟨letter.toNat, ascii⟩
  rw [Char.ofNat_toNat, Option.isSome_iff_exists] at named
  exact named

theorem utf8Size_of_ascii {character : Char} (ascii : character.toNat < 128) :
    character.utf8Size = 1 := by
  rw [← String.length_utf8EncodeChar, utf8EncodeChar_of_ascii ascii]
  rfl

theorem fromByte_append (front back : List Char) :
    fromByte (front ++ back) (utf8 front).length = some back := by
  induction front with
  | nil => cases back <;> rfl
  | cons first rest ih =>
      have width : (utf8 (first :: rest)).length = (first.utf8Size - 1 + (utf8 rest).length) +
          1 := by
        rw [utf8_cons, List.length_append, String.length_utf8EncodeChar]
        have positive := first.utf8Size_pos
        omega
      have positive := first.utf8Size_pos
      rw [width, List.cons_append, fromByte, if_pos (by omega)]
      rw [show first.utf8Size - 1 + (utf8 rest).length + 1 - first.utf8Size = (utf8 rest).length by
        omega]
      exact ih

theorem toByte_append (front back : List Char) :
    toByte (front ++ back) (utf8 front).length = some front := by
  induction front with
  | nil => cases back <;> rfl
  | cons first rest ih =>
      have width : (utf8 (first :: rest)).length = (first.utf8Size - 1 + (utf8 rest).length) +
          1 := by
        rw [utf8_cons, List.length_append, String.length_utf8EncodeChar]
        have positive := first.utf8Size_pos
        omega
      have positive := first.utf8Size_pos
      rw [width, List.cons_append, toByte, if_pos (by omega)]
      rw [show first.utf8Size - 1 + (utf8 rest).length + 1 - first.utf8Size = (utf8 rest).length by
        omega]
      rw [ih]
      rfl

/-- A range of a text between two characters. -/
theorem textRange_append (done front rest : List Char) :
    textRange (done ++ (front ++ rest)) (utf8 done).length
      ((utf8 done).length + (utf8 front).length) = some front := by
  unfold textRange
  rw [if_pos (Nat.le_add_right _ _), fromByte_append, Nat.add_sub_cancel_left]
  exact toByte_append front rest

theorem getElem?_utf8_append (done tail : List Char) (offset : Nat) :
    (utf8 (done ++ tail))[(utf8 done).length + offset]? = (utf8 tail)[offset]? := by
  rw [utf8_append, List.getElem?_append_right (Nat.le_add_right _ _), Nat.add_sub_cancel_left]

/-- The first byte of a character. -/
theorem getElem?_utf8_cons (first : Char) (rest : List Char) :
    ∃ byte, (utf8 (first :: rest))[0]? = some byte ∧
      ((first.toNat < 128 ∧ byte = UInt8.ofNat first.toNat ∧ byte.toNat = first.toNat) ∨
        (128 ≤ first.toNat ∧ 128 ≤ byte.toNat)) := by
  rw [utf8_cons]
  by_cases ascii : first.toNat < 128
  · refine ⟨UInt8.ofNat first.toNat, by rw [utf8EncodeChar_of_ascii ascii]; rfl,
      .inl ⟨ascii, rfl, ?_⟩⟩
    simp only [UInt8.toNat_ofNat']
    omega
  · rcases utf8EncodeChar_eq_cons first with ⟨byte, others, split⟩
    refine ⟨byte, by rw [split]; rfl, .inr ⟨Nat.not_lt.mp ascii, ?_⟩⟩
    exact le_of_mem_utf8EncodeChar (Nat.not_lt.mp ascii) (split ▸ List.mem_cons_self)

/-- What a `\\u` escape reads, where `text` follows its letter. -/
theorem scanUnicode_spec {done text : List Char} {next added : Nat} :
    ((unicodeEscape (utf8 (done ++ '\x5c' :: 'u' :: text)) ((utf8 done).length + 1)).bind fun
        | (scalar, index) => (charFromU32 scalar).bind fun character =>
            some (index, character.utf8Size)) = some (next, added) ↔
      ∃ piece rest character, '\x5c' :: 'u' :: text = piece ++ rest ∧ Piece piece character ∧
        next = (utf8 done).length + (utf8 piece).length ∧ added = character.utf8Size := by
  have bytes : utf8 (done ++ '\x5c' :: 'u' :: text) =
      utf8 (done ++ ['\x5c', 'u']) ++ utf8 text := by
    rw [← utf8_append, List.append_assoc]
    rfl
  have position : (utf8 (done ++ ['\x5c', 'u'])).length = (utf8 done).length + 1 + 1 := by
    rw [utf8_append, List.length_append]
    rfl
  have width : ∀ rest, (utf8 ('\x5c' :: 'u' :: rest)).length = 2 + (utf8 rest).length := by
    intro rest
    have front : utf8 ('\x5c' :: 'u' :: rest) = [0x5c, 0x75] ++ utf8 rest := rfl
    rw [front, List.length_append]
    rfl
  have pairWidth : ∀ high low upper lower, HexCode high upper → HexCode low lower →
      (utf8 ('\x5c' :: 'u' :: (high ++ '\x5c' :: 'u' :: low))).length = 12 := by
    intro high low upper lower highNames lowNames
    rw [width, utf8_append, List.length_append, width, hexCode_size highNames,
      hexCode_size lowNames]
  simp only [Option.bind_eq_some_iff, Option.some.injEq, Prod.mk.injEq]
  constructor
  · rintro ⟨⟨scalar, index⟩, escaped, character, valid, rfl, rfl⟩
    rw [bytes] at escaped
    rcases (unicodeEscape_spec position).mp escaped with ⟨read, after⟩
    have same := charFromU32_eq_some.mp valid
    cases read with
    | single digits rest split names ordinary five =>
        refine ⟨'\x5c' :: 'u' :: digits, rest, character, by rw [split]; rfl,
          .code (same ▸ names), ?_, rfl⟩
        rw [width, hexCode_size names]
        omega
    | pair high low rest upper lower split names lowNames upperBounds lowerBounds value eleven =>
        refine ⟨'\x5c' :: 'u' :: (high ++ '\x5c' :: 'u' :: low), rest, character,
          by rw [split]; simp, .pair names lowNames upperBounds.1 upperBounds.2 lowerBounds.1
            lowerBounds.2 (same.trans value), ?_, rfl⟩
        rw [pairWidth _ _ _ _ names lowNames]
        omega
  · rintro ⟨piece, rest, character, split, reads, rfl, rfl⟩
    cases reads with
    | plain _ notBackslash => exact absurd (List.cons.inj split).1.symm notBackslash
    | short other =>
        rw [← (List.cons.inj (List.cons.inj split).2).1] at other
        cases other
    | @code digits _ names =>
        have followed : text = digits ++ rest := (List.cons.inj (List.cons.inj split).2).2
        have ordinary : ¬(0xd800 ≤ character.toNat ∧ character.toNat ≤ 0xdfff) := by
          have valid : character.toNat.isValidChar := character.valid
          rcases valid with low | high
          · omega
          · omega
        refine ⟨(character.toNat, _), ?_, character, charFromU32_eq_some.mpr rfl, rfl, rfl⟩
        rw [bytes]
        refine (unicodeEscape_spec position).mpr
          ⟨.single digits rest followed names ordinary ?_, ?_⟩
        · rw [width, hexCode_size names]
          omega
        · rw [width, hexCode_size names]
          omega
    | @pair high low upper lower _ names lowNames upperLeast upperGreatest lowerLeast
        lowerGreatest value =>
        have followed : text = high ++ '\x5c' :: 'u' :: (low ++ rest) := by
          have inner := (List.cons.inj (List.cons.inj split).2).2
          simpa using inner
        refine ⟨(character.toNat, _), ?_, character, charFromU32_eq_some.mpr rfl, rfl, rfl⟩
        rw [bytes]
        refine (unicodeEscape_spec position).mpr ⟨.pair high low rest upper lower followed names
          lowNames ⟨upperLeast, upperGreatest⟩ ⟨lowerLeast, lowerGreatest⟩ value ?_, ?_⟩
        · rw [pairWidth _ _ _ _ names lowNames]
          omega
        · rw [pairWidth _ _ _ _ names lowNames]
          omega

/-- What an escape reads, where `rest` follows the backslash. -/
theorem scanEscape_spec {done rest : List Char} {next added : Nat} :
    scanEscape (utf8 (done ++ '\x5c' :: rest)) ((utf8 done).length + 1) = some (next, added) ↔
      ∃ piece others character, '\x5c' :: rest = piece ++ others ∧ Piece piece character ∧
        next = (utf8 done).length + (utf8 piece).length ∧ added = character.utf8Size := by
  have byteAt := getElem?_utf8_append done ('\x5c' :: rest) 1
  have inside : (utf8 ('\x5c' :: rest))[1]? = (utf8 rest)[0]? := rfl
  simp only [scanEscape, Option.bind_eq_bind, byteAt, inside]
  cases rest with
  | nil =>
      constructor
      · intro escaped
        cases escaped
      · rintro ⟨piece, others, character, split, reads, -⟩
        cases reads with
        | plain _ notBackslash => exact absurd (List.cons.inj split).1.symm notBackslash
        | short escape => cases (List.cons.inj split).2
        | code names => cases (List.cons.inj split).2
        | pair => cases (List.cons.inj split).2
  | cons letter more =>
      rcases getElem?_utf8_cons letter more with ⟨byte, read, letterByte⟩
      rw [read, Option.bind_some]
      by_cases short : ∃ character, shortEscape letter = some character
      · rcases short with ⟨character, escape⟩
        rcases shortEscape_ascii escape with ⟨ascii, characterAscii⟩
        have listed : byte ∈ ([0x22, 0x5c, 0x2f, 0x62, 0x66, 0x6e, 0x72, 0x74] : List UInt8) := by
          rcases letterByte with ⟨-, same, -⟩ | ⟨large, -⟩
          · exact same ▸ (shortEscape_byte ascii).mpr ⟨character, escape⟩
          · omega
        have width : (utf8 ['\x5c', letter]).length = 2 := by
          rw [utf8_cons, utf8_cons, utf8EncodeChar_of_ascii ascii]
          rfl
        rw [if_pos listed, Option.some.injEq, Prod.mk.injEq]
        constructor
        · rintro ⟨rfl, rfl⟩
          refine ⟨['\x5c', letter], more, character, rfl, .short escape, ?_,
            (utf8Size_of_ascii characterAscii).symm⟩
          omega
        · rintro ⟨piece, others, read, split, reads, rfl, rfl⟩
          cases reads with
          | plain _ notBackslash => exact absurd (List.cons.inj split).1.symm notBackslash
          | short other =>
              rcases List.cons.inj (List.cons.inj split).2 with ⟨rfl, -⟩
              rw [width, utf8Size_of_ascii (shortEscape_ascii other).2]
              exact ⟨rfl, rfl⟩
          | code names =>
              rw [(List.cons.inj (List.cons.inj split).2).1] at escape
              cases escape
          | pair =>
              rw [(List.cons.inj (List.cons.inj split).2).1] at escape
              cases escape
      · have unlisted :
            byte ∉ ([0x22, 0x5c, 0x2f, 0x62, 0x66, 0x6e, 0x72, 0x74] : List UInt8) := by
          rcases letterByte with ⟨ascii, same, -⟩ | ⟨-, large⟩
          · exact fun listed => short ((shortEscape_byte ascii).mp (same ▸ listed))
          · intro listed
            have every : ∀ byte ∈ ([0x22, 0x5c, 0x2f, 0x62, 0x66, 0x6e, 0x72, 0x74] : List UInt8),
                byte.toNat < 128 := by
              decide +kernel
            exact absurd large (Nat.not_le.mpr (every byte listed))
        have unicode : byte = 0x75 ↔ letter = 'u' := by
          rw [← UInt8.toNat_inj, ← Char.toNat_inj]
          rcases letterByte with ⟨-, -, value⟩ | ⟨large, byteLarge⟩
          · rw [value]
            rfl
          · have letterU : 'u'.toNat = 117 := rfl
            have byteU : (0x75 : UInt8).toNat = 117 := rfl
            omega
        rw [if_neg unlisted]
        by_cases isUnicode : letter = 'u'
        · subst isUnicode
          rw [if_pos (unicode.mpr rfl)]
          exact scanUnicode_spec
        · rw [if_neg (mt unicode.mp isUnicode)]
          constructor
          · intro escaped
            cases escaped
          · rintro ⟨piece, others, character, split, reads, -⟩
            cases reads with
            | plain _ notBackslash => exact absurd (List.cons.inj split).1.symm notBackslash
            | short other =>
                rcases List.cons.inj (List.cons.inj split).2 with ⟨rfl, -⟩
                exact absurd ⟨character, other⟩ short
            | code names => exact absurd (List.cons.inj (List.cons.inj split).2).1 isUnicode
            | pair => exact absurd (List.cons.inj (List.cons.inj split).2).1 isUnicode

/-- What one turn reads, where `front` is what is left of the inside of the literal. -/
theorem scanTurn_spec (done : List Char) {front : List Char} (inside : front ≠ [])
    {next added : Nat} :
    scanTurn (done ++ (front ++ ['\x22'])) (utf8 (done ++ (front ++ ['\x22'])))
        ((utf8 done).length + (utf8 front).length) (utf8 done).length = some (next, added) ↔
      ∃ piece rest character, front ++ ['\x22'] = piece ++ rest ∧ Piece piece character ∧
        next = (utf8 done).length + (utf8 piece).length ∧ added = character.utf8Size := by
  rcases List.exists_cons_of_ne_nil inside with ⟨first, others, rfl⟩
  rcases getElem?_utf8_cons first (others ++ ['\x22']) with ⟨byte, read, firstByte⟩
  have byteAt := getElem?_utf8_append done (first :: others ++ ['\x22']) 0
  rw [List.cons_append, Nat.add_zero, read] at byteAt
  simp only [scanTurn, Option.bind_eq_bind, List.cons_append, byteAt, Option.bind_some]
  by_cases backslash : byte = 0x5c
  · rw [if_pos backslash]
    have isBackslash : first = '\x5c' := by
      rcases firstByte with ⟨-, -, value⟩ | ⟨-, large⟩
      · rw [← Char.toNat_inj, ← value, backslash]
        rfl
      · rw [backslash] at large
        exact absurd large (by decide)
    rw [isBackslash]
    exact scanEscape_spec
  · rw [if_neg backslash]
    have notBackslash : first ≠ '\x5c' := by
      rintro rfl
      rcases firstByte with ⟨-, same, -⟩ | ⟨large, -⟩
      · exact backslash same
      · exact absurd large (by decide)
    rcases firstByte with ⟨ascii, same, value⟩ | ⟨large, byteLarge⟩
    · rw [if_pos (value ▸ ascii)]
      have quote : byte = 0x22 ↔ first = '\x22' := by
        rw [← UInt8.toNat_inj, value, ← Char.toNat_inj]
        rfl
      simp only [value, quote]
      constructor
      · intro turned
        split at turned
        · cases turned
        · rename_i plain
          rw [not_or] at plain
          rw [Option.some.injEq, Prod.mk.injEq] at turned
          refine ⟨[first], _, first, rfl, .plain plain.2 notBackslash (Nat.not_lt.mp plain.1),
            ?_, ?_⟩
          · rw [utf8_cons, utf8EncodeChar_of_ascii ascii]
            exact turned.1.symm
          · rw [utf8Size_of_ascii ascii]
            exact turned.2.symm
      · rintro ⟨piece, rest, character, split, reads, rfl, rfl⟩
        cases reads with
        | plain notQuote _ printable =>
            rcases List.cons.inj split with ⟨rfl, -⟩
            rw [if_neg (not_or.mpr ⟨Nat.not_lt.mpr printable, notQuote⟩), utf8_cons,
              utf8EncodeChar_of_ascii ascii, utf8Size_of_ascii ascii]
            rfl
        | short escape => exact absurd (List.cons.inj split).1 notBackslash
        | code names => exact absurd (List.cons.inj split).1 notBackslash
        | pair => exact absurd (List.cons.inj split).1 notBackslash
    · rw [if_neg (Nat.not_lt.mpr byteLarge)]
      have range := textRange_append done (first :: others) ['\x22']
      rw [List.cons_append] at range
      rw [range]
      constructor
      · intro turned
        rw [Option.bind_some, List.head?_cons, Option.bind_some, Option.some.injEq,
          Prod.mk.injEq] at turned
        refine ⟨[first], _, first, rfl, .plain ?_ notBackslash (by omega), ?_, turned.2.symm⟩
        · rintro rfl
          exact absurd large (by decide)
        · rw [utf8_cons, utf8_nil, List.append_nil, String.length_utf8EncodeChar]
          exact turned.1.symm
      · rintro ⟨piece, rest, character, split, reads, rfl, rfl⟩
        cases reads with
        | plain notQuote _ printable =>
            rcases List.cons.inj split with ⟨rfl, -⟩
            rw [utf8_cons, utf8_nil, List.append_nil, String.length_utf8EncodeChar]
            rfl
        | short escape => exact absurd (List.cons.inj split).1 notBackslash
        | code names => exact absurd (List.cons.inj split).1 notBackslash
        | pair => exact absurd (List.cons.inj split).1 notBackslash

end Turns

section Scanning

theorem utf8_piece_ne_nil {piece : List Char} {character : Char} (reads : Piece piece character) :
    piece ≠ [] := by
  cases reads <;> exact List.cons_ne_nil _ _

/-- A piece at the front of the inside of a literal leaves the inside of a literal, or it takes the
closing quote. -/
theorem piece_front {front piece rest : List Char}
    (split : front ++ ['\x22'] = piece ++ rest) :
    (∃ left, front = piece ++ left ∧ rest = left ++ ['\x22']) ∨
      piece = front ++ ['\x22'] := by
  rcases List.append_eq_append_iff.mp split with ⟨taken, pieceSplit, last⟩ |
    ⟨left, frontSplit, same⟩
  · cases taken with
    | nil => exact .inl ⟨[], by simpa using pieceSplit.symm, last.symm⟩
    | cons first others =>
        rcases List.cons.inj last with ⟨rfl, nothing⟩
        rcases List.append_eq_nil_iff.mp nothing.symm with ⟨rfl, -⟩
        exact .inr pieceSplit
  · exact .inl ⟨left, frontSplit, same⟩

theorem scanString_turned {raw : List Char} {bytes : List UInt8} {stop index next added : Nat}
    (length : Nat) (inside : index < stop)
    (turned : scanTurn raw bytes stop index = some (next, added)) :
    scanString raw bytes stop index length = scanString raw bytes stop next (length + added) := by
  rw [scanString, if_pos inside]
  split
  · rename_i failed
    rw [turned] at failed
    cases failed
  · rename_i other otherAdded made
    rw [turned] at made
    cases made
    rfl

/-- From between two pieces, the scanner measures exactly what is left of the inside of a
literal. -/
theorem scanString_spec (done front : List Char) (length measured : Nat) :
    scanString (done ++ (front ++ ['\x22'])) (utf8 (done ++ (front ++ ['\x22'])))
        ((utf8 done).length + (utf8 front).length) (utf8 done).length length = some measured ↔
      ∃ text, Body front text ∧ measured = length + (utf8 text).length := by
  induction size : front.length using Nat.strong_induction_on generalizing done front length with
  | _ size ih =>
      subst size
      by_cases inside : front = []
      · subst inside
        rw [scanString, utf8_nil, List.length_nil, Nat.add_zero, if_neg (Nat.lt_irrefl _),
          if_pos rfl, Option.some.injEq]
        constructor
        · rintro rfl
          exact ⟨[], .nil, rfl⟩
        · rintro ⟨text, body, rfl⟩
          generalize nothing : ([] : List Char) = front at body
          cases body with
          | nil => rfl
          | cons reads _ =>
              exact absurd (List.append_eq_nil_iff.mp nothing.symm).1 (utf8_piece_ne_nil reads)
      · have further : (utf8 done).length < (utf8 done).length + (utf8 front).length := by
          rcases List.exists_cons_of_ne_nil inside with ⟨first, others, rfl⟩
          have positive := first.utf8Size_pos
          rw [utf8_cons, List.length_append, String.length_utf8EncodeChar]
          omega
        -- A piece that stays inside the literal leaves the same situation behind it.
        have continued : ∀ piece left, front = piece ++ left →
            done ++ (front ++ ['\x22']) = (done ++ piece) ++ (left ++ ['\x22']) ∧
              (utf8 done).length + (utf8 front).length =
                (utf8 (done ++ piece)).length + (utf8 left).length ∧
              (utf8 done).length + (utf8 piece).length = (utf8 (done ++ piece)).length := by
          rintro piece left rfl
          refine ⟨by simp, ?_, ?_⟩
          · rw [utf8_append, utf8_append, List.length_append, List.length_append]
            omega
          · rw [utf8_append, List.length_append]
        have smaller : ∀ piece left character, front = piece ++ left → Piece piece character →
            left.length < front.length := by
          rintro piece left character rfl reads
          have positive := List.length_pos_of_ne_nil (utf8_piece_ne_nil reads)
          rw [List.length_append]
          omega
        constructor
        · intro scanned
          cases turned : scanTurn (done ++ (front ++ ['\x22'])) (utf8 (done ++ (front ++ ['\x22'])))
              ((utf8 done).length + (utf8 front).length) (utf8 done).length with
          | none =>
              rw [scanString, if_pos further] at scanned
              split at scanned
              · cases scanned
              · rename_i next added made
                rw [turned] at made
                cases made
          | some turn =>
              rw [scanString_turned length further turned] at scanned
              rcases (scanTurn_spec done inside).mp turned with
                ⟨piece, rest, character, split, reads, next, added⟩
              rw [next, added] at scanned
              rcases piece_front split with ⟨left, kept, rfl⟩ | taken
              · rcases continued piece left kept with ⟨sameText, sameStop, sameIndex⟩
                rw [sameText, sameStop, sameIndex] at scanned
                rcases (ih left.length (smaller piece left character kept reads)
                  (done ++ piece) left _ rfl).mp scanned with ⟨text, body, rfl⟩
                refine ⟨character :: text, kept ▸ .cons reads body, ?_⟩
                rw [utf8_cons, List.length_append, String.length_utf8EncodeChar]
                omega
              · -- The closing quote was escaped: the index has passed the end.
                have beyond : (utf8 piece).length = (utf8 front).length + 1 := by
                  rw [taken, utf8_append, List.length_append]
                  rfl
                rw [scanString, if_neg (by omega), if_neg (by omega)] at scanned
                cases scanned
        · rintro ⟨text, body, rfl⟩
          cases body with
          | nil => exact absurd rfl inside
          | @cons piece left character text reads body =>
              rcases continued piece left rfl with ⟨sameText, sameStop, sameIndex⟩
              have turned := (scanTurn_spec done inside).mpr
                ⟨piece, left ++ ['\x22'], character, by simp, reads, rfl, rfl⟩
              rw [scanString_turned length further turned, sameText, sameStop, sameIndex]
              refine (ih left.length (smaller piece left character rfl reads) (done ++ piece) left
                _ rfl).mpr ⟨text, body, ?_⟩
              rw [utf8_cons, List.length_append, String.length_utf8EncodeChar, Nat.add_assoc]

/-- A text whose first and last bytes are quotes, and are two, is quoted. -/
theorem quoted_of_bytes {raw : List Char} (long : ¬(utf8 raw).length < 2)
    (opening : (utf8 raw).head? = some 0x22) (closing : (utf8 raw).getLast? = some 0x22) :
    ∃ body, raw = '\x22' :: (body ++ ['\x22']) := by
  rcases List.head?_eq_some_iff.mp opening with ⟨bytes, encoded⟩
  rcases utf8_eq_cons encoded (by decide) with ⟨first, inner, rfl, isQuote, rfl⟩
  have firstQuote : first = '\x22' := Char.toNat_inj.mp isQuote
  rw [encoded] at long closing
  have nonempty : utf8 inner ≠ [] := by
    intro nothing
    rw [nothing] at long
    exact long (by decide)
  have last : (utf8 inner).getLast? = some 0x22 := by
    rwa [List.getLast?_cons_of_ne_nil nonempty] at closing
  rcases List.getLast?_eq_some_iff.mp last with ⟨bodyBytes, innerBytes⟩
  rcases utf8_eq_append innerBytes (by decide) with ⟨lastCharacter, body, rfl, lastQuote, -⟩
  have lastIsQuote : lastCharacter = '\x22' := Char.toNat_inj.mp lastQuote
  exact ⟨body, by rw [firstQuote, lastIsQuote]⟩

/-- The scanner measures a text exactly when it is a string literal with nothing around it, and then
it counts the bytes of the text the literal stands for. -/
theorem decoded_bytes_iff (raw : List Char) (measured : Nat) :
    decodedJsonStringUtf8Bytes raw = some measured ↔
      ∃ text, Literal raw text ∧ measured = (utf8 text).length := by
  have scans :
      ∀ body, (scanString ('\x22' :: (body ++ ['\x22'])) (utf8 ('\x22' :: (body ++ ['\x22'])))
      ((utf8 ('\x22' :: (body ++ ['\x22']))).length - 1) 1 0 = some measured) ↔
      ∃ text, Body body text ∧ measured = (utf8 text).length := by
    intro body
    have scanned := scanString_spec ['\x22'] body 0 measured
    have start : (utf8 ['\x22']).length = 1 := rfl
    have stop : (utf8 ('\x22' :: (body ++ ['\x22']))).length - 1 = 1 + (utf8 body).length := by
      rw [utf8_cons, utf8_append, List.length_append, List.length_append, start]
      have first : (String.utf8EncodeChar '\x22').length = 1 := rfl
      omega
    simp only [start, Nat.zero_add, List.cons_append, List.nil_append] at scanned
    rw [stop]
    exact scanned
  unfold decodedJsonStringUtf8Bytes
  dsimp only
  constructor
  · intro measure
    split at measure
    · cases measure
    · rename_i quoted
      rw [not_or, not_or, not_not, not_not] at quoted
      rcases quoted_of_bytes quoted.1 quoted.2.1 quoted.2.2 with ⟨body, rfl⟩
      rcases (scans body).mp measure with ⟨text, inside, same⟩
      exact ⟨text, ⟨body, rfl, inside⟩, same⟩
  · rintro ⟨text, ⟨body, rfl, inside⟩, same⟩
    have closing : utf8 ('\x22' :: (body ++ ['\x22'])) = 0x22 :: (utf8 body ++ [0x22]) := by
      rw [utf8_cons, utf8_append]
      rfl
    rw [if_neg ?_]
    · exact (scans body).mpr ⟨text, inside, same⟩
    · rw [not_or, not_or, not_not, not_not, closing]
      refine ⟨?_, rfl, ?_⟩
      · simp
      · rw [← List.cons_append, List.getLast?_concat]

end Scanning

end Rhi
