import Rhi.Lib.JsonString

/-!
# Percent encoding

The bytes that a form stands for.  A percent sign and two hexadecimal digits stand for the byte they
name, a plus stands for a blank, and every other byte stands for itself; what is written stands for
one byte string at most, while a byte string has many writings.
-/

namespace Percent

section Digits

/-- The value of a hexadecimal digit. -/
def nibble (byte : UInt8) : Option UInt8 :=
  if 48 ≤ byte ∧ byte ≤ 57 then some (byte - 48)
  else if 97 ≤ byte ∧ byte ≤ 102 then some (byte - 97 + 10)
  else if 65 ≤ byte ∧ byte ≤ 70 then some (byte - 65 + 10)
  else none

/-- The upper-case digit of a value below 16. -/
def digit (value : UInt8) : UInt8 :=
  if value < 10 then value + 48 else value - 10 + 65

/-- The bytes that a form leaves as they are: letters, digits, `*`, `-`, `.` and `_`. -/
def isPlain (byte : UInt8) : Bool :=
  decide (48 ≤ byte ∧ byte ≤ 57) || decide (65 ≤ byte ∧ byte ≤ 90) ||
    decide (97 ≤ byte ∧ byte ≤ 122) || byte == 0x2a || byte == 0x2d || byte == 0x2e || byte == 0x5f

theorem nibble_digit (byte : UInt8) :
    nibble (digit (byte >>> 4)) = some (byte >>> 4) ∧
      nibble (digit (byte &&& 15)) = some (byte &&& 15) := by
  have every : ∀ number < 256,
      nibble (digit (UInt8.ofNat number >>> 4)) = some (UInt8.ofNat number >>> 4) ∧
        nibble (digit (UInt8.ofNat number &&& 15)) = some (UInt8.ofNat number &&& 15) := by
    decide +kernel
  have here := every byte.toNat byte.toNat_lt
  rwa [UInt8.ofNat_toNat] at here

theorem shift_or_and (byte : UInt8) : byte >>> 4 <<< 4 ||| byte &&& 15 = byte := by
  have small : byte.toNat < 2 ^ 8 := byte.toNat_lt
  have joined := Nat.shiftLeft_add_eq_or_of_lt (Nat.mod_lt byte.toNat (by decide : 0 < 2 ^ 4))
    (byte.toNat / 2 ^ 4)
  have high : (byte >>> 4 <<< 4).toNat = (byte.toNat / 2 ^ 4) <<< 4 := by
    rw [UInt8.toNat_shiftLeft, UInt8.toNat_shiftRight]
    change byte.toNat >>> 4 <<< 4 % 2 ^ 8 = _
    rw [Nat.shiftRight_eq_div_pow, Nat.shiftLeft_eq]
    omega
  have low : (byte &&& 15).toNat = byte.toNat % 2 ^ 4 := by
    rw [UInt8.toNat_and]
    exact Nat.and_two_pow_sub_one_eq_mod byte.toNat 4
  apply UInt8.toNat_inj.mp
  rw [UInt8.toNat_or, high, low, ← joined, Nat.shiftLeft_eq]
  omega

end Digits

section Writings

/-- What is written, and the bytes it stands for. -/
inductive Spelling : List UInt8 → List UInt8 → Prop where
  | nil : Spelling [] []
  | escape {high low upper lower : UInt8} {raw bytes : List UInt8} : nibble high = some upper →
      nibble low = some lower → Spelling raw bytes →
      Spelling (0x25 :: high :: low :: raw) ((upper <<< 4 ||| lower) :: bytes)
  | blank {raw bytes : List UInt8} : Spelling raw bytes → Spelling (0x2b :: raw) (0x20 :: bytes)
  | self {byte : UInt8} {raw bytes : List UInt8} : byte ≠ 0x25 → byte ≠ 0x2b →
      Spelling raw bytes → Spelling (byte :: raw) (byte :: bytes)

namespace Spelling

/-- A writing stands for one byte string. -/
theorem unique {raw left right : List UInt8} (first : Spelling raw left)
    (second : Spelling raw right) : left = right := by
  induction first generalizing right with
  | nil =>
      cases second
      rfl
  | escape upper lower _ ih =>
      cases second with
      | escape upper' lower' later =>
          cases upper.symm.trans upper'
          cases lower.symm.trans lower'
          rw [ih later]
      | self notPercent => exact absurd rfl notPercent
  | blank _ ih =>
      cases second with
      | blank later => rw [ih later]
      | self _ notPlus => exact absurd rfl notPlus
  | self notPercent notPlus _ ih =>
      cases second with
      | escape => exact absurd rfl notPercent
      | blank => exact absurd rfl notPlus
      | self _ _ later => rw [ih later]

theorem append {left right leftBytes rightBytes : List UInt8} (first : Spelling left leftBytes)
    (second : Spelling right rightBytes) : Spelling (left ++ right) (leftBytes ++ rightBytes) := by
  induction first with
  | nil => exact second
  | escape upper lower _ ih => exact .escape upper lower ih
  | blank _ ih => exact .blank ih
  | self notPercent notPlus _ ih => exact .self notPercent notPlus ih

/-- Without percent signs and pluses everything stands for itself. -/
theorem of_plain {raw : List UInt8} (noPercent : 0x25 ∉ raw) (noPlus : 0x2b ∉ raw) :
    Spelling raw raw := by
  induction raw with
  | nil => exact .nil
  | cons byte raw ih =>
      rw [List.mem_cons, not_or] at noPercent noPlus
      exact .self (Ne.symm noPercent.1) (Ne.symm noPlus.1) (ih noPercent.2 noPlus.2)

/-- What stands for a byte string without blanks, and has no percent signs, is that byte string. -/
theorem eq_of_plain {raw bytes : List UInt8} (spelled : Spelling raw bytes)
    (noPercent : 0x25 ∉ raw) (noBlank : 0x20 ∉ bytes) : bytes = raw := by
  induction spelled with
  | nil => rfl
  | escape => exact absurd List.mem_cons_self noPercent
  | blank => exact absurd List.mem_cons_self noBlank
  | self _ _ _ ih =>
      rw [List.mem_cons, not_or] at noPercent noBlank
      rw [ih noPercent.2 noBlank.2]

end Spelling

end Writings

section Forms

/-- A byte as a form writes it. -/
def encodeByte (byte : UInt8) : List UInt8 :=
  if byte = 0x20 then [0x2b]
  else if isPlain byte then [byte]
  else [0x25, digit (byte >>> 4), digit (byte &&& 15)]

/-- A byte string as a form writes it. -/
def encode (bytes : List UInt8) : List UInt8 := bytes.flatMap encodeByte

theorem spelling_encodeByte (byte : UInt8) : Spelling (encodeByte byte) [byte] := by
  unfold encodeByte
  split
  case isTrue isBlank =>
    rw [isBlank]
    exact .blank .nil
  case isFalse =>
    split
    case isTrue plain =>
      refine .self ?_ ?_ .nil
      · rintro rfl
        exact absurd plain (by decide)
      · rintro rfl
        exact absurd plain (by decide)
    case isFalse =>
      rcases nibble_digit byte with ⟨upper, lower⟩
      have spelled := Spelling.escape upper lower .nil
      rwa [shift_or_and] at spelled

/-- What a form writes stands for what was given to it. -/
theorem spelling_encode (bytes : List UInt8) : Spelling (encode bytes) bytes := by
  induction bytes with
  | nil => exact .nil
  | cons byte bytes ih => exact (spelling_encodeByte byte).append ih

theorem encodeByte_lt (byte : UInt8) : ∀ written ∈ encodeByte byte, written.toNat < 128 := by
  have every : ∀ number < 256,
      ((encodeByte (UInt8.ofNat number)).all fun written => decide (written.toNat < 128)) := by
    decide +kernel
  have here := every byte.toNat byte.toNat_lt
  rw [UInt8.ofNat_toNat, List.all_eq_true] at here
  exact fun written member => of_decide_eq_true (here written member)

/-- A text as a form writes it. -/
def encodeText (text : List Char) : List Char :=
  (encode (Json.utf8 text)).map fun byte => Char.ofNat byte.toNat

theorem utf8_encodeText (text : List Char) :
    Json.utf8 (encodeText text) = encode (Json.utf8 text) := by
  have ascii : ∀ written ∈ encode (Json.utf8 text), written.toNat < 128 := by
    intro written member
    rcases List.mem_flatMap.mp member with ⟨byte, -, member⟩
    exact encodeByte_lt byte written member
  unfold encodeText
  generalize encode (Json.utf8 text) = bytes at ascii
  induction bytes with
  | nil => rfl
  | cons byte bytes ih =>
      have small := ascii byte List.mem_cons_self
      have every : ∀ number : Fin 128, (Char.ofNat number.val).toNat = number.val := by
        decide
      have valid : (Char.ofNat byte.toNat).toNat = byte.toNat := every ⟨byte.toNat, small⟩
      rw [List.map_cons, Json.utf8_cons, Json.utf8EncodeChar_of_ascii (by omega), valid,
        ih fun other member => ascii other (List.mem_cons_of_mem byte member)]
      simp

end Forms

end Percent
