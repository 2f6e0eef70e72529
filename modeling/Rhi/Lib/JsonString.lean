import Rhi.Lib.Json

/-!
# String literals of JSON

The grammar of a string literal together with the text it stands for: each piece of the literal is a
character, a short escape, a four-digit escape or a pair of surrogates, and stands for one
character.  A scanner of the bytes of a literal reads one piece after the other, since bytes below
128 stand for themselves wherever they occur.
-/

namespace Json

section Bytes

theorem utf8_nil : utf8 [] = [] := rfl

theorem utf8_cons (character : Char) (text : List Char) :
    utf8 (character :: text) = String.utf8EncodeChar character ++ utf8 text := rfl

theorem utf8_append (left right : List Char) : utf8 (left ++ right) = utf8 left ++ utf8 right :=
  List.flatMap_append

/-- A character below 128 is its own byte. -/
theorem utf8EncodeChar_of_ascii {character : Char} (ascii : character.toNat < 128) :
    String.utf8EncodeChar character = [UInt8.ofNat character.toNat] := by
  unfold String.utf8EncodeChar
  have small : character.val.toNat ≤ 0x7f := Nat.le_of_lt_succ ascii
  simp only [small, if_true]
  rfl

/-- The bytes of every other character are at least 128. -/
theorem le_of_mem_utf8EncodeChar {character : Char} (large : 128 ≤ character.toNat) {byte : UInt8}
    (member : byte ∈ String.utf8EncodeChar character) : 128 ≤ byte.toNat := by
  have bounded : character.val.toNat < 0x110000 := by
    rcases character.valid with low | high
    · have small : character.val.toNat < 0xd800 := low
      omega
    · exact high.2
  have notSmall : ¬character.val.toNat ≤ 0x7f := Nat.not_le.mpr large
  unfold String.utf8EncodeChar at member
  simp only [notSmall, if_false] at member
  split at member
  · simp only [List.mem_cons, List.not_mem_nil, or_false] at member
    rcases member with rfl | rfl <;> simp only [UInt8.toNat_ofNat'] <;> omega
  · split at member
    · simp only [List.mem_cons, List.not_mem_nil, or_false] at member
      rcases member with rfl | rfl | rfl <;> simp only [UInt8.toNat_ofNat'] <;> omega
    · simp only [List.mem_cons, List.not_mem_nil, or_false] at member
      rcases member with rfl | rfl | rfl | rfl <;> simp only [UInt8.toNat_ofNat'] <;> omega

theorem utf8EncodeChar_eq_cons (character : Char) :
    ∃ byte rest, String.utf8EncodeChar character = byte :: rest := by
  cases encoded : String.utf8EncodeChar character with
  | nil => exact absurd encoded String.utf8EncodeChar_ne_nil
  | cons byte rest => exact ⟨byte, rest, rfl⟩

/-- Text that begins with a byte below 128 begins with that character. -/
theorem utf8_eq_cons {text : List Char} {byte : UInt8} {bytes : List UInt8}
    (encoded : utf8 text = byte :: bytes) (ascii : byte.toNat < 128) :
    ∃ character rest, text = character :: rest ∧ character.toNat = byte.toNat ∧
      utf8 rest = bytes := by
  cases text with
  | nil => cases encoded
  | cons character rest =>
      rw [utf8_cons] at encoded
      by_cases small : character.toNat < 128
      · rw [utf8EncodeChar_of_ascii small] at encoded
        rcases List.cons.inj encoded with ⟨rfl, rfl⟩
        refine ⟨character, rest, rfl, ?_, rfl⟩
        simp only [UInt8.toNat_ofNat']
        omega
      · rcases utf8EncodeChar_eq_cons character with ⟨first, others, split⟩
        rw [split] at encoded
        rcases List.cons.inj encoded with ⟨rfl, -⟩
        have large := le_of_mem_utf8EncodeChar (Nat.not_lt.mp small) (split ▸ List.mem_cons_self)
        omega

/-- Text that ends with a byte below 128 ends with that character. -/
theorem utf8_eq_append {text : List Char} {byte : UInt8} {bytes : List UInt8}
    (encoded : utf8 text = bytes ++ [byte]) (ascii : byte.toNat < 128) :
    ∃ character rest, text = rest ++ [character] ∧ character.toNat = byte.toNat ∧
      utf8 rest = bytes := by
  rcases List.eq_nil_or_concat text with rfl | ⟨rest, character, rfl⟩
  · exact absurd encoded (by simp [utf8_nil])
  · rw [List.concat_eq_append, utf8_append, utf8_cons, utf8_nil, List.append_nil] at encoded
    by_cases small : character.toNat < 128
    · rw [utf8EncodeChar_of_ascii small] at encoded
      rcases List.append_inj' encoded rfl with ⟨same, last⟩
      rcases List.cons.inj last with ⟨rfl, -⟩
      refine ⟨character, rest, List.concat_eq_append, ?_, same⟩
      simp only [UInt8.toNat_ofNat']
      omega
    · have last : byte ∈ String.utf8EncodeChar character := by
        have nonempty : String.utf8EncodeChar character ≠ [] := String.utf8EncodeChar_ne_nil
        have same := congrArg List.getLast? encoded
        rw [List.getLast?_append_of_ne_nil _ nonempty, List.getLast?_concat] at same
        exact List.mem_of_getLast? same
      have large := le_of_mem_utf8EncodeChar (Nat.not_lt.mp small) last
      omega

end Bytes

section Grammar

/-- The value of a hexadecimal digit. -/
def hexValue (character : Char) : Option Nat :=
  if 48 ≤ character.toNat ∧ character.toNat ≤ 57 then some (character.toNat - 48)
  else if 97 ≤ character.toNat ∧ character.toNat ≤ 102 then some (character.toNat - 97 + 10)
  else if 65 ≤ character.toNat ∧ character.toNat ≤ 70 then some (character.toNat - 65 + 10)
  else none

/-- Four hexadecimal digits and the code they name. -/
inductive HexCode : List Char → Nat → Prop where
  | intro {first second third fourth : Char} {a b c d : Nat} :
      hexValue first = some a → hexValue second = some b → hexValue third = some c →
      hexValue fourth = some d →
      HexCode [first, second, third, fourth] (((a * 16 + b) * 16 + c) * 16 + d)

/-- The character a short escape stands for. -/
def shortEscape : Char → Option Char
  | '\x22' => some '\x22'
  | '\x5c' => some '\x5c'
  | '/' => some '/'
  | 'b' => some '\x08'
  | 'f' => some '\x0c'
  | 'n' => some '\x0a'
  | 'r' => some '\x0d'
  | 't' => some '\x09'
  | _ => none

/-- A piece of a string literal and the character it stands for. -/
inductive Piece : List Char → Char → Prop where
  | plain {character : Char} : character ≠ '\x22' → character ≠ '\x5c' → 32 ≤ character.toNat →
      Piece [character] character
  | short {letter character : Char} : shortEscape letter = some character →
      Piece ['\x5c', letter] character
  | code {digits : List Char} {character : Char} : HexCode digits character.toNat →
      Piece ('\x5c' :: 'u' :: digits) character
  | pair {high low : List Char} {upper lower : Nat} {character : Char} :
      HexCode high upper → HexCode low lower → 0xd800 ≤ upper → upper ≤ 0xdbff →
      0xdc00 ≤ lower → lower ≤ 0xdfff →
      character.toNat = 0x10000 + (upper - 0xd800) * 0x400 + (lower - 0xdc00) →
      Piece ('\x5c' :: 'u' :: (high ++ '\x5c' :: 'u' :: low)) character

/-- The inside of a string literal and the text it stands for. -/
inductive Body : List Char → List Char → Prop where
  | nil : Body [] []
  | cons {piece rest : List Char} {character : Char} {text : List Char} :
      Piece piece character → Body rest text → Body (piece ++ rest) (character :: text)

/-- A string literal with nothing around it. -/
def Literal (raw text : List Char) : Prop :=
  ∃ body, raw = '\x22' :: (body ++ ['\x22']) ∧ Body body text

end Grammar

end Json
