import Mathlib.Algebra.Order.Ring.Nat
import Mathlib.Tactic.Common
import Mathlib.Tactic.FinCases
import Mathlib.Data.Fintype.Basic

/-!
# Compact JSON of flat objects

An object whose values are scalars, written without blanks, in the order of its entries.  Different
objects have different texts, and different bytes.
-/

namespace Json

inductive Scalar where
  | boolean (value : Bool)
  | number (value : Nat)
  | text (value : String)
deriving DecidableEq, Repr

abbrev Entry := String × Scalar

section Printing

/-- The last digit of the escape of a control character. -/
def hexDigit (value : Nat) : Char := "0123456789abcdef".toList.getD value '0'

/-- A character within quotes: the quote, the backslash and the control characters are escaped. -/
def escape (character : Char) : List Char :=
  match character with
  | '\x22' => ['\x5c', '\x22']
  | '\x5c' => ['\x5c', '\x5c']
  | '\x08' => ['\x5c', 'b']
  | '\x09' => ['\x5c', 't']
  | '\x0a' => ['\x5c', 'n']
  | '\x0c' => ['\x5c', 'f']
  | '\x0d' => ['\x5c', 'r']
  | other =>
      if other.toNat < 32 then
        ['\x5c', 'u', '0', '0', hexDigit (other.toNat / 16), hexDigit (other.toNat % 16)]
      else
        [other]

def quote (text : String) : List Char :=
  '\x22' :: (text.toList.flatMap escape ++ ['\x22'])

def Scalar.print : Scalar → List Char
  | .boolean true => "true".toList
  | .boolean false => "false".toList
  | .number value => Nat.toDigits 10 value
  | .text value => quote value

def printEntry (entry : Entry) : List Char := quote entry.1 ++ ':' :: entry.2.print

/-- The entries after the first. -/
def printRest (entries : List Entry) : List Char :=
  entries.flatMap (fun entry => ',' :: printEntry entry) ++ ['\x7d']

def printObject : List Entry → List Char
  | [] => ['\x7b', '\x7d']
  | first :: rest => '\x7b' :: (printEntry first ++ printRest rest)

/-- The bytes of a text in UTF-8. -/
def utf8 (text : List Char) : List UInt8 := text.flatMap String.utf8EncodeChar

def objectBytes (entries : List Entry) : List UInt8 := utf8 (printObject entries)

end Printing

section Reading

/-- The first character within quotes, and what follows it. -/
def unescape : List Char → Option (Char × List Char)
  | '\x5c' :: 'u' :: '0' :: '0' :: high :: low :: rest =>
      some (Char.ofNat ("0123456789abcdef".toList.idxOf high * 16 +
        "0123456789abcdef".toList.idxOf low), rest)
  | '\x5c' :: 'b' :: rest => some ('\x08', rest)
  | '\x5c' :: 't' :: rest => some ('\x09', rest)
  | '\x5c' :: 'n' :: rest => some ('\x0a', rest)
  | '\x5c' :: 'f' :: rest => some ('\x0c', rest)
  | '\x5c' :: 'r' :: rest => some ('\x0d', rest)
  | '\x5c' :: other :: rest => some (other, rest)
  | '\x22' :: _ => none
  | other :: rest => some (other, rest)
  | [] => none

theorem unescape_control (code : Fin 32) (rest : List Char) :
    unescape (escape (Char.ofNat code.val) ++ rest) = some (Char.ofNat code.val, rest) := by
  fin_cases code <;> rfl

theorem unescape_escape (character : Char) (rest : List Char) :
    unescape (escape character ++ rest) = some (character, rest) := by
  by_cases control : character.toNat < 32
  · have read := unescape_control ⟨character.toNat, control⟩ rest
    simpa using read
  · by_cases quoted : character = '\x22'
    · subst quoted
      rfl
    · by_cases backslash : character = '\x5c'
      · subst backslash
        rfl
      · have plain : escape character = [character] := by
          unfold escape
          split <;> first | rfl | simp_all
        rw [plain]
        unfold unescape
        simp_all

/-- Quoted texts end at their closing quote. -/
theorem quoted_inj {left right leftRest rightRest : List Char}
    (same : left.flatMap escape ++ '\x22' :: leftRest =
      right.flatMap escape ++ '\x22' :: rightRest) : left = right ∧ leftRest = rightRest := by
  induction left generalizing right with
  | nil =>
      cases right with
      | nil => simpa using same
      | cons character right =>
          have read := congrArg unescape same
          simp only [List.flatMap_nil, List.nil_append, List.flatMap_cons, List.append_assoc,
            unescape_escape] at read
          cases read
  | cons character left ih =>
      have read := congrArg unescape same
      cases right with
      | nil =>
          simp only [List.flatMap_nil, List.nil_append, List.flatMap_cons, List.append_assoc,
            unescape_escape] at read
          cases read
      | cons other right =>
          simp only [List.flatMap_cons, List.append_assoc, unescape_escape, Option.some.injEq,
            Prod.mk.injEq] at read
          rcases ih read.2 with ⟨rfl, rest⟩
          exact ⟨by rw [read.1], rest⟩

theorem quote_inj {left right : String} {leftRest rightRest : List Char}
    (same : quote left ++ leftRest = quote right ++ rightRest) :
    left = right ∧ leftRest = rightRest := by
  simp only [quote, List.cons_append, List.append_assoc, List.nil_append, List.cons.injEq,
    true_and] at same
  rcases quoted_inj same with ⟨text, rest⟩
  exact ⟨String.toList_injective text, rest⟩

/-- No digit follows. -/
def Stops (rest : List Char) : Prop := ∀ character ∈ rest.head?, character.isDigit = false

theorem digits_inj {left right : Nat} {leftRest rightRest : List Char} (leftStops : Stops leftRest)
    (rightStops : Stops rightRest)
    (same : Nat.toDigits 10 left ++ leftRest = Nat.toDigits 10 right ++ rightRest) :
    left = right ∧ leftRest = rightRest := by
  have prefixOf : ∀ (value : Nat) (rest : List Char), Stops rest →
      (Nat.toDigits 10 value ++ rest).takeWhile Char.isDigit = Nat.toDigits 10 value := by
    intro value rest stops
    have digits : ∀ character ∈ Nat.toDigits 10 value, character.isDigit = true :=
      fun character characterMem =>
        Nat.isDigit_of_mem_toDigits (by decide) (by decide) characterMem
    rw [List.takeWhile_append_of_pos digits]
    cases rest with
    | nil => simp
    | cons character rest => simp [stops character rfl]
  have digits := congrArg (List.takeWhile Char.isDigit) same
  rw [prefixOf left leftRest leftStops, prefixOf right rightRest rightStops] at digits
  have values := congrArg (Nat.ofDigitChars 10 · 0) digits
  simp only [Nat.ofDigitChars_ten_toDigits] at values
  subst values
  exact ⟨rfl, List.append_cancel_left same⟩

/-- What the text of a scalar begins with. -/
def Scalar.starts : Scalar → Char → Prop
  | .boolean true, first => first = 't'
  | .boolean false, first => first = 'f'
  | .number _, first => first.isDigit = true
  | .text _, first => first = '\x22'

theorem print_cons (scalar : Scalar) :
    ∃ first tail, scalar.print = first :: tail ∧ scalar.starts first := by
  cases scalar with
  | boolean value => cases value <;> exact ⟨_, _, rfl, rfl⟩
  | text value => exact ⟨_, _, rfl, rfl⟩
  | number value =>
      cases shape : Nat.toDigits 10 value with
      | nil => exact absurd shape Nat.toDigits_ne_nil
      | cons first tail =>
          exact ⟨first, tail, shape, Nat.isDigit_of_mem_toDigits (by decide) (by decide)
            (shape ▸ List.mem_cons_self)⟩

theorem print_inj {left right : Scalar} {leftRest rightRest : List Char}
    (leftStops : Stops leftRest) (rightStops : Stops rightRest)
    (same : left.print ++ leftRest = right.print ++ rightRest) :
    left = right ∧ leftRest = rightRest := by
  rcases print_cons left with ⟨first, leftTail, leftShape, leftStarts⟩
  rcases print_cons right with ⟨other, rightTail, rightShape, rightStarts⟩
  have heads := same
  rw [leftShape, rightShape] at heads
  injection heads with head _
  subst head
  -- The first character tells the kind of the scalar.
  rcases left with (_ | _) | leftValue | leftText <;>
    rcases right with (_ | _) | rightValue | rightText <;>
    simp only [Scalar.starts] at leftStarts rightStarts <;>
    first
    | (subst leftStarts; simp at rightStarts)
    | (subst rightStarts; simp at leftStarts)
    | skip
  · exact ⟨rfl, List.append_cancel_left same⟩
  · exact ⟨rfl, List.append_cancel_left same⟩
  · rcases digits_inj leftStops rightStops same with ⟨rfl, rest⟩
    exact ⟨rfl, rest⟩
  · rcases quote_inj same with ⟨rfl, rest⟩
    exact ⟨rfl, rest⟩

theorem printEntry_inj {left right : Entry} {leftRest rightRest : List Char}
    (leftStops : Stops leftRest) (rightStops : Stops rightRest)
    (same : printEntry left ++ leftRest = printEntry right ++ rightRest) :
    left = right ∧ leftRest = rightRest := by
  simp only [printEntry, List.append_assoc, List.cons_append] at same
  rcases quote_inj same with ⟨key, values⟩
  injection values with _ values
  rcases print_inj leftStops rightStops values with ⟨value, rest⟩
  exact ⟨Prod.ext key value, rest⟩

theorem printRest_cons (entry : Entry) (entries : List Entry) :
    printRest (entry :: entries) = ',' :: (printEntry entry ++ printRest entries) := by
  simp [printRest]

theorem stops_printRest (entries : List Entry) : Stops (printRest entries) := by
  cases entries with
  | nil =>
      intro character characterMem
      cases characterMem
      rfl
  | cons entry entries =>
      intro character characterMem
      rw [printRest_cons] at characterMem
      cases characterMem
      rfl

theorem printRest_inj {left right : List Entry} (same : printRest left = printRest right) :
    left = right := by
  induction left generalizing right with
  | nil =>
      cases right with
      | nil => rfl
      | cons entry right =>
          rw [printRest_cons] at same
          simp [printRest] at same
  | cons entry left ih =>
      cases right with
      | nil =>
          rw [printRest_cons] at same
          simp [printRest] at same
      | cons other right =>
          rw [printRest_cons, printRest_cons] at same
          injection same with _ same
          rcases printEntry_inj (stops_printRest left) (stops_printRest right) same with
            ⟨rfl, rest⟩
          rw [ih rest]

theorem printObject_inj {left right : List Entry} (same : printObject left = printObject right) :
    left = right := by
  cases left with
  | nil =>
      cases right with
      | nil => rfl
      | cons entry right => simp [printObject, printEntry, quote] at same
  | cons entry left =>
      cases right with
      | nil => simp [printObject, printEntry, quote] at same
      | cons other right =>
          injection same with _ same
          rcases printEntry_inj (stops_printRest left) (stops_printRest right) same with
            ⟨rfl, rest⟩
          rw [printRest_inj rest]

theorem utf8_inj {left right : List Char} (same : utf8 left = utf8 right) : left = right := by
  have encoded : left.utf8Encode = right.utf8Encode := congrArg List.toByteArray same
  rw [← String.toByteArray_ofList, ← String.toByteArray_ofList, String.toByteArray_inj] at encoded
  exact String.ofList_injective encoded

/-- The bytes of an object name its entries. -/
theorem objectBytes_inj {left right : List Entry} (same : objectBytes left = objectBytes right) :
    left = right :=
  printObject_inj (utf8_inj same)

end Reading

section Lengths

theorem length_escape_le (character : Char) : (escape character).length ≤ 6 := by
  unfold escape
  split
  case h_8 =>
    split
    · exact Nat.le_refl 6
    · exact Nat.le_add_left 1 5
  all_goals exact Nat.le_add_left 2 4

/-- A text that is written element by element. -/
theorem length_flatMap_le {Element Result : Type*} {write : Element → List Result} {bound : Nat}
    (bounded : ∀ element, (write element).length ≤ bound) (elements : List Element) :
    (elements.flatMap write).length ≤ bound * elements.length := by
  induction elements with
  | nil => exact Nat.zero_le _
  | cons first rest ih =>
      have head := bounded first
      rw [List.flatMap_cons, List.length_append, List.length_cons, Nat.mul_succ]
      omega

theorem length_quote_le (text : String) : (quote text).length ≤ 6 * text.toList.length + 2 := by
  have inner := length_flatMap_le length_escape_le text.toList
  rw [quote, List.length_cons, List.length_append, List.length_singleton]
  omega

theorem length_utf8_le (text : List Char) : (utf8 text).length ≤ 4 * text.length := by
  refine length_flatMap_le (fun character => ?_) text
  rw [String.length_utf8EncodeChar]
  exact character.utf8Size_le_four

end Lengths

end Json
