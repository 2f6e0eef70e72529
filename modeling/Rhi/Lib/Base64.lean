import Mathlib.Tactic.Common

/-!
# Base64 without padding

The URL-safe alphabet.  The decoder is strict: it takes no padding and no bits that the encoder
would not have written, so that a byte string has one text.
-/

namespace Base64

/-- The symbols, each at the position of its six bits. -/
def alphabet : List Char :=
  "ABCDEFGHIJKLMNOPQRSTUVWXYZabcdefghijklmnopqrstuvwxyz0123456789-_".toList

def symbol (bits : Nat) : Char := alphabet.getD bits 'A'

def value (character : Char) : Option Nat := alphabet.idxOf? character

theorem value_symbol {bits : Nat} (bounded : bits < 64) : value (symbol bits) = some bits := by
  have every : ∀ bits : Fin 64, value (symbol bits) = some bits.val := by decide +kernel
  exact every ⟨bits, bounded⟩

theorem symbol_mem_alphabet {bits : Nat} (bounded : bits < 64) : symbol bits ∈ alphabet := by
  have read := value_symbol bounded
  unfold value at read
  rw [List.idxOf?, List.findIdx?_eq_some_iff_getElem] at read
  rcases read with ⟨position, same, -⟩
  rw [← beq_iff_eq.mp same]
  exact List.getElem_mem position

theorem value_eq_some {character : Char} {bits : Nat} (read : value character = some bits) :
    bits < 64 ∧ symbol bits = character := by
  unfold value at read
  rw [List.idxOf?, List.findIdx?_eq_some_iff_getElem] at read
  rcases read with ⟨bounded, same, -⟩
  refine ⟨bounded, ?_⟩
  have found : alphabet[bits]? = some character := by
    rw [List.getElem?_eq_getElem bounded]
    simpa using same
  simp [symbol, found]

/-- The bits of a byte string, six at a time. -/
def encodeSymbols : List UInt8 → List Nat
  | [] => []
  | [first] => [first.toNat / 4, first.toNat % 4 * 16]
  | [first, second] =>
      [first.toNat / 4, first.toNat % 4 * 16 + second.toNat / 16, second.toNat % 16 * 4]
  | first :: second :: third :: rest =>
      first.toNat / 4 :: (first.toNat % 4 * 16 + second.toNat / 16) ::
        (second.toNat % 16 * 4 + third.toNat / 64) :: third.toNat % 64 :: encodeSymbols rest

/-- The byte string of a text; what is left over after the last byte must be zero. -/
def decodeSymbols : List Nat → Option (List UInt8)
  | [] => some []
  | [_] => none
  | [first, second] =>
      if second % 16 = 0 then some [UInt8.ofNat (first * 4 + second / 16)] else none
  | [first, second, third] =>
      if third % 4 = 0 then
        some [UInt8.ofNat (first * 4 + second / 16), UInt8.ofNat (second % 16 * 16 + third / 4)]
      else
        none
  | first :: second :: third :: fourth :: rest => do
      let bytes ← decodeSymbols rest
      some (UInt8.ofNat (first * 4 + second / 16) :: UInt8.ofNat (second % 16 * 16 + third / 4) ::
        UInt8.ofNat (third % 4 * 64 + fourth) :: bytes)

def encode (bytes : List UInt8) : String :=
  String.ofList ((encodeSymbols bytes).map symbol)

def decode (text : String) : Option (List UInt8) := do
  decodeSymbols (← text.toList.mapM value)

theorem encodeSymbols_lt (bytes : List UInt8) : ∀ bits ∈ encodeSymbols bytes, bits < 64 := by
  fun_induction encodeSymbols bytes with
  | case1 => simp
  | case2 first =>
      have bounded := first.toNat_lt
      simp only [List.mem_cons, List.not_mem_nil, or_false]
      omega
  | case3 first second =>
      have bounded := first.toNat_lt
      have bounded' := second.toNat_lt
      simp only [List.mem_cons, List.not_mem_nil, or_false]
      omega
  | case4 first second third rest ih =>
      have bounded := first.toNat_lt
      have bounded' := second.toNat_lt
      have bounded'' := third.toNat_lt
      intro bits bitsMem
      simp only [List.mem_cons] at bitsMem
      rcases bitsMem with rfl | rfl | rfl | rfl | bitsMem
      · omega
      · omega
      · omega
      · omega
      · exact ih bits bitsMem

theorem ofNat_eq {byte : UInt8} {number : Nat} (same : number = byte.toNat) :
    UInt8.ofNat number = byte := by
  rw [same]
  simp

theorem decodeSymbols_encodeSymbols (bytes : List UInt8) :
    decodeSymbols (encodeSymbols bytes) = some bytes := by
  fun_induction encodeSymbols bytes with
  | case1 => rfl
  | case2 first =>
      have bounded := first.toNat_lt
      rw [decodeSymbols, if_pos (by omega), @ofNat_eq first _ (by omega)]
  | case3 first second =>
      have bounded := first.toNat_lt
      have bounded' := second.toNat_lt
      rw [decodeSymbols, if_pos (by omega), @ofNat_eq first _ (by omega),
        @ofNat_eq second _ (by omega)]
  | case4 first second third rest ih =>
      have bounded := first.toNat_lt
      have bounded' := second.toNat_lt
      have bounded'' := third.toNat_lt
      rw [decodeSymbols, ih, @ofNat_eq first _ (by omega), @ofNat_eq second _ (by omega),
        @ofNat_eq third _ (by omega)]
      rfl

theorem encodeSymbols_of_decodeSymbols {symbols : List Nat} {bytes : List UInt8}
    (bounded : ∀ bits ∈ symbols, bits < 64) (decoded : decodeSymbols symbols = some bytes) :
    encodeSymbols bytes = symbols := by
  fun_induction decodeSymbols symbols generalizing bytes with
  | case1 =>
      cases decoded
      rfl
  | case2 => cases decoded
  | case3 first second whole =>
      cases decoded
      have firstLt := bounded first (by simp)
      have secondLt := bounded second (by simp)
      simp only [encodeSymbols, UInt8.toNat_ofNat', List.cons.injEq, and_true]
      omega
  | case4 => cases decoded
  | case5 first second third whole =>
      cases decoded
      have firstLt := bounded first (by simp)
      have secondLt := bounded second (by simp)
      have thirdLt := bounded third (by simp)
      simp only [encodeSymbols, UInt8.toNat_ofNat', List.cons.injEq, and_true]
      omega
  | case6 => cases decoded
  | case7 first second third fourth rest ih =>
      simp only [Option.bind_eq_bind, Option.bind_eq_some_iff, Option.some.injEq] at decoded
      rcases decoded with ⟨tail, decoded, rfl⟩
      have firstLt := bounded first (by simp)
      have secondLt := bounded second (by simp)
      have thirdLt := bounded third (by simp)
      have fourthLt := bounded fourth (by simp)
      have later := ih (fun bits bitsMem => bounded bits (by simp [bitsMem])) decoded
      simp only [encodeSymbols, UInt8.toNat_ofNat', List.cons.injEq, later, and_true]
      omega

/-- The last symbol holds no bits beyond the last byte. -/
def Whole (symbols : List Nat) : Prop :=
  match symbols.length % 4 with
  | 0 => True
  | 2 => ∀ last ∈ symbols.getLast?, last % 16 = 0
  | 3 => ∀ last ∈ symbols.getLast?, last % 4 = 0
  | _ => False

theorem whole_append {first second third fourth : Nat} {rest : List Nat} :
    Whole (first :: second :: third :: fourth :: rest) ↔ Whole rest := by
  have length : (first :: second :: third :: fourth :: rest).length % 4 = rest.length % 4 := by
    simp only [List.length_cons]
    omega
  unfold Whole
  rw [length]
  cases rest with
  | nil => simp
  | cons => simp [List.getLast?_cons_cons]

theorem exists_decodeSymbols_iff {symbols : List Nat} :
    (∃ bytes, decodeSymbols symbols = some bytes) ↔ Whole symbols := by
  fun_induction decodeSymbols symbols with
  | case1 => exact ⟨fun _ => trivial, fun _ => ⟨[], rfl⟩⟩
  | case2 => exact ⟨nofun, False.elim⟩
  | case3 first second rest => simp [Whole, rest]
  | case4 first second rest => simp [Whole, rest]
  | case5 first second third rest => simp [Whole, rest]
  | case6 first second third rest => simp [Whole, rest]
  | case7 first second third fourth rest ih =>
      rw [whole_append, ← ih]
      simp only [Option.bind_eq_bind, Option.bind_eq_some_iff, Option.some.injEq]
      constructor
      · rintro ⟨_, bytes, decoded, -⟩
        exact ⟨bytes, decoded⟩
      · rintro ⟨bytes, decoded⟩
        exact ⟨_, bytes, decoded, rfl⟩

theorem mapM_value_map_symbol {symbols : List Nat} (bounded : ∀ bits ∈ symbols, bits < 64) :
    (symbols.map symbol).mapM value = some symbols := by
  induction symbols with
  | nil => rfl
  | cons bits rest ih =>
      have later := ih fun other otherMem => bounded other (by simp [otherMem])
      simp [value_symbol (bounded bits (by simp)), later]

theorem mapM_value_eq_some {characters : List Char} {symbols : List Nat}
    (read : characters.mapM value = some symbols) :
    (∀ bits ∈ symbols, bits < 64) ∧ symbols.map symbol = characters := by
  induction characters generalizing symbols with
  | nil =>
      cases read
      exact ⟨by simp, rfl⟩
  | cons character rest ih =>
      simp only [List.mapM_cons, Option.bind_eq_bind, Option.bind_eq_some_iff, Option.pure_def,
        Option.some.injEq] at read
      rcases read with ⟨bits, first, others, later, rfl⟩
      rcases value_eq_some first with ⟨bounded, same⟩
      rcases ih later with ⟨everyBounded, everySame⟩
      exact ⟨by simpa [bounded] using everyBounded, by simp [same, everySame]⟩

theorem decode_encode (bytes : List UInt8) : decode (encode bytes) = some bytes := by
  unfold decode encode
  rw [String.toList_ofList, mapM_value_map_symbol (encodeSymbols_lt bytes)]
  exact decodeSymbols_encodeSymbols bytes

/-- The decoder takes nothing but what the encoder writes. -/
theorem encode_of_decode {text : String} {bytes : List UInt8} (decoded : decode text = some bytes) :
    encode bytes = text := by
  simp only [decode, Option.bind_eq_bind, Option.bind_eq_some_iff] at decoded
  rcases decoded with ⟨symbols, read, decoded⟩
  rcases mapM_value_eq_some read with ⟨bounded, same⟩
  unfold encode
  rw [encodeSymbols_of_decodeSymbols bounded decoded, same, String.ofList_toList]

end Base64
