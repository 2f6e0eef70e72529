import Mathlib.Data.Set.Basic

/-!
# Self-delimiting encodings

An encoding is self-delimiting when a value can be told from what follows it.  Such encodings can be
put one after the other without a separator, and the whole determines every part.
-/

namespace Encoding

universe u v w

variable {Value : Type u} {Other : Type v} {Symbol : Type w}

/-- The encodings of two values are never continued to the same text. -/
def SelfDelimiting (encode : Value → List Symbol) (values : Set Value) : Prop :=
  ∀ ⦃left right⦄, left ∈ values → right ∈ values → ∀ ⦃leftRest rightRest⦄,
    encode left ++ leftRest = encode right ++ rightRest → left = right ∧ leftRest = rightRest

variable {encode : Value → List Symbol} {values : Set Value}

theorem SelfDelimiting.injOn (delimited : SelfDelimiting encode values) :
    Set.InjOn encode values := by
  intro left leftMem right rightMem same
  exact (delimited leftMem rightMem (congrArg (· ++ []) same)).1

/-- An injective encoding of fixed length is self-delimiting. -/
theorem SelfDelimiting.of_length (injective : Set.InjOn encode values)
    (length : ∀ left ∈ values, ∀ right ∈ values, (encode left).length = (encode right).length) :
    SelfDelimiting encode values := by
  intro left right leftMem rightMem leftRest rightRest same
  rcases List.append_inj same (length left leftMem right rightMem) with ⟨first, rest⟩
  exact ⟨injective leftMem rightMem first, rest⟩

/-- A self-delimiting encoding of what a value is injectively mapped to. -/
theorem SelfDelimiting.comp (delimited : SelfDelimiting encode values) {map : Other → Value}
    {others : Set Other} (maps : Set.MapsTo map others values) (injective : Set.InjOn map others) :
    SelfDelimiting (fun other => encode (map other)) others := by
  intro left right leftMem rightMem leftRest rightRest same
  rcases delimited (maps leftMem) (maps rightMem) same with ⟨mapped, rest⟩
  exact ⟨injective leftMem rightMem mapped, rest⟩

/-- As many self-delimiting encodings, one after the other. -/
theorem SelfDelimiting.flatMap (delimited : SelfDelimiting encode values)
    {lefts rights : List Value} (length : lefts.length = rights.length)
    (leftMem : ∀ left ∈ lefts, left ∈ values) (rightMem : ∀ right ∈ rights, right ∈ values)
    {leftRest rightRest : List Symbol}
    (same : lefts.flatMap encode ++ leftRest = rights.flatMap encode ++ rightRest) :
    lefts = rights ∧ leftRest = rightRest := by
  induction lefts generalizing rights with
  | nil =>
      rw [List.length_nil, eq_comm, List.length_eq_zero_iff] at length
      subst length
      exact ⟨rfl, same⟩
  | cons left lefts ih =>
      cases rights with
      | nil => cases length
      | cons right rights =>
          rw [List.flatMap_cons, List.flatMap_cons, List.append_assoc, List.append_assoc] at same
          rcases delimited (leftMem left (by simp)) (rightMem right (by simp)) same with
            ⟨rfl, later⟩
          rcases ih (by simpa using length) (fun other mem => leftMem other (by simp [mem]))
            (fun other mem => rightMem other (by simp [mem])) later with ⟨rfl, rest⟩
          exact ⟨rfl, rest⟩

/-- A list after its length. -/
theorem SelfDelimiting.counted {count : Nat → List Symbol} {lengths : Set Nat}
    (counts : SelfDelimiting count lengths) (delimited : SelfDelimiting encode values) :
    SelfDelimiting (fun list : List Value => count list.length ++ list.flatMap encode)
      {list | list.length ∈ lengths ∧ ∀ value ∈ list, value ∈ values} := by
  rintro left right ⟨leftLength, leftMem⟩ ⟨rightLength, rightMem⟩ leftRest rightRest same
  rw [List.append_assoc, List.append_assoc] at same
  rcases counts leftLength rightLength same with ⟨length, later⟩
  exact delimited.flatMap length leftMem rightMem later

/-- A value after the symbol that says that there is one. -/
theorem SelfDelimiting.optional (delimited : SelfDelimiting encode values) {some none : Symbol}
    (apart : some ≠ none) :
    SelfDelimiting (fun option : Option Value =>
        option.elim [none] fun value => some :: encode value)
      {option | ∀ value ∈ option, value ∈ values} := by
  intro left right leftMem rightMem leftRest rightRest same
  cases left with
  | none =>
      cases right with
      | none => exact ⟨rfl, by simpa using same⟩
      | some right => exact absurd (List.cons.inj same).1.symm apart
  | some left =>
      cases right with
      | none => exact absurd (List.cons.inj same).1 apart
      | some right =>
          rcases delimited (leftMem left rfl) (rightMem right rfl) (List.cons.inj same).2 with
            ⟨rfl, rest⟩
          exact ⟨rfl, rest⟩

end Encoding
