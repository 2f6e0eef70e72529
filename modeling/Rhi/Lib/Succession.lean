import Mathlib.Tactic.Common

/-!
# Successions

A list of records in which the first record names no predecessor and every later one names the
record right before it.  Appending to a succession is the only way to extend it, and a record that
no other one names is its last.
-/

universe u v

namespace Succession

variable {Record : Type u} {Key : Type v}

/-- Each record names the key of the one before it. -/
inductive Linked (key : Record → Key) (named : Record → Option Key) : List Record → Prop where
  | nil : Linked key named []
  | snoc {records : List Record} {record : Record} (before : Linked key named records)
      (next : named record = records.getLast?.map key) : Linked key named (records ++ [record])

variable {key : Record → Key} {named : Record → Option Key} {records : List Record}

/-- Two records that name nothing are the same one. -/
theorem Linked.first_unique (linked : Linked key named records) {left right : Record}
    (leftMem : left ∈ records) (rightMem : right ∈ records) (leftFirst : named left = none)
    (rightFirst : named right = none) : left = right := by
  induction linked with
  | nil => cases leftMem
  | @snoc records record before next ih =>
      have empty : named record = none → records = [] := by
        intro first
        rw [first] at next
        simpa using next.symm
      rcases List.mem_append.mp leftMem with inLeft | isLeft
      · rcases List.mem_append.mp rightMem with inRight | isRight
        · exact ih inLeft inRight
        · rw [List.mem_singleton.mp isRight] at rightFirst
          rw [empty rightFirst] at inLeft
          cases inLeft
      · rcases List.mem_append.mp rightMem with inRight | isRight
        · rw [List.mem_singleton.mp isLeft] at leftFirst
          rw [empty leftFirst] at inRight
          cases inRight
        · rw [List.mem_singleton.mp isLeft, List.mem_singleton.mp isRight]

/-- A record that names a key comes right after a record of this key. -/
theorem Linked.predecessor (linked : Linked key named records) {record : Record} {name : Key}
    (recordMem : record ∈ records) (names : named record = some name) :
    ∃ before previous after, records = before ++ previous :: record :: after ∧
      key previous = name := by
  induction linked with
  | nil => cases recordMem
  | @snoc records last before next ih =>
      rcases List.mem_append.mp recordMem with old | new
      · rcases ih old with ⟨first, previous, after, rfl, sameKey⟩
        exact ⟨first, previous, after ++ [last], by simp, sameKey⟩
      · rw [List.mem_singleton.mp new] at names ⊢
        rw [names] at next
        rcases Option.map_eq_some_iff.mp next.symm with ⟨previous, isLast, sameKey⟩
        rcases List.getLast?_eq_some_iff.mp isLast with ⟨first, rfl⟩
        exact ⟨first, previous, [], by simp, sameKey⟩

/-- A key that is named belongs to a record before the last one. -/
theorem Linked.named_mem_dropLast (linked : Linked key named records) {record : Record} {name : Key}
    (recordMem : record ∈ records) (names : named record = some name) :
    ∃ previous ∈ records.dropLast, key previous = name := by
  rcases linked.predecessor recordMem names with ⟨before, previous, after, rfl, sameKey⟩
  refine ⟨previous, ?_, sameKey⟩
  rw [List.dropLast_append_of_ne_nil (by simp), List.dropLast_cons_of_ne_nil (by simp)]
  simp

/-- Every record before the last one is named. -/
theorem Linked.named_of_mem_dropLast (linked : Linked key named records) {record : Record}
    (recordMem : record ∈ records.dropLast) :
    ∃ other ∈ records, named other = some (key record) := by
  induction linked with
  | nil => cases recordMem
  | @snoc records last before next ih =>
      rw [List.dropLast_concat] at recordMem
      rcases List.eq_nil_or_concat records with rfl | ⟨first, previous, rfl⟩
      · cases recordMem
      · rw [List.concat_eq_append] at recordMem next ih ⊢
        rcases List.mem_append.mp recordMem with early | isPrevious
        · rcases ih (by rw [List.dropLast_concat]; exact early) with ⟨other, otherMem, names⟩
          exact ⟨other, List.mem_append_left _ otherMem, names⟩
        · refine ⟨last, by simp, ?_⟩
          rw [List.mem_singleton.mp isPrevious, next]
          simp

/-- The records that no record names: the last one alone. -/
theorem Linked.filter_unnamed (linked : Linked key named records)
    (distinct : records.Pairwise fun left right => key left ≠ key right) {isNamed : Record → Bool}
    (naming : ∀ record ∈ records,
      isNamed record = true ↔ ∃ other ∈ records, named other = some (key record)) :
    records.filter (fun record => !isNamed record) = records.getLast?.toList := by
  cases linked with
  | nil => rfl
  | @snoc records last before next =>
      have lastUnnamed : isNamed last = false := by
        cases value : isNamed last with
        | false => rfl
        | true =>
            rcases (naming last (by simp)).mp value with ⟨other, otherMem, names⟩
            rcases (Linked.snoc before next).named_mem_dropLast otherMem names with
              ⟨previous, previousMem, sameKey⟩
            rw [List.dropLast_concat] at previousMem
            have apart := (List.pairwise_append.mp distinct).2.2 previous previousMem last (by simp)
            exact absurd sameKey apart
      have earlierNamed : ∀ record ∈ records, isNamed record = true := by
        intro record recordMem
        rw [naming record (List.mem_append_left _ recordMem)]
        apply (Linked.snoc before next).named_of_mem_dropLast
        rwa [List.dropLast_concat]
      rw [List.filter_append, List.filter_eq_nil_iff.mpr (by simpa using earlierNamed)]
      simp [lastUnnamed]

end Succession
