import Mathlib.Data.List.Sort
import Mathlib.Data.Prod.Lex

/-!
# The first row of an ordered query

An ordered query for one row answers a least one among the selected rows, and none exactly when
nothing is selected.
-/

universe u v

namespace Relational

variable {Row : Type u} {before : Row → Row → Prop}

/-- A row that is selected and comes before every other selected one. -/
structure Least (before : Row → Row → Prop) (selects : Row → Bool) (rows : List Row)
    (row : Row) : Prop where
  mem : row ∈ rows
  selected : selects row = true
  first : ∀ other ∈ rows, selects other = true → other = row ∨ before row other

/-- Rows that come before each other are one row, so there is one least row. -/
theorem Least.unique {selects : Row → Bool} {rows : List Row} {left right : Row}
    (leftLeast : Least before selects rows left) (rightLeast : Least before selects rows right)
    (antisymmetric : before left right → before right left → left = right) : left = right := by
  rcases leftLeast.first right rightLeast.mem rightLeast.selected with same | leftFirst
  · exact same.symm
  · rcases rightLeast.first left leftLeast.mem leftLeast.selected with same | rightFirst
    · exact same
    · exact antisymmetric leftFirst rightFirst

/-- An order by a key is total. -/
theorem total_of_key {Key : Type v} [LinearOrder Key] (key : Row → Key)
    (compares : ∀ left right, before left right ↔ key left ≤ key right) : Std.Total before :=
  ⟨fun left right => by
    rw [compares, compares]
    exact le_total (key left) (key right)⟩

/-- An order by a key is transitive. -/
theorem trans_of_key {Key : Type v} [LinearOrder Key] (key : Row → Key)
    (compares : ∀ left right, before left right ↔ key left ≤ key right) : IsTrans Row before :=
  ⟨fun first second third left right => by
    rw [compares] at left right ⊢
    exact left.trans right⟩

variable [DecidableRel before]

theorem head?_insertionSort_eq_none {selects : Row → Bool} {rows : List Row} :
    ((rows.filter selects).insertionSort before).head? = none ↔
      ∀ row ∈ rows, selects row = false := by
  rw [List.head?_eq_none_iff, ← List.length_eq_zero_iff, List.length_insertionSort,
    List.length_eq_zero_iff, List.filter_eq_nil_iff]
  simp

variable [Std.Total before] [IsTrans Row before]

/-- The row that an ordered query for one row answers is a least one. -/
theorem least_of_head? {selects : Row → Bool} {rows : List Row} {row : Row}
    (answered : ((rows.filter selects).insertionSort before).head? = some row) :
    Least before selects rows row := by
  have sorted := List.pairwise_insertionSort before (rows.filter selects)
  cases listed : (rows.filter selects).insertionSort before with
  | nil =>
      rw [listed] at answered
      cases answered
  | cons head rest =>
      rw [listed] at answered sorted
      cases answered
      have among : ∀ other, other ∈ row :: rest ↔ other ∈ rows ∧ selects other = true := by
        intro other
        rw [← listed, List.mem_insertionSort, List.mem_filter]
      refine ⟨((among row).mp (by simp)).1, ((among row).mp (by simp)).2, ?_⟩
      intro other otherMem selected
      rcases List.mem_cons.mp ((among other).mpr ⟨otherMem, selected⟩) with same | later
      · exact .inl same
      · exact .inr ((List.pairwise_cons.mp sorted).1 other later)

end Relational
