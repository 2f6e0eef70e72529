import Mathlib.Data.List.Pairwise

/-!
# Relational tables with checks, guards and unique keys

A table is a list of rows together with the facts its declaration enforces: every stored row
passes the declared checks, and no two stored rows collide on a unique key.  The only ways to
build a new table are the statements below, so that a table violating its declaration cannot be
written down.

A statement that any row refuses is refused as a whole.  The condition of a check may evaluate
to *unknown* as soon as a column is null; `Ternary` is the three-valued logic of such conditions.
-/

universe u

namespace Relational

/-- Truth values of a condition over nullable columns; `none` is *unknown*. -/
abbrev Ternary := Option Bool

namespace Ternary

/-- Conjunction: one false operand decides. -/
def and : Ternary → Ternary → Ternary
  | some false, _ => some false
  | _, some false => some false
  | some true, some true => some true
  | _, _ => none

/-- Disjunction: one true operand decides. -/
def or : Ternary → Ternary → Ternary
  | some true, _ => some true
  | _, some true => some true
  | some false, some false => some false
  | _, _ => none

/-- Negation of an unknown condition is unknown. -/
def not : Ternary → Ternary :=
  Option.map Bool.not

/-- A test of one nullable column; unknown when the column is null. -/
def test {Value : Type u} (column : Option Value) (holds : Value → Bool) : Ternary :=
  column.map holds

/-- A check constraint is violated only by a false condition. -/
def admits (condition : Ternary) : Bool :=
  condition != some false

/-- A row is selected, and a guard fires, only on a true condition. -/
def fires (condition : Ternary) : Bool :=
  condition == some true

@[simp]
theorem and_some (left right : Bool) : and (some left) (some right) = some (left && right) := by
  cases left <;> cases right <;> rfl

@[simp]
theorem or_some (left right : Bool) : or (some left) (some right) = some (left || right) := by
  cases left <;> cases right <;> rfl

@[simp]
theorem not_some (value : Bool) : not (some value) = some !value := rfl

@[simp]
theorem false_and (right : Ternary) : and (some false) right = some false := by
  rcases right with _ | _ | _ <;> rfl

@[simp]
theorem and_false (left : Ternary) : and left (some false) = some false := by
  rcases left with _ | _ | _ <;> rfl

@[simp]
theorem true_and (right : Ternary) : and (some true) right = right := by
  rcases right with _ | _ | _ <;> rfl

@[simp]
theorem and_true (left : Ternary) : and left (some true) = left := by
  rcases left with _ | _ | _ <;> rfl

@[simp]
theorem true_or (right : Ternary) : or (some true) right = some true := by
  rcases right with _ | _ | _ <;> rfl

@[simp]
theorem or_true (left : Ternary) : or left (some true) = some true := by
  rcases left with _ | _ | _ <;> rfl

@[simp]
theorem false_or (right : Ternary) : or (some false) right = right := by
  rcases right with _ | _ | _ <;> rfl

@[simp]
theorem or_false (left : Ternary) : or left (some false) = left := by
  rcases left with _ | _ | _ <;> rfl

@[simp]
theorem test_some {Value : Type u} (value : Value) (holds : Value → Bool) :
    test (some value) holds = some (holds value) := rfl

@[simp]
theorem test_none {Value : Type u} (holds : Value → Bool) : test none holds = none := rfl

@[simp]
theorem admits_some (value : Bool) : admits (some value) = value := by
  cases value <;> rfl

@[simp]
theorem fires_some (value : Bool) : fires (some value) = value := by
  cases value <;> rfl

@[simp]
theorem fires_none : fires none = false := rfl

@[simp]
theorem fires_and (left right : Ternary) :
    fires (and left right) = (fires left && fires right) := by
  rcases left with _ | _ | _ <;> rcases right with _ | _ | _ <;> rfl

@[simp]
theorem fires_or (left right : Ternary) : fires (or left right) = (fires left || fires right) := by
  rcases left with _ | _ | _ <;> rcases right with _ | _ | _ <;> rfl

end Ternary

/-- Declaration of a table: the checks of a single row, the guards that run before a row is
inserted (beside the rows already stored) or rewritten, and the pairs of rows a unique key
forbids. -/
structure Schema (Row : Type u) where
  check : Row → Bool
  guardInsert : List Row → Row → Bool
  guardUpdate : Row → Row → Bool
  clash : Row → Row → Bool

/-- Stored rows, in insertion order, all of which respect the declaration. -/
structure Table {Row : Type u} (schema : Schema Row) where
  rows : List Row
  checked : ∀ row ∈ rows, schema.check row = true
  distinct : rows.Pairwise fun left right => schema.clash left right = false

/-- An update statement: the rows it selects and what it writes to them. -/
structure Change (Row : Type u) where
  selects : Row → Bool
  write : Row → Row

namespace Table

variable {Row : Type u} {schema : Schema Row}

@[ext]
theorem ext {left right : Table schema} (same : left.rows = right.rows) : left = right := by
  cases left
  cases right
  subst same
  rfl

instance [DecidableEq Row] : DecidableEq (Table schema) := fun left right =>
  decidable_of_iff (left.rows = right.rows) ⟨ext, fun same => same ▸ rfl⟩

/-- The table without rows. -/
def empty : Table schema where
  rows := []
  checked := by simp
  distinct := .nil

instance : Inhabited (Table schema) := ⟨empty⟩

/-- Insertion of one row, refused by a check, a guard or a unique key. -/
def insert (table : Table schema) (row : Row) : Option (Table schema) :=
  if accepted : schema.check row = true ∧ schema.guardInsert table.rows row = true ∧
      table.rows.all (fun stored => !schema.clash stored row) = true then
    some {
      rows := table.rows ++ [row]
      checked := by
        intro stored storedMem
        rcases List.mem_append.mp storedMem with old | new
        · exact table.checked stored old
        · rw [List.mem_singleton.mp new]
          exact accepted.1
      distinct := by
        refine List.pairwise_append.mpr ⟨table.distinct, List.pairwise_singleton _ _, ?_⟩
        intro stored storedMem new newMem
        rw [List.mem_singleton.mp newMem]
        have apart := List.all_eq_true.mp accepted.2.2 stored storedMem
        simpa using apart }
  else
    none

/-- Insertion that leaves the table alone, and reports so, when a unique key already holds. -/
def insertIfAbsent (table : Table schema) (row : Row) : Option (Table schema × Bool) :=
  if schema.check row && schema.guardInsert table.rows row &&
      table.rows.any (fun stored => schema.clash stored row) then
    some (table, false)
  else
    (table.insert row).map fun next => (next, true)

/-- What an update leaves of one row. -/
def rewrite (change : Change Row) (row : Row) : Row :=
  if change.selects row then change.write row else row

/-- Update of every selected row, with the number of rows it affected.  One refused row refuses
the statement. -/
def update (table : Table schema) (change : Change Row) : Option (Table schema × Nat) :=
  if accepted : (∀ row ∈ table.rows, change.selects row = true →
        schema.check (change.write row) = true ∧
          schema.guardUpdate row (change.write row) = true) ∧
      (table.rows.map (rewrite change)).Pairwise
        (fun left right => schema.clash left right = false) then
    some ({
      rows := table.rows.map (rewrite change)
      checked := by
        intro stored storedMem
        rcases List.mem_map.mp storedMem with ⟨row, rowMem, rfl⟩
        unfold rewrite
        split
        · rename_i selected
          exact (accepted.1 row rowMem selected).1
        · exact table.checked row rowMem
      distinct := accepted.2 }, table.rows.countP change.selects)
  else
    none

/-- Deletion of every selected row. -/
def delete (table : Table schema) (selects : Row → Bool) : Table schema where
  rows := table.rows.filter fun row => !selects row
  checked row rowMem := table.checked row (List.mem_filter.mp rowMem).1
  distinct := table.distinct.filter _

@[simp]
theorem rows_empty : (empty : Table schema).rows = [] := rfl

theorem rewrite_of_selects {change : Change Row} {row : Row}
    (selected : change.selects row = true) :
    rewrite change row = change.write row := by
  simp [rewrite, selected]

theorem rewrite_of_not_selects {change : Change Row} {row : Row}
    (skipped : change.selects row = false) : rewrite change row = row := by
  simp [rewrite, skipped]

theorem mem_delete {table : Table schema} {selects : Row → Bool} {row : Row} :
    row ∈ (table.delete selects).rows ↔ row ∈ table.rows ∧ selects row = false := by
  simp [delete]

/-- Everything a successful insertion establishes. -/
theorem insert_spec {table next : Table schema} {row : Row}
    (inserted : table.insert row = some next) :
    next.rows = table.rows ++ [row] ∧ schema.check row = true ∧
      schema.guardInsert table.rows row = true ∧
      ∀ stored ∈ table.rows, schema.clash stored row = false := by
  unfold insert at inserted
  split at inserted
  · rename_i accepted
    cases inserted
    refine ⟨rfl, accepted.1, accepted.2.1, ?_⟩
    intro stored storedMem
    simpa using List.all_eq_true.mp accepted.2.2 stored storedMem
  · cases inserted

/-- An insertion that nothing refuses succeeds. -/
theorem insert_of_accepted {table : Table schema} {row : Row} (checks : schema.check row = true)
    (guarded : schema.guardInsert table.rows row = true)
    (apart : ∀ stored ∈ table.rows, schema.clash stored row = false) :
    ∃ next, table.insert row = some next ∧ next.rows = table.rows ++ [row] := by
  have accepted : schema.check row = true ∧ schema.guardInsert table.rows row = true ∧
      table.rows.all (fun stored => !schema.clash stored row) = true := by
    refine ⟨checks, guarded, List.all_eq_true.mpr ?_⟩
    intro stored storedMem
    simp [apart stored storedMem]
  simp [insert, accepted]

/-- Everything a successful update establishes. -/
theorem update_spec {table next : Table schema} {change : Change Row} {affected : Nat}
    (updated : table.update change = some (next, affected)) :
    next.rows = table.rows.map (rewrite change) ∧ affected = table.rows.countP change.selects ∧
      ∀ row ∈ table.rows, change.selects row = true →
        schema.check (change.write row) = true ∧
          schema.guardUpdate row (change.write row) = true := by
  unfold update at updated
  split at updated
  · rename_i accepted
    cases updated
    exact ⟨rfl, rfl, accepted.1⟩
  · cases updated

/-- An update that no row refuses, and that keeps the unique keys, succeeds. -/
theorem update_of_accepted {table : Table schema} {change : Change Row}
    (accepts : ∀ row ∈ table.rows, change.selects row = true →
      schema.check (change.write row) = true ∧ schema.guardUpdate row (change.write row) = true)
    (apart : (table.rows.map (rewrite change)).Pairwise
      fun left right => schema.clash left right = false) :
    ∃ next, table.update change = some (next, table.rows.countP change.selects) ∧
      next.rows = table.rows.map (rewrite change) := by
  unfold update
  rw [dif_pos ⟨accepts, apart⟩]
  exact ⟨_, rfl, rfl⟩

/-- Either the row was appended, or a stored row held one of its keys and nothing changed. -/
theorem insertIfAbsent_spec {table next : Table schema} {row : Row} {inserted : Bool}
    (done : table.insertIfAbsent row = some (next, inserted)) :
    (inserted = true ∧ next.rows = table.rows ++ [row] ∧
        ∀ stored ∈ table.rows, schema.clash stored row = false) ∨
      (inserted = false ∧ next = table ∧
        ∃ stored ∈ table.rows, schema.clash stored row = true) := by
  unfold insertIfAbsent at done
  split at done
  · rename_i present
    simp only [Bool.and_eq_true, List.any_eq_true] at present
    cases done
    exact .inr ⟨rfl, rfl, present.2⟩
  · cases added : table.insert row with
    | none => simp [added] at done
    | some result =>
        simp only [added, Option.map_some, Option.some.injEq, Prod.mk.injEq] at done
        rcases done with ⟨rfl, rfl⟩
        rcases insert_spec added with ⟨rows, -, -, apart⟩
        exact .inl ⟨rfl, rows, apart⟩

/-- An insertion the checks accept either appends the row or finds one of its keys taken. -/
theorem insertIfAbsent_total {table : Table schema} {row : Row} (checks : schema.check row = true)
    (guarded : schema.guardInsert table.rows row = true) :
    (table.insertIfAbsent row = some (table, false) ∧
        ∃ stored ∈ table.rows, schema.clash stored row = true) ∨
      ∃ next, table.insertIfAbsent row = some (next, true) ∧ next.rows = table.rows ++ [row] := by
  unfold insertIfAbsent
  cases taken : table.rows.any fun stored => schema.clash stored row with
  | true =>
      refine .inl ⟨by simp [checks, guarded], ?_⟩
      simpa using List.any_eq_true.mp taken
  | false =>
      have apart : ∀ stored ∈ table.rows, schema.clash stored row = false := by
        intro stored storedMem
        simpa using List.any_eq_false.mp taken stored storedMem
      rcases insert_of_accepted checks guarded apart with ⟨next, inserted, rows⟩
      exact .inr ⟨next, by simp [inserted], rows⟩

/-- A stored row is not inserted again. -/
theorem insertIfAbsent_of_mem {table : Table schema} {row : Row}
    (guarded : schema.guardInsert table.rows row = true) (reflexive : schema.clash row row = true)
    (stored : row ∈ table.rows) : table.insertIfAbsent row = some (table, false) := by
  have taken : table.rows.any (fun other => schema.clash other row) = true :=
    List.any_eq_true.mpr ⟨row, stored, reflexive⟩
  simp [insertIfAbsent, table.checked row stored, guarded, taken]

/-- Every stored row that holds a key of the row is the row itself. -/
def Fits (table : Table schema) (row : Row) : Prop :=
  ∀ stored ∈ table.rows, schema.clash stored row = true → stored = row

/-- Inserting a row that fits makes it one of the rows and takes none away. -/
theorem insertIfAbsent_of_fits {table : Table schema} {row : Row} (checks : schema.check row = true)
    (guarded : schema.guardInsert table.rows row = true) (fits : table.Fits row) :
    ∃ next inserted, table.insertIfAbsent row = some (next, inserted) ∧
      (inserted = false → row ∈ table.rows) ∧
      ∀ stored, stored ∈ next.rows ↔ stored ∈ table.rows ∨ stored = row := by
  rcases insertIfAbsent_total checks guarded with ⟨kept, stored, storedMem, clashes⟩ |
    ⟨next, added, rows⟩
  · have present : row ∈ table.rows := fits stored storedMem clashes ▸ storedMem
    refine ⟨table, false, kept, fun _ => present, ?_⟩
    intro other
    refine ⟨.inl, ?_⟩
    rintro (old | rfl)
    · exact old
    · exact present
  · refine ⟨next, true, added, by simp, ?_⟩
    intro other
    rw [rows]
    simp

/-- Looking a row up by a key the update does not write finds the rewritten row. -/
theorem find?_map_rewrite {change : Change Row} {key : Row → Bool} (rows : List Row)
    (kept : ∀ row, key (change.write row) = key row) :
    (rows.map (rewrite change)).find? key = (rows.find? key).map (rewrite change) := by
  rw [List.find?_map]
  congr 1
  apply congrArg (List.find? · rows)
  funext row
  unfold rewrite
  simp only [Function.comp_apply]
  split
  · exact kept row
  · rfl

/-- Selecting rows by a key the update does not write selects the rewritten rows. -/
theorem filter_map_rewrite {change : Change Row} {key : Row → Bool} (rows : List Row)
    (kept : ∀ row, key (change.write row) = key row) :
    (rows.map (rewrite change)).filter key = (rows.filter key).map (rewrite change) := by
  rw [List.filter_map]
  congr 1
  apply List.filter_congr
  intro row rowMem
  simp only [Function.comp_apply, rewrite]
  split
  · exact kept row
  · rfl

/-- An update leaves alone the rows of a list that it does not select. -/
theorem map_rewrite_of_skipped {change : Change Row} {rows : List Row}
    (skipped : ∀ row ∈ rows, change.selects row = false) : rows.map (rewrite change) = rows := by
  rw [List.map_congr_left fun row rowMem => rewrite_of_not_selects (skipped row rowMem)]
  exact List.map_id' rows

/-- An update that selects no row writes none. -/
theorem update_of_skipped {table : Table schema} {change : Change Row}
    (skipped : ∀ row ∈ table.rows, change.selects row = false) :
    ∃ next, table.update change = some (next, 0) := by
  have accepts : ∀ row ∈ table.rows, change.selects row = true →
      schema.check (change.write row) = true ∧
      schema.guardUpdate row (change.write row) = true := by
    intro row rowMem selected
    exact absurd (selected.symm.trans (skipped row rowMem)) (by decide)
  have apart : (table.rows.map (rewrite change)).Pairwise
      fun left right => schema.clash left right = false := by
    rw [map_rewrite_of_skipped skipped]
    exact table.distinct
  rcases update_of_accepted accepts apart with ⟨next, updated, -⟩
  have none : table.rows.countP change.selects = 0 := by
    rw [List.countP_eq_zero]
    intro row rowMem
    simp [skipped row rowMem]
  rw [none] at updated
  exact ⟨next, updated⟩

/-- A query that counted one row selected one. -/
theorem exists_of_countP_eq_one {rows : List Row} {selects : Row → Bool}
    (single : (rows.countP selects == 1) = true) : ∃ row ∈ rows, selects row = true := by
  simp only [beq_iff_eq] at single
  exact List.countP_pos_iff.mp (by omega)

/-- Two stored rows that collide on a key are the same row. -/
theorem eq_of_clash {table : Table schema} {left right : Row}
    (symmetric : ∀ left right, schema.clash left right = schema.clash right left)
    (leftMem : left ∈ table.rows) (rightMem : right ∈ table.rows)
    (clashing : schema.clash left right = true) : left = right := by
  by_contra different
  have swap : Std.Symm fun left right => schema.clash left right = false :=
    ⟨fun first second apart => by rwa [symmetric]⟩
  have apart := table.distinct.forall leftMem rightMem different
  rw [clashing] at apart
  cases apart

/-- A stored row is stored once. -/
theorem count_eq_one {table : Table schema} [BEq Row] [LawfulBEq Row] {row : Row}
    (reflexive : schema.clash row row = true) (rowMem : row ∈ table.rows) :
    table.rows.count row = 1 := by
  have nodup : (table.rows.filter (· == row)).length ≤ 1 := by
    have distinct := table.distinct.filter (· == row)
    cases rows : table.rows.filter (· == row) with
    | nil => simp
    | cons first rest =>
        cases rest with
        | nil => simp
        | cons second others =>
            rw [rows] at distinct
            have members : ∀ other ∈ first :: second :: others, other = row := by
              intro other otherMem
              rw [← rows] at otherMem
              simpa using (List.mem_filter.mp otherMem).2
            have apart := (List.pairwise_cons.mp distinct).1 second (by simp)
            rw [members first (by simp), members second (by simp), reflexive] at apart
            cases apart
  have positive := List.count_pos_iff.mpr rowMem
  rw [List.count, List.countP_eq_length_filter] at positive ⊢
  omega

theorem countP_le_one {rows : List Row} {selects : Row → Bool}
    (distinct : rows.Pairwise fun left right => schema.clash left right = false)
    (keyed : ∀ left right, selects left = true → selects right = true →
      schema.clash left right = true) : rows.countP selects ≤ 1 := by
  induction rows with
  | nil => simp
  | cons row rest ih =>
      rcases List.pairwise_cons.mp distinct with ⟨apart, distinctRest⟩
      by_cases selected : selects row = true
      · have others : rest.countP selects = 0 := by
          refine List.countP_eq_zero.mpr ?_
          intro other otherMem otherSelected
          have clashing := keyed row other selected otherSelected
          rw [apart other otherMem] at clashing
          cases clashing
        simp [selected, others]
      · simpa [selected] using ih distinctRest

/-- A query by a key counts one row exactly when a stored row answers it. -/
theorem countP_eq_one_iff {table : Table schema} {selects : Row → Bool}
    (keyed : ∀ left right, selects left = true → selects right = true →
      schema.clash left right = true) :
    table.rows.countP selects = 1 ↔ ∃ row ∈ table.rows, selects row = true := by
  constructor
  · intro single
    exact exists_of_countP_eq_one (by simp [single])
  · intro present
    have atLeast : 0 < table.rows.countP selects := List.countP_pos_iff.mpr present
    have atMost := countP_le_one table.distinct keyed
    omega

/-- A statement that selects one row by its key, and writes no key, rewrites this row alone. -/
theorem update_of_single {table : Table schema} {change : Change Row} {row : Row}
    (symmetric : ∀ left right, schema.clash left right = schema.clash right left)
    (keeps : ∀ left right, schema.clash (change.write left) right = schema.clash left right)
    (keyed : ∀ left right, change.selects left = true → change.selects right = true →
      schema.clash left right = true)
    (rowMem : row ∈ table.rows) (selected : change.selects row = true)
    (accepted : schema.check (change.write row) = true ∧
      schema.guardUpdate row (change.write row) = true) :
    ∃ next, table.update change = some (next, 1) := by
  have accepts : ∀ stored ∈ table.rows, change.selects stored = true →
      schema.check (change.write stored) = true ∧
        schema.guardUpdate stored (change.write stored) = true := by
    intro stored storedMem chosen
    rw [eq_of_clash symmetric storedMem rowMem (keyed stored row chosen selected)]
    exact accepted
  have keepsRewritten : ∀ left right,
      schema.clash (rewrite change left) right = schema.clash left right := by
    intro left right
    unfold rewrite
    split
    · exact keeps left right
    · rfl
  have apart : (table.rows.map (rewrite change)).Pairwise
      fun left right => schema.clash left right = false := by
    rw [List.pairwise_map]
    refine table.distinct.imp ?_
    intro left right distinct
    rw [keepsRewritten, symmetric, keepsRewritten, symmetric]
    exact distinct
  rcases update_of_accepted accepts apart with ⟨next, updated, -⟩
  rw [(countP_eq_one_iff keyed).mpr ⟨row, rowMem, selected⟩] at updated
  exact ⟨next, updated⟩

end Table

/-- A list of rows that a statement rewrote in place and appended to. -/
def Grown {Row : Type u} (same : Row → Row → Prop) (fresh : Row → Prop) (before after : List Row) :
    Prop :=
  ∃ rewriting added, after = before.map rewriting ++ added ∧
    (∀ row ∈ before, same row (rewriting row)) ∧ ∀ row ∈ added, fresh row

namespace Grown

variable {Row : Type u} {same : Row → Row → Prop} {fresh : Row → Prop} {before after : List Row}

theorem refl (reflexive : ∀ row, same row row) (fresh : Row → Prop) (rows : List Row) :
    Grown same fresh rows rows :=
  ⟨id, [], by simp, fun row _ => reflexive row, by simp⟩

theorem of_append (reflexive : ∀ row, same row row) {added : List Row}
    (news : ∀ row ∈ added, fresh row) : Grown same fresh before (before ++ added) :=
  ⟨id, added, by simp, fun row _ => reflexive row, news⟩

theorem of_update {schema : Schema Row} {table next : Table schema} {change : Change Row}
    {affected : Nat} (updated : table.update change = some (next, affected))
    (reflexive : ∀ row, same row row)
    (frozen : ∀ old new, schema.guardUpdate old new = true → same old new) (fresh : Row → Prop) :
    Grown same fresh table.rows next.rows := by
  rcases Table.update_spec updated with ⟨rows, -, accepted⟩
  refine ⟨Table.rewrite change, [], by simpa using rows, ?_, by simp⟩
  intro row rowMem
  by_cases selected : change.selects row = true
  · rw [Table.rewrite_of_selects selected]
    exact frozen _ _ (accepted row rowMem selected).2
  · rw [Table.rewrite_of_not_selects (by simpa using selected)]
    exact reflexive row

/-- Every old row is still there, up to what a rewriting may change. -/
theorem successor (grown : Grown same fresh before after) {row : Row} (rowMem : row ∈ before) :
    ∃ next ∈ after, same row next := by
  rcases grown with ⟨rewriting, added, rfl, kept, -⟩
  exact ⟨rewriting row, List.mem_append_left _ (List.mem_map_of_mem rowMem), kept row rowMem⟩

/-- Every row is an old one, up to what a rewriting may change, or a fresh one. -/
theorem origin (grown : Grown same fresh before after) {row : Row} (rowMem : row ∈ after) :
    (∃ old ∈ before, same old row) ∨ fresh row := by
  rcases grown with ⟨rewriting, added, rfl, kept, news⟩
  rcases List.mem_append.mp rowMem with old | new
  · rcases List.mem_map.mp old with ⟨origin, originMem, rfl⟩
    exact .inl ⟨origin, originMem, kept origin originMem⟩
  · exact .inr (news row new)

/-- A count that no rewriting changes and no fresh row enters stays as it was. -/
theorem countP_eq (grown : Grown same fresh before after) {selects : Row → Bool}
    (stable : ∀ old new, same old new → selects new = selects old)
    (skipped : ∀ row, fresh row → selects row = false) :
    after.countP selects = before.countP selects := by
  rcases grown with ⟨rewriting, added, rfl, kept, news⟩
  have appended : added.countP selects = 0 := by
    refine List.countP_eq_zero.mpr ?_
    intro row rowMem
    simp [skipped row (news row rowMem)]
  rw [List.countP_append, List.countP_map, appended, Nat.add_zero]
  apply List.countP_congr
  intro row rowMem
  simp only [Function.comp_apply]
  rw [stable row (rewriting row) (kept row rowMem)]

end Grown

end Relational
