import Mathlib.Data.List.Lex
import Mathlib.Data.String.Basic
import Mathlib.Order.Basic

/-!
# Maps as sorted lists of entries

An ordered map is the list of its entries in the order of their keys.  An insertion takes the place
of the entry of the same key, and a map is known by the set of its entries.
-/

namespace SortedEntries

universe u v

variable {Key : Type u} {Value : Type v} [LinearOrder Key]

/-- The keys are in their order, and none of them occurs twice. -/
def Sorted (entries : List (Key × Value)) : Prop :=
  entries.Pairwise fun left right => left.1 < right.1

/-- The insertion of an entry, in the place of the one with its key. -/
def insert (entry : Key × Value) : List (Key × Value) → List (Key × Value)
  | [] => [entry]
  | first :: rest =>
      if entry.1 < first.1 then entry :: first :: rest
      else if first.1 < entry.1 then first :: insert entry rest
      else entry :: rest

/-- The insertion of one entry after the other. -/
def insertAll (entries : List (Key × Value)) (added : List (Key × Value)) : List (Key × Value) :=
  added.foldl (fun map entry => insert entry map) entries

variable {entries : List (Key × Value)} {entry other : Key × Value}

theorem mem_insert_iff (sorted : Sorted entries) :
    other ∈ insert entry entries ↔ other = entry ∨ (other ∈ entries ∧ other.1 ≠ entry.1) := by
  induction entries with
  | nil => simp [insert]
  | cons first rest ih =>
      rcases List.pairwise_cons.mp sorted with ⟨below, sorted⟩
      simp only [insert]
      split
      case isTrue less =>
        have other_of_mem : ∀ present ∈ first :: rest, present.1 ≠ entry.1 := by
          intro present member
          rcases List.mem_cons.mp member with rfl | member
          · exact ne_of_gt less
          · exact ne_of_gt (lt_trans less (below present member))
        rw [List.mem_cons]
        exact or_congr_right ⟨fun member => ⟨member, other_of_mem other member⟩, And.left⟩
      case isFalse notLess =>
        split
        case isTrue greater =>
          rw [List.mem_cons, ih sorted, List.mem_cons]
          constructor
          · rintro (rfl | equal | ⟨member, differs⟩)
            · exact .inr ⟨.inl rfl, ne_of_lt greater⟩
            · exact .inl equal
            · exact .inr ⟨.inr member, differs⟩
          · rintro (equal | ⟨equal | member, differs⟩)
            · exact .inr (.inl equal)
            · exact .inl equal
            · exact .inr (.inr ⟨member, differs⟩)
        case isFalse notGreater =>
          have same : entry.1 = first.1 := le_antisymm (not_lt.mp notGreater) (not_lt.mp notLess)
          rw [List.mem_cons, List.mem_cons]
          constructor
          · rintro (equal | member)
            · exact .inl equal
            · exact .inr ⟨.inr member, same ▸ ne_of_gt (below other member)⟩
          · rintro (equal | ⟨rfl | member, differs⟩)
            · exact .inl equal
            · exact absurd same.symm differs
            · exact .inr member

theorem insert_subset : insert entry entries ⊆ entry :: entries := by
  induction entries with
  | nil => exact List.Subset.refl _
  | cons first rest ih =>
      intro present member
      simp only [insert] at member
      split at member
      · exact member
      · split at member
        · rcases List.mem_cons.mp member with rfl | later
          · exact List.mem_cons_of_mem _ List.mem_cons_self
          · exact (List.mem_cons.mp (ih later)).elim (fun same => same ▸ List.mem_cons_self)
              fun old => List.mem_cons_of_mem _ (List.mem_cons_of_mem _ old)
        · exact (List.mem_cons.mp member).elim (fun same => same ▸ List.mem_cons_self)
            fun old => List.mem_cons_of_mem _ (List.mem_cons_of_mem _ old)

theorem length_insert_le : (insert entry entries).length ≤ entries.length + 1 := by
  induction entries with
  | nil => exact le_rfl
  | cons first rest ih =>
      simp only [insert]
      split
      · exact le_rfl
      · split
        · exact Nat.succ_le_succ ih
        · exact Nat.le_succ _

theorem sorted_insert (sorted : Sorted entries) : Sorted (insert entry entries) := by
  induction entries with
  | nil => exact List.pairwise_singleton _ _
  | cons first rest ih =>
      rcases List.pairwise_cons.mp sorted with ⟨below, later⟩
      simp only [insert]
      split
      case isTrue less =>
        refine List.pairwise_cons.mpr ⟨?_, sorted⟩
        intro present member
        rcases List.mem_cons.mp member with rfl | member
        · exact less
        · exact lt_trans less (below present member)
      case isFalse notLess =>
        split
        case isTrue greater =>
          refine List.pairwise_cons.mpr ⟨?_, ih later⟩
          intro present member
          rcases (mem_insert_iff later).mp member with rfl | ⟨member, -⟩
          · exact greater
          · exact below present member
        case isFalse notGreater =>
          have same : entry.1 = first.1 := le_antisymm (not_lt.mp notGreater) (not_lt.mp notLess)
          exact List.pairwise_cons.mpr ⟨fun present member => same ▸ below present member, later⟩

theorem sorted_insertAll {added : List (Key × Value)} (sorted : Sorted entries) :
    Sorted (insertAll entries added) := by
  induction added generalizing entries with
  | nil => exact sorted
  | cons first added ih => exact ih (sorted_insert sorted)

/-- Nothing but the entries is there. -/
theorem insertAll_subset {added : List (Key × Value)} :
    insertAll entries added ⊆ entries ++ added := by
  induction added generalizing entries with
  | nil => simp [insertAll]
  | cons first added ih =>
      intro present member
      rcases List.mem_append.mp (ih member) with early | late
      · rcases List.mem_cons.mp (insert_subset early) with rfl | old
        · exact List.mem_append_right _ List.mem_cons_self
        · exact List.mem_append_left _ old
      · exact List.mem_append_right _ (List.mem_cons_of_mem _ late)

theorem length_insertAll_le {added : List (Key × Value)} :
    (insertAll entries added).length ≤ entries.length + added.length := by
  induction added generalizing entries with
  | nil => exact le_rfl
  | cons first added ih =>
      have later := @ih (insert first entries)
      have once := @length_insert_le _ _ _ entries first
      rw [List.length_cons]
      simp only [insertAll, List.foldl_cons] at later ⊢
      omega

/-- Entries whose keys name them are all kept. -/
theorem mem_insertAll_iff {added : List (Key × Value)} (sorted : Sorted entries)
    (named : ∀ first ∈ entries ++ added, ∀ second ∈ entries ++ added,
      first.1 = second.1 → first = second) :
    other ∈ insertAll entries added ↔ other ∈ entries ∨ other ∈ added := by
  induction added generalizing entries with
  | nil => simp [insertAll]
  | cons first added ih =>
      have members : ∀ present, present ∈ insert first entries ↔
          present = first ∨ present ∈ entries := by
        intro present
        rw [mem_insert_iff sorted]
        constructor
        · exact Or.imp_right And.left
        · rintro (equal | member)
          · exact .inl equal
          · by_cases same : present.1 = first.1
            · exact .inl (named present (List.mem_append_left _ member) first
                (List.mem_append_right _ List.mem_cons_self) same)
            · exact .inr ⟨member, same⟩
      have within : ∀ present, present ∈ insert first entries ++ added →
          present ∈ entries ++ first :: added := by
        intro present member
        rw [List.mem_append, members] at member
        rw [List.mem_append, List.mem_cons]
        rcases member with (equal | member) | member
        · exact .inr (.inl equal)
        · exact .inl member
        · exact .inr (.inr member)
      have later := ih (sorted_insert sorted) fun left leftMem right rightMem =>
        named left (within left leftMem) right (within right rightMem)
      rw [members] at later
      rw [List.mem_cons, ← or_assoc, @or_comm (other ∈ entries)]
      exact later

/-- A map is the set of its entries. -/
theorem eq_of_mem_iff {left right : List (Key × Value)} (leftSorted : Sorted left)
    (rightSorted : Sorted right) (same : ∀ entry, entry ∈ left ↔ entry ∈ right) : left = right := by
  have distinct : ∀ {entries : List (Key × Value)}, Sorted entries → entries.Nodup := by
    intro entries sorted
    refine sorted.imp ?_
    intro before after less equal
    exact lt_irrefl _ (equal ▸ less)
  refine ((List.perm_ext_iff_of_nodup (distinct leftSorted) (distinct rightSorted)).mpr
    same).eq_of_pairwise ?_ leftSorted rightSorted
  intro first second _ _ before after
  exact absurd (lt_trans before after) (lt_irrefl _)

end SortedEntries
