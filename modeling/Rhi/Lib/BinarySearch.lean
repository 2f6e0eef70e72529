import Mathlib.Algebra.Order.Ring.Nat
import Mathlib.Data.List.Basic
import Mathlib.Order.Defs.LinearOrder

/-!
# Binary search by a key

The window is halved until a single item is left, which is then compared.  On a list that ascends
strictly by the key, this finds exactly the item with the key that is looked for.
-/

namespace Search

universe u v

variable {Item : Type u} {Key : Type v} [LinearOrder Key] {key : Item → Key} {target : Key}

/-- Binary search over a window of so many items at most. -/
def binarySearch (key : Item → Key) (target : Key) (items : List Item) : Option Item :=
  match items with
  | [] => none
  | [item] => if key item = target then some item else none
  | first :: second :: rest =>
      let half := (rest.length + 2) / 2
      match (first :: second :: rest)[half]? with
      | none => none
      | some middle =>
          if target < key middle then
            binarySearch key target ((first :: second :: rest).take (rest.length + 2 - half))
          else
            binarySearch key target ((first :: second :: rest).drop half)
termination_by items.length
decreasing_by
  · simp only [List.length_take, List.length_cons]
    omega
  · simp only [List.length_drop, List.length_cons]
    omega

/-- On a list that ascends strictly by the key, every item is found by its key. -/
theorem binarySearch_complete {items : List Item} {item : Item}
    (ascending : items.Pairwise fun left right => key left < key right) (member : item ∈ items)
    (same : key item = target) : binarySearch key target items = some item := by
  fun_induction binarySearch key target items with
  | case1 => cases member
  | case2 only only_key =>
      rw [List.mem_singleton.mp member]
  | case3 only other =>
      rw [List.mem_singleton.mp member] at same
      exact absurd same other
  | case4 first second rest half absent =>
      rw [List.getElem?_eq_none_iff, List.length_cons, List.length_cons] at absent
      omega
  | case5 first second rest half middle read less ih =>
      -- The item lies before the middle one.
      refine ih (ascending.sublist (List.take_sublist _ _)) ?_
      rcases List.mem_iff_getElem.mp member with ⟨index, bound, rfl⟩
      rcases List.getElem?_eq_some_iff.mp read with ⟨halfBound, rfl⟩
      have before : index < half := by
        by_contra notBefore
        rcases Nat.lt_or_eq_of_le (Nat.not_lt.mp notBefore) with after | equal
        · have order := List.pairwise_iff_getElem.mp ascending half index halfBound bound after
          rw [same] at order
          exact lt_asymm order less
        · subst equal
          rw [same] at less
          exact lt_irrefl _ less
      refine List.mem_iff_getElem.mpr ⟨index, ?_, List.getElem_take⟩
      simp only [List.length_take, List.length_cons] at bound ⊢
      omega
  | case6 first second rest half middle read notLess ih =>
      refine ih (ascending.sublist (List.drop_sublist _ _)) ?_
      rcases List.mem_iff_getElem.mp member with ⟨index, bound, rfl⟩
      rcases List.getElem?_eq_some_iff.mp read with ⟨halfBound, rfl⟩
      have after : half ≤ index := by
        by_contra before
        have order := List.pairwise_iff_getElem.mp ascending index half bound halfBound
          (Nat.not_le.mp before)
        rw [same] at order
        exact notLess order
      refine List.mem_iff_getElem.mpr ⟨index - half, ?_, ?_⟩
      · simp only [List.length_drop]
        omega
      · simp only [List.getElem_drop]
        congr 1
        omega

end Search
