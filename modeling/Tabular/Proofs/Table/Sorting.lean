import Tabular.Table.Sort

/-!
# Merging without a decision

Where no element is less than another one, merging puts the right list behind the left one, so
sorting by no column leaves a table as it is.
-/

namespace Tabular

namespace Sorting

section

variable {α : Type} {order : α → α → Ordering}

theorem merge_eq_append (undecided : ∀ x y, order x y ≠ .lt) (left right : List α) :
    merge order left right = left ++ right := by
  induction left generalizing right with
  | nil => rfl
  | cons x left ih =>
    have none : ∀ y, (order y x == .lt) = false := fun y => beq_false_of_ne (undecided y x)
    cases right with
    | nil => simp [merge, ih]
    | cons y right => simp [merge, none, ih]

theorem sortHalves_eq_self (undecided : ∀ x y, order x y ≠ .lt) (fuel : Nat) (items : List α) :
    sortHalves order fuel items = items := by
  induction fuel generalizing items with
  | zero => rfl
  | succ fuel ih =>
    rw [sortHalves]
    split
    · rfl
    · simp only [ih, merge_eq_append undecided, List.take_append_drop]

theorem mergeSort_eq_self (undecided : ∀ x y, order x y ≠ .lt) (items : List α) :
    mergeSort order items = items :=
  sortHalves_eq_self undecided items.length items

end

def byNothing : Sorting where
  keys := .ofIndices []

@[simp] theorem positionsInBounds_byNothing (length : Nat) :
    byNothing.keys.positionsInBounds length = [] := rfl

theorem order_nil (descends : Bool) (left right : Row) :
    order descends [] left right = Ordering.eq := rfl

theorem inferRow_nil : inferRow [] = id := by
  funext row
  refine List.ext_getElem (by simp [inferRow]) fun column _ _ => ?_
  simp only [inferRow, List.getElem_mapIdx]
  split <;> simp

end Sorting

/-- Sorting by no column changes nothing, whatever the cells are. -/
theorem Table.sort_byNothing (table : Table) : table.sort .byNothing = table := by
  have rows (items : List Row) (descends : Bool) :
      Sorting.mergeSort (Sorting.order descends []) items = items :=
    Sorting.mergeSort_eq_self (fun left right => by simp [Sorting.order_nil]) items
  have inferred : table.rows.map (Sorting.inferRow []) = table.rows := by
    rw [Sorting.inferRow_nil, List.map_id]
  unfold sort
  split
  · rfl
  · dsimp only
    rw [Sorting.positionsInBounds_byNothing, inferred, ite_self, rows]

end Tabular
