import Tabular.Range.Basic
import Tabular.Table.Basic

/-!
# Sorting rows

Rows are sorted by the cells in some columns, and rows that are equal there keep their order. How
two cells compare depends on the type of the left one, so the comparison is no order on all cells,
and the result is that of one particular way of merging.
-/

namespace Tabular

namespace Cell

/-- The order of two cells by the type of the left one: words as words, numbers as numbers, and
anything else by its text. What is no number on the right counts as minus one. -/
def order (left right : Cell) : Ordering :=
  match left with
  | int n => compare n.toInt ((right.word?.map Int64.toInt).getD (-1))
  | float x =>
    compare (Decimal.rank x) ((right.numeral?.map Decimal.Numeral.rank).getD (Decimal.rank (-1)))
  | left => compare left.render right.render

end Cell

/-- Which columns decide, from the first to the last, and in which direction. -/
structure Sorting where
  keys : Range
  descends : Bool := false
  deriving DecidableEq, Repr

namespace Sorting

def order (descends : Bool) (columns : List Nat) (left right : Row) : Ordering :=
  columns.foldr (fun column rest =>
    let here := Cell.order (left[column]?.getD (.text "")) (right[column]?.getD (.text ""))
    (if descends then here.swap else here).then rest) .eq

/-- Takes the elements of two lists in turn. An element of the right list comes first as long as it
is less than the next one of the left list. -/
def merge {α : Type} (order : α → α → Ordering) : List α → List α → List α
  | [], right => right
  | x :: left, right =>
    let isLess (y : α) : Bool := order y x == .lt
    right.takeWhile isLess ++ x :: merge order left (right.dropWhile isLess)

theorem merge_eq {α : Type} (order : α → α → Ordering) (left right : List α) :
    merge order left right = List.merge left right (fun x y => order y x != .lt) := by
  induction left generalizing right with
  | nil => simp [merge]
  | cons x left ih =>
    induction right with
    | nil => simp [merge, ih]
    | cons y right ihRight =>
      rw [List.cons_merge_cons]
      by_cases less : order y x = .lt
      · simp only [merge] at ihRight
        simp [merge, less, ihRight]
      · simp [merge, less, ih]

/-- Sorts each half and merges the two. The fuel bounds how often a list is halved. -/
def sortHalves {α : Type} (order : α → α → Ordering) : Nat → List α → List α
  | 0, items => items
  | fuel + 1, items =>
    if items.length ≤ 1 then items
    else
      let half := items.length / 2
      merge order (sortHalves order fuel (items.take half))
        (sortHalves order fuel (items.drop half))

def mergeSort {α : Type} (order : α → α → Ordering) (items : List α) : List α :=
  sortHalves order items.length items

def inferRow (columns : List Nat) (row : Row) : Row :=
  row.mapIdx fun column cell =>
    match cell with
    | .text s => if columns.contains column then Cell.infer s else cell
    | _ => cell

end Sorting

namespace Table

/-- Sorts the rows. The width of the first row decides which columns there are. -/
def sort (sorting : Sorting) (table : Table) : Table :=
  match table.rows with
  | [] => table
  | first :: _ =>
    let columns := sorting.keys.positionsInBounds first.length
    let rows := if table.typed then table.rows else table.rows.map (Sorting.inferRow columns)
    { table with rows := Sorting.mergeSort (Sorting.order sorting.descends columns) rows }

end Table

end Tabular
