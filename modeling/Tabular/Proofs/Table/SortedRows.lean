import Tabular.Proofs.Table.Merging
import Mathlib.Data.List.Forall2
import Mathlib.Data.String.Basic

/-!
# Sorted rows

What sorting does to a table. The rows stay the same but for the key cells that are read as numbers,
and they come in another order. Where every key column holds cells of one kind, words only, numbers
only or neither, that order is lexicographic along the key columns, and rows that tie on all of them
keep their places among each other.
-/

namespace Tabular

namespace Cell

/-- The cell as a key column sorts it: text is read as a number where it is a numeral. -/
def reread : Cell → Cell
  | text s => infer s
  | cell => cell

/-- Whether a cell comes before another one of its kind: words and numbers by size, other cells by
their texts. -/
def precedes : Cell → Cell → Bool
  | int m, int n => decide (m < n)
  | float x, float y => decide (Decimal.rank x < Decimal.rank y)
  | left, right => decide (left.render < right.render)

def ties : Cell → Cell → Bool
  | int m, int n => m == n
  | float x, float y => x.toBits == y.toBits
  | left, right => left.render == right.render

def isWord : Cell → Bool
  | int _ => true
  | _ => false

def isFloat : Cell → Bool
  | float _ => true
  | _ => false

theorem isWord_iff {cell : Cell} : cell.isWord ↔ ∃ n, cell = int n := by
  cases cell <;> simp [isWord]

theorem isFloat_iff {cell : Cell} : cell.isFloat ↔ ∃ x, cell = float x := by
  cases cell <;> simp [isFloat]

/-- The order of cells of several kinds is none: each of these two comes behind the other. -/
example : (int 5).order (text "abc") = .gt ∧ (text "abc").order (int 5) = .gt := by
  decide +kernel

end Cell

theorem Decimal.rank_inj {x y : Float} : rank x = rank y ↔ x.toBits = y.toBits := by
  refine ⟨fun same => ?_, fun same => by rw [rank, rank, same]⟩
  have least := x.toBits.toNat_lt
  have most := y.toBits.toNat_lt
  refine UInt64.toNat_inj.mp ?_
  simp only [rank] at same
  split at same <;> split at same <;> omega

namespace Sorting

def keyCell (column : Nat) (row : Row) : Cell :=
  row[column]?.getD (.text "")

/-- A column that holds a word in every row, a number in every row, or neither in any row. In the
last case cells may be missing. -/
def UniformAt (rows : List Row) (column : Nat) : Prop :=
  (∀ row ∈ rows, row[column]?.any Cell.isWord) ∨
    (∀ row ∈ rows, row[column]?.any Cell.isFloat) ∨
    ∀ row ∈ rows, row[column]?.any Cell.isNumber = false

instance (rows : List Row) (column : Nat) : Decidable (UniformAt rows column) :=
  inferInstanceAs (Decidable (_ ∨ _ ∨ _))

/-- The lexicographic order of rows along some columns: at the first one where the rows do not tie,
`left` comes before `right`, or behind it if the order descends. -/
inductive Precedes (descends : Bool) : List Nat → Row → Row → Prop
  | here {column columns left right} :
      (if descends then (keyCell column right).precedes (keyCell column left)
        else (keyCell column left).precedes (keyCell column right)) →
      Precedes descends (column :: columns) left right
  | later {column columns left right} :
      (keyCell column left).ties (keyCell column right) →
      Precedes descends columns left right →
      Precedes descends (column :: columns) left right

def tiesOn (columns : List Nat) (left right : Row) : Bool :=
  columns.all fun column => (keyCell column left).ties (keyCell column right)

/-- `after` is the row `before` with the cells at some columns read as numbers. -/
def RereadAt (columns : List Nat) (before after : Row) : Prop :=
  ∀ column, after[column]? =
    before[column]?.map fun cell => if column ∈ columns then cell.reread else cell

theorem rereadAt_inferRow (columns : List Nat) (row : Row) :
    RereadAt columns row (inferRow columns row) := by
  intro column
  simp only [inferRow, List.getElem?_mapIdx]
  congr 1
  funext cell
  cases cell <;> simp [Cell.reread]

theorem rereadAt_nil (row : Row) : RereadAt [] row row := by
  intro column
  simp

section Uniform

variable {rows : List Row} {column : Nat} {columns : List Nat} {descends : Bool}

theorem keyCell_of_any {test : Cell → Bool} {row : Row} (found : row[column]?.any test) :
    test (keyCell column row) := by
  unfold keyCell
  cases here : row[column]? with
  | none => simp [here] at found
  | some cell => simpa [here] using found

theorem isNumber_keyCell {row : Row} (other : row[column]?.any Cell.isNumber = false) :
    (keyCell column row).isNumber = false := by
  unfold keyCell
  cases here : row[column]? with
  | none => rfl
  | some cell => simpa [here] using other

theorem order_of_isNumber {left : Cell} (none : left.isNumber = false) (right : Cell) :
    left.order right = compare left.render right.render ∧
      left.precedes right = decide (left.render < right.render) ∧
      left.ties right = (left.render == right.render) := by
  cases left with
  | int n => cases none
  | float x => cases none
  | text s => exact ⟨rfl, rfl, rfl⟩
  | set texts => exact ⟨rfl, rfl, rfl⟩
  | structured value => exact ⟨rfl, rfl, rfl⟩

theorem order_keyCell (uniform : UniformAt rows column) {left right : Row}
    (memberLeft : left ∈ rows) (memberRight : right ∈ rows) :
    ((keyCell column left).order (keyCell column right) = .lt ↔
        (keyCell column left).precedes (keyCell column right)) ∧
      ((keyCell column left).order (keyCell column right) = .eq ↔
        (keyCell column left).ties (keyCell column right)) := by
  rcases uniform with words | numbers | others
  · obtain ⟨m, hereLeft⟩ := Cell.isWord_iff.mp (keyCell_of_any (words left memberLeft))
    obtain ⟨n, hereRight⟩ := Cell.isWord_iff.mp (keyCell_of_any (words right memberRight))
    simp [hereLeft, hereRight, Cell.order, Cell.word?, Cell.precedes, Cell.ties, compare_lt_iff_lt,
      Int64.lt_iff_toInt_lt, Int64.toInt_inj]
  · obtain ⟨x, hereLeft⟩ := Cell.isFloat_iff.mp (keyCell_of_any (numbers left memberLeft))
    obtain ⟨y, hereRight⟩ := Cell.isFloat_iff.mp (keyCell_of_any (numbers right memberRight))
    simp [hereLeft, hereRight, Cell.order, Cell.numeral?, Decimal.Numeral.rank, Cell.precedes,
      Cell.ties, compare_lt_iff_lt, Decimal.rank_inj]
  · obtain ⟨order, precedes, ties⟩ :=
      order_of_isNumber (isNumber_keyCell (others left memberLeft)) (keyCell column right)
    rw [order, precedes, ties]
    simp [compare_lt_iff_lt]

def orderAt (descends : Bool) (column : Nat) (left right : Row) : Ordering :=
  let here := (keyCell column left).order (keyCell column right)
  if descends then here.swap else here

theorem order_cons (descends : Bool) (column : Nat) (columns : List Nat) (left right : Row) :
    order descends (column :: columns) left right =
      (orderAt descends column left right).then (order descends columns left right) := rfl

theorem transCmp_of_compare {κ : Type} [Ord κ] [Std.TransOrd κ] (key : Cell → κ)
    (keyed : ∀ left ∈ rows, ∀ right ∈ rows,
      (keyCell column left).order (keyCell column right) =
        compare (key (keyCell column left)) (key (keyCell column right))) :
    Std.TransCmp fun left right : { row // row ∈ rows } =>
      (keyCell column left.1).order (keyCell column right.1) := by
  have same : (fun left right : { row // row ∈ rows } =>
        (keyCell column left.1).order (keyCell column right.1)) =
      compareOn fun row => key (keyCell column row.1) := by
    funext left right
    exact keyed left.1 left.2 right.1 right.2
  rw [same]
  infer_instance

theorem transCmp_keyCell (uniform : UniformAt rows column) :
    Std.TransCmp fun left right : { row // row ∈ rows } =>
      (keyCell column left.1).order (keyCell column right.1) := by
  rcases uniform with words | numbers | others
  · refine transCmp_of_compare (fun cell => (cell.word?.map Int64.toInt).getD 0) ?_
    intro left memberLeft right memberRight
    obtain ⟨m, hereLeft⟩ := Cell.isWord_iff.mp (keyCell_of_any (words left memberLeft))
    obtain ⟨n, hereRight⟩ := Cell.isWord_iff.mp (keyCell_of_any (words right memberRight))
    rw [hereLeft, hereRight]
    rfl
  · refine transCmp_of_compare (fun cell => (cell.numeral?.map Decimal.Numeral.rank).getD 0) ?_
    intro left memberLeft right memberRight
    obtain ⟨x, hereLeft⟩ := Cell.isFloat_iff.mp (keyCell_of_any (numbers left memberLeft))
    obtain ⟨y, hereRight⟩ := Cell.isFloat_iff.mp (keyCell_of_any (numbers right memberRight))
    simp [hereLeft, hereRight, Cell.order, Cell.numeral?, Decimal.Numeral.rank]
  · refine transCmp_of_compare Cell.render ?_
    intro left memberLeft right _
    exact (order_of_isNumber (isNumber_keyCell (others left memberLeft)) _).1

theorem transCmp_orderAt (descends : Bool) (uniform : UniformAt rows column) :
    Std.TransCmp fun left right : { row // row ∈ rows } =>
      orderAt descends column left.1 right.1 := by
  have ascending := transCmp_keyCell uniform
  cases descends with
  | false => exact ascending
  | true =>
    have swapped : (fun left right : { row // row ∈ rows } => orderAt true column left.1 right.1) =
        fun left right => (keyCell column right.1).order (keyCell column left.1) := by
      funext left right
      exact (ascending.eq_swap (a := right)).symm
    rw [swapped]
    exact Std.TransCmp.opposite

/-- Rows whose key columns are each of one kind are in a total preorder. -/
theorem transCmp_order (descends : Bool) (uniform : ∀ column ∈ columns, UniformAt rows column) :
    Std.TransCmp fun left right : { row // row ∈ rows } =>
      order descends columns left.1 right.1 := by
  induction columns with
  | nil => exact { eq_swap := rfl, isLE_trans := fun _ _ => rfl }
  | cons column columns ih =>
    have first := transCmp_orderAt descends (uniform column List.mem_cons_self)
    have rest := ih fun other member => uniform other (List.mem_cons_of_mem _ member)
    exact inferInstanceAs (Std.TransCmp (compareLex
      (fun left right : { row // row ∈ rows } => orderAt descends column left.1 right.1)
      fun left right : { row // row ∈ rows } => order descends columns left.1 right.1))

theorem orderAt_eq_iff (descends : Bool) (uniform : UniformAt rows column) {left right : Row}
    (memberLeft : left ∈ rows) (memberRight : right ∈ rows) :
    orderAt descends column left right = .eq ↔
      (keyCell column left).ties (keyCell column right) := by
  rw [← (order_keyCell uniform memberLeft memberRight).2]
  cases descends <;> simp [orderAt]

theorem precedes_of_orderAt (uniform : UniformAt rows column) {left right : Row}
    (memberLeft : left ∈ rows) (memberRight : right ∈ rows)
    (less : orderAt descends column left right = .lt) :
    if descends then (keyCell column right).precedes (keyCell column left)
      else (keyCell column left).precedes (keyCell column right) := by
  cases descends with
  | false => exact (order_keyCell uniform memberLeft memberRight).1.mp less
  | true =>
    refine (order_keyCell uniform memberRight memberLeft).1.mp ?_
    have swap := (transCmp_keyCell uniform).eq_swap (a := ⟨right, memberRight⟩)
      (b := ⟨left, memberLeft⟩)
    exact swap.trans less

theorem order_eq_iff (descends : Bool) (uniform : ∀ column ∈ columns, UniformAt rows column)
    {left right : Row} (memberLeft : left ∈ rows) (memberRight : right ∈ rows) :
    order descends columns left right = .eq ↔ tiesOn columns left right := by
  induction columns with
  | nil => simp [order, tiesOn]
  | cons column columns ih =>
    have first := orderAt_eq_iff descends (uniform column List.mem_cons_self) memberLeft memberRight
    have rest := ih fun other member => uniform other (List.mem_cons_of_mem _ member)
    rw [order_cons, Ordering.then_eq_eq, first, rest]
    simp [tiesOn]

theorem precedes_of_order (uniform : ∀ column ∈ columns, UniformAt rows column)
    {left right : Row} (memberLeft : left ∈ rows) (memberRight : right ∈ rows)
    (less : order descends columns left right = .lt) :
    Precedes descends columns left right := by
  induction columns with
  | nil => cases less
  | cons column columns ih =>
    have here := uniform column List.mem_cons_self
    rw [order_cons, Ordering.then_eq_lt] at less
    rcases less with first | ⟨tie, rest⟩
    · exact .here (precedes_of_orderAt here memberLeft memberRight first)
    · refine .later ((orderAt_eq_iff descends here memberLeft memberRight).mp tie) ?_
      exact ih (fun other member => uniform other (List.mem_cons_of_mem _ member)) rest

end Uniform

section Rows

variable {rows : List Row} {columns : List Nat}

theorem mergeSort_order_eq (descends : Bool) (columns : List Nat) (rows : List Row) :
    mergeSort (order descends columns) rows =
      (mergeSort (fun left right : { row // row ∈ rows } => order descends columns left.1 right.1)
        rows.attach).map Subtype.val := by
  rw [← mergeSort_map, List.attach_map_subtype_val]

theorem pairwise_mergeSort_order (descends : Bool)
    (uniform : ∀ column ∈ columns, UniformAt rows column) :
    (mergeSort (order descends columns) rows).Pairwise fun left right =>
      Precedes descends columns left right ∨ tiesOn columns left right := by
  have preorder := transCmp_order descends uniform
  rw [mergeSort_order_eq, List.pairwise_map]
  refine (pairwise_mergeSort rows.attach).imp fun {left right} le => ?_
  rcases Ordering.isLE_iff_eq_lt_or_eq_eq.mp le with less | tie
  · exact .inl (precedes_of_order uniform left.2 right.2 less)
  · exact .inr ((order_eq_iff descends uniform left.2 right.2).mp tie)

/-- Rows that tie keep their order, in both directions of sorting. -/
theorem filter_mergeSort_order (descends : Bool)
    (uniform : ∀ column ∈ columns, UniformAt rows column) {row : Row} (member : row ∈ rows) :
    (mergeSort (order descends columns) rows).filter (tiesOn columns row) =
      rows.filter (tiesOn columns row) := by
  have preorder := transCmp_order descends uniform
  have same : tiesOn columns row ∘ Subtype.val =
      fun other : { row // row ∈ rows } => order descends columns row other.1 == .eq := by
    funext other
    have iff := order_eq_iff descends uniform member other.2
    cases tie : tiesOn columns row other.1 <;> simp_all
  have stable := @filter_mergeSort _
    (fun left right : { row // row ∈ rows } => order descends columns left.1 right.1) preorder
    ⟨row, member⟩ rows.attach
  rw [mergeSort_order_eq, List.filter_map, same, stable, ← same, ← List.filter_map,
    List.attach_map_subtype_val]

end Rows

end Sorting

namespace Table

/-- The key columns, among those of the first row. -/
def sortColumns (sorting : Sorting) (table : Table) : List Nat :=
  sorting.keys.positionsInBounds table.width

/-- The rows as they are compared: unless the cells carry their types already, text in the key
columns is read as numbers. -/
def comparedRows (sorting : Sorting) (table : Table) : List Row :=
  if table.typed then table.rows
  else table.rows.map (Sorting.inferRow (table.sortColumns sorting))

theorem sort_eq (sorting : Sorting) (table : Table) :
    table.sort sorting =
      { table with
        rows := Sorting.mergeSort (Sorting.order sorting.descends (table.sortColumns sorting))
          (table.comparedRows sorting) } := by
  obtain ⟨labels, rows, keyCount, typed, explicitLabels⟩ := table
  cases rows with
  | nil => cases typed <;> rfl
  | cons first rows => rfl

theorem forall₂_rereadAt_comparedRows (sorting : Sorting) (table : Table) :
    List.Forall₂ (Sorting.RereadAt (if table.typed then [] else table.sortColumns sorting))
      table.rows (table.comparedRows sorting) := by
  unfold comparedRows
  split
  · exact List.forall₂_same.mpr fun row _ => Sorting.rereadAt_nil row
  · rw [List.forall₂_map_right_iff]
    exact List.forall₂_same.mpr fun row _ => Sorting.rereadAt_inferRow _ row

/-- Sorting moves the rows of a table, with the text in key columns read as numbers where it is some
and the cells do not carry their types; nothing else changes, whatever the cells are. Where each key
column then holds cells of one kind, the rows stand in the lexicographic order of the key columns,
and rows that tie on all of them stand in the order that they had. -/
theorem sort_perm_and_sorted (sorting : Sorting) (table : Table) :
    table.sort sorting = { table with rows := (table.sort sorting).rows } ∧
      (table.sort sorting).rows.Perm (table.comparedRows sorting) ∧
      List.Forall₂ (Sorting.RereadAt (if table.typed then [] else table.sortColumns sorting))
        table.rows (table.comparedRows sorting) ∧
      ((∀ column ∈ table.sortColumns sorting,
          Sorting.UniformAt (table.comparedRows sorting) column) →
        ((table.sort sorting).rows.Pairwise fun left right =>
          Sorting.Precedes sorting.descends (table.sortColumns sorting) left right ∨
            Sorting.tiesOn (table.sortColumns sorting) left right) ∧
        ∀ row ∈ table.comparedRows sorting,
          (table.sort sorting).rows.filter (Sorting.tiesOn (table.sortColumns sorting) row) =
            (table.comparedRows sorting).filter
              (Sorting.tiesOn (table.sortColumns sorting) row)) := by
  have sorted := sort_eq sorting table
  have rows : (table.sort sorting).rows =
      Sorting.mergeSort (Sorting.order sorting.descends (table.sortColumns sorting))
        (table.comparedRows sorting) := by
    rw [sorted]
  refine ⟨by rw [rows, sorted], ?_, forall₂_rereadAt_comparedRows sorting table, ?_⟩
  · rw [rows]
    exact Sorting.mergeSort_perm _ _
  · intro uniform
    rw [rows]
    exact ⟨Sorting.pairwise_mergeSort_order sorting.descends uniform,
      fun row member => Sorting.filter_mergeSort_order sorting.descends uniform member⟩

/-- Key columns of all three kinds, with cells missing in the last one, in descending order. -/
theorem sort_perm_and_sorted_ragged :
    let sorting : Sorting := ⟨.ofIndices [1, -2, 3], true⟩
    let table : Table := ⟨[], [[.text "p", .text "10", .text "0.5", .text "x"],
      [.text "q", .text "9", .text "1.5"], [.text "r", .text "10", .text "0.5"],
      [.text "s", .text "10", .text "0.5", .text "x"]], 0, false, false⟩
    (∀ column ∈ table.sortColumns sorting,
      Sorting.UniformAt (table.comparedRows sorting) column) ∧
    (table.sort sorting).rows.map (·.map Cell.render) =
      [["p", "10", "0.50", "x"], ["s", "10", "0.50", "x"], ["r", "10", "0.50"],
        ["q", "9", "1.50"]] ∧
    ((table.sort sorting).rows.Pairwise fun left right =>
      Sorting.Precedes true [1, 2, 3] left right ∨ Sorting.tiesOn [1, 2, 3] left right) ∧
    ∀ row ∈ (table.comparedRows sorting).head?,
      ((table.sort sorting).rows.filter (Sorting.tiesOn [1, 2, 3] row)).map (·.map Cell.render) =
        [["p", "10", "0.50", "x"], ["s", "10", "0.50", "x"]] := by
  intro sorting table
  have uniform : ∀ column ∈ table.sortColumns sorting,
      Sorting.UniformAt (table.comparedRows sorting) column := by
    decide +kernel
  have order : (table.sort sorting).rows.map (·.map Cell.render) =
      [["p", "10", "0.50", "x"], ["s", "10", "0.50", "x"], ["r", "10", "0.50"],
        ["q", "9", "1.50"]] := by
    decide +kernel
  have ties : ∀ row ∈ (table.comparedRows sorting).head?,
      ((table.comparedRows sorting).filter (Sorting.tiesOn [1, 2, 3] row)).map (·.map Cell.render) =
        [["p", "10", "0.50", "x"], ["s", "10", "0.50", "x"]] := by
    decide +kernel
  obtain ⟨sorted, stable⟩ := (sort_perm_and_sorted sorting table).2.2.2 uniform
  refine ⟨uniform, order, sorted, fun row first => ?_⟩
  exact (congrArg _ (stable row (List.mem_of_mem_head? first))).trans (ties row first)

end Table

end Tabular
