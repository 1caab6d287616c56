import Tabular.Proofs.Table.Groups

/-!
# Totals of numbers

A column of a group whose first text is a number adds up the numerals that follow and passes over
everything else, so a text that is no numeral might as well be missing. The numerals that denote no
finite number are the exception: no cell is read as such a number, but a total takes it in.
-/

namespace Tabular

namespace Total

def isSum : Total → Bool
  | int _ | float _ => true
  | empty | set _ => false

theorem isSum_ofText {text : String} (number : (Cell.infer text).isNumber) :
    (ofText text).isSum := by
  unfold ofText
  cases inferred : Cell.infer text with
  | int | float => rfl
  | text | set | structured =>
    rw [inferred] at number
    cases number

theorem isSum_add {total : Total} (sums : total.isSum) (text : String) :
    (total.add text).isSum := by
  cases total with
  | empty | set => cases sums
  | int sum =>
    simp only [add, addWord]
    split
    · split <;> rfl
    · split <;> rfl
  | float sum =>
    simp only [add]
    split <;> rfl

theorem isSum_foldl_add {total : Total} (sums : total.isSum) (column : Nat) (rows : List Row) :
    (rows.foldl (fun total row => total.add (Group.textAt row column)) total).isSum := by
  induction rows generalizing total with
  | nil => exact sums
  | cons row rows ih => exact ih (isSum_add sums _)

theorem add_eq_self {total : Total} (sums : total.isSum) {text : String}
    (noWord : Decimal.readWord? text.toList = none)
    (noFloat : Decimal.readFloat? text.toList = none) : total.add text = total := by
  cases total with
  | empty | set => cases sums
  | int sum => simp only [add, noWord, noFloat]
  | float sum => simp only [add, noFloat]

theorem add_empty_text {total : Total} (sums : total.isSum) : total.add "" = total :=
  add_eq_self sums rfl rfl

end Total

theorem Cell.readWord?_of_infer {s : String} (word : infer s = .text s) :
    Decimal.readWord? s.toList = none := by
  unfold infer at word
  cases read : Decimal.readWord? s.toList with
  | none => rfl
  | some n =>
    rw [read] at word
    cases word

/-- A text that is read as text is no numeral, or one that denotes no finite number. -/
theorem Cell.readFloat?_of_infer {s : String} (word : infer s = .text s)
    (finite : ∀ x ∈ Decimal.readFloat? s.toList, x.isFinite) :
    Decimal.readFloat? s.toList = none := by
  have noWord := readWord?_of_infer word
  unfold infer at word
  cases read : Decimal.readFloat? s.toList with
  | none => rfl
  | some x =>
    have known : Decimal.readFinite? s.toList = some x := by
      rw [Decimal.readFinite?, read, Option.filter_some, if_pos (finite x read)]
    rw [noWord, known] at word
    cases word

namespace Group

variable {row first : Row} {column : Nat} {cell : Cell}

theorem textAt_set_self (row : Row) (column : Nat) :
    textAt (row.set column (.text "")) column = "" := by
  unfold textAt
  rw [List.getElem?_set_self']
  cases row[column]? <;> rfl

theorem textAt_set_of_ne {other : Nat} (apart : column ≠ other) (row : Row) (cell : Cell) :
    textAt (row.set column cell) other = textAt row other := by
  rw [textAt, List.getElem?_set_ne apart, textAt]

theorem texts_set {columns : List Nat} (apart : column ∉ columns) (row : Row) (cell : Cell) :
    texts (row.set column cell) columns = texts row columns := by
  apply List.map_congr_left
  intro other member
  apply textAt_set_of_ne
  rintro rfl
  exact apart member

theorem isSum_columnTotal {rows : List Row} (opened : rows.head? = some first)
    (number : (Cell.infer (textAt first column)).isNumber) : (columnTotal rows column).isSum := by
  obtain ⟨rest, rfl⟩ := List.head?_eq_some_iff.mp opened
  unfold columnTotal
  rw [List.foldl_cons]
  exact Total.isSum_foldl_add (Total.isSum_ofText number) column rest

variable {front : List Row}

/-- In the column of the emptied cell the total is a sum before the cell comes; in the other columns
the rows have the same texts. -/
theorem columnTotal_set (opened : front.head? = some first)
    (number : (Cell.infer (textAt first column)).isNumber)
    (passes : ∀ total : Total, total.isSum → total.add (textAt row column) = total)
    (back : List Row) (other : Nat) :
    columnTotal (front ++ row.set column (.text "") :: back) other =
      columnTotal (front ++ row :: back) other := by
  have step : (columnTotal front other).add (textAt (row.set column (.text "")) other) =
      (columnTotal front other).add (textAt row other) := by
    by_cases here : column = other
    · subst here
      have sums := isSum_columnTotal opened number
      rw [textAt_set_self, Total.add_empty_text sums, passes _ sums]
    · rw [textAt_set_of_ne here]
  unfold columnTotal at step ⊢
  rw [List.foldl_append, List.foldl_append, List.foldl_cons, List.foldl_cons, step]

theorem ofRows_set (keys values : List Nat) (opened : front.head? = some first)
    (number : (Cell.infer (textAt first column)).isNumber)
    (passes : ∀ total : Total, total.isSum → total.add (textAt row column) = total)
    (back : List Row) :
    ofRows keys values (front ++ row.set column (.text "") :: back) =
      ofRows keys values (front ++ row :: back) := by
  have heads (later : List Row) : (front ++ later).head? = some first := by
    rw [List.head?_append, opened, Option.some_or]
  have totals := funext (columnTotal_set opened number passes back)
  rw [ofRows_eq, ofRows_eq, heads, heads, totals, List.length_append, List.length_append,
    List.length_cons, List.length_cons]

theorem collect_set {keys : List Nat} (values : List Nat) (apart : column ∉ keys)
    (opened : front.find? (joinedKey keys · = joinedKey keys row) = some first)
    (number : (Cell.infer (textAt first column)).isNumber)
    (passes : ∀ total : Total, total.isSum → total.add (textAt row column) = total)
    (back : List Row) :
    collect keys values (front ++ row.set column (.text "") :: back) =
      collect keys values (front ++ row :: back) := by
  have sameKey : joinedKey keys (row.set column (.text "")) = joinedKey keys row := by
    rw [joinedKey, texts_set apart, joinedKey]
  rw [collect_eq, collect_eq, List.map_append, List.map_append, List.map_cons, List.map_cons,
    sameKey]
  apply List.map_congr_left
  intro key _
  rw [List.filter_append, List.filter_append, List.filter_cons, List.filter_cons, sameKey]
  by_cases here : joinedKey keys row = key
  · subst here
    rw [← List.head?_filter] at opened
    simp only [decide_true, if_true]
    rw [ofRows_set keys values opened number passes]
  · simp only [here, decide_false, Bool.false_eq_true, if_false]

end Group

namespace Table

theorem group_congr {grouping : Grouping} {table : Table} {head : Row} {tail other : List Row}
    (rows : table.rows = head :: tail)
    (same : Group.collect (table.groupKeys grouping) (table.groupValues grouping) (head :: other) =
      Group.collect (table.groupKeys grouping) (table.groupValues grouping) (head :: tail))
    (joiner : String) :
    Table.group grouping joiner { table with rows := head :: other } =
      table.group grouping joiner := by
  obtain ⟨labels, _, keyCount, typed, explicitLabels⟩ := table
  subst rows
  simp only [groupKeys, groupValues, width, List.head?_cons, Option.map_some, Option.getD_some]
    at same
  simp only [group, same]
  rfl

/-- A cell that is no numeral counts as an empty one, if its column and group begin with a number:
the grouped table stays the same when the cell is emptied. A numeral for an infinite number, or for
none, is not meant here. -/
theorem group_set_eq_group {grouping : Grouping} {table : Table} {before after : List Row}
    {row first : Row} {column : Nat} {start cell : Cell}
    (rows : table.rows = before ++ row :: after)
    (value : column ∈ table.groupValues grouping)
    (opened : before.find? (Group.joinedKey (table.groupKeys grouping) · =
      Group.joinedKey (table.groupKeys grouping) row) = some first)
    (begun : first[column]? = some start) (number : (Cell.infer start.render).isNumber)
    (later : row[column]? = some cell) (word : Cell.infer cell.render = .text cell.render)
    (finite : ∀ x ∈ Decimal.readFloat? cell.render.toList, x.isFinite) (joiner : String) :
    Table.group grouping joiner
        { table with rows := before ++ row.set column (.text "") :: after } =
      table.group grouping joiner := by
  have apart : column ∉ table.groupKeys grouping := by
    intro member
    have noKey := (List.mem_filter.mp value).2
    simp [member] at noKey
  have firstText : Group.textAt first column = start.render := by
    rw [Group.textAt, begun]
    rfl
  have laterText : Group.textAt row column = cell.render := by
    rw [Group.textAt, later]
    rfl
  rw [← firstText] at number
  rw [← laterText] at word finite
  have passes (total : Total) (sums : total.isSum) :
      total.add (Group.textAt row column) = total :=
    Total.add_eq_self sums (Cell.readWord?_of_infer word) (Cell.readFloat?_of_infer word finite)
  have collected :=
    Group.collect_set (table.groupValues grouping) apart opened number passes after
  obtain ⟨head, between, rfl⟩ : ∃ head between, before = head :: between := by
    apply List.exists_cons_of_ne_nil
    rintro rfl
    cases opened
  exact group_congr rows collected joiner

/-- A word in a column that has gone from whole numbers to others, among rows of another group. -/
theorem group_set_eq_group_word :
    let grouping : Grouping := { keys := .ofIndices [0], counts := true }
    let row : Row := [.text "a", .text "n/a", .text "w"]
    let before : List Row := [[.text "b", .text "y"], [.text "a", .text "2", .text "v"],
      [.text "a", .text "0.5", .text "w"]]
    let after : List Row := [[.text "b"], [.text "a", .int 1]]
    let table : Table := { labels := ["k", "n", "t"], rows := before ++ row :: after }
    1 ∈ table.groupValues grouping ∧
    before.find? (Group.joinedKey (table.groupKeys grouping) · =
      Group.joinedKey (table.groupKeys grouping) row) =
        some [.text "a", .text "2", .text "v"] ∧
    Cell.infer "2" = .int 2 ∧ Cell.infer "n/a" = .text "n/a" ∧
    Decimal.readFloat? "n/a".toList = none ∧
    Table.group grouping "," { table with rows := before ++ row.set 1 (.text "") :: after } =
      table.group grouping "," := by
  intro grouping row before after table
  have value : 1 ∈ table.groupValues grouping := by decide
  have opened : before.find? (Group.joinedKey (table.groupKeys grouping) · =
      Group.joinedKey (table.groupKeys grouping) row) =
        some [.text "a", .text "2", .text "v"] := by
    rfl
  have word : Cell.infer "n/a" = .text "n/a" := by rfl
  have noFloat : Decimal.readFloat? "n/a".toList = none := by rfl
  have begun : ([.text "a", .text "2", .text "v"] : Row)[1]? = some (.text "2") := rfl
  have later : row[1]? = some (.text "n/a") := rfl
  refine ⟨value, opened, by rfl, word, noFloat, ?_⟩
  apply group_set_eq_group rfl value opened begun (by rfl) later word
  intro x read
  rw [Cell.render, noFloat] at read
  cases read

/-- The numeral of an infinite number is added, although no cell is read as such a number. -/
theorem group_adds_infinity :
    let grouping : Grouping := { keys := .ofIndices [0] }
    let table : Table :=
      { labels := [], rows := [[.text "a", .text "1"], [.text "a", .text "inf"]] }
    let emptied : Table :=
      { table with rows := [[.text "a", .text "1"], [.text "a", .text ""]] }
    Cell.infer "1" = .int 1 ∧ Cell.infer "inf" = .text "inf" ∧
    (table.group grouping ",").rows.map (·.map Cell.render) = [["a", "inf"]] ∧
    (emptied.group grouping ",").rows.map (·.map Cell.render) = [["a", "1"]] := by
  refine ⟨by rfl, by rfl, by decide +kernel, by decide +kernel⟩

end Table

end Tabular
