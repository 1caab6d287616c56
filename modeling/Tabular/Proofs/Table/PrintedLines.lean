import Tabular.Table.Layout
import Tabular.Proofs.Text.Pieces
import Mathlib.Algebra.GroupWithZero.Nat
import Mathlib.Data.List.Basic

/-!
# The lines of a table in columns

Every line of a table is written from one text for each column, and each text is filled up to the
width of its column. So all lines are as wide as the columns together, unless a text breaks its
line: a table prints its texts as they are, line feeds included.
-/

namespace Tabular

namespace Layout

theorem foldl_max_le_iff {α : Type} (size : α → Nat) {items : List α} {start bound : Nat} :
    items.foldl (fun n item => max n (size item)) start ≤ bound ↔
      start ≤ bound ∧ ∀ item ∈ items, size item ≤ bound := by
  induction items generalizing start with
  | nil => simp
  | cons item items ih => rw [List.foldl_cons, ih, Nat.max_le, List.forall_mem_cons, and_assoc]

theorem widest_le_iff {lines : List String} {bound : Nat} :
    widest lines ≤ bound ↔ ∀ line ∈ lines, line.length ≤ bound := by
  simp [widest, foldl_max_le_iff]

theorem length_le_widest {lines : List String} {line : String} (member : line ∈ lines) :
    line.length ≤ widest lines :=
  widest_le_iff.mp (Nat.le_refl _) line member

def columns (labels : Option (List String)) (rows : List Row) : Nat :=
  columnCount labels (rows.map (·.map cellLines))

def linesAt (row : Row) (column : Nat) : List String :=
  (row[column]?.map cellLines).getD []

def columnTexts (labels : Option (List String)) (rows : List Row) (column : Nat) : List String :=
  (labels.bind (·[column]?)).toList ++ rows.flatMap (linesAt · column)

def shownTexts (labels : Option (List String)) (rows : List Row) : List String :=
  labels.getD [] ++ rows.flatMap (·.flatMap cellLines)

/-- The width that a column takes: four more than its widest text. -/
def widthAt (labels : Option (List String)) (rows : List Row) (column : Nat) : Nat :=
  widest (columnTexts labels rows column) + 4

def widths (labels : Option (List String)) (rows : List Row) : List Nat :=
  (List.range (columns labels rows)).map (widthAt labels rows)

/-- The lines that a row takes: as many as its highest cell, and one at least. -/
def rowHeight (row : Row) : Nat :=
  (row.map fun cell => (cellLines cell).length).foldr max 1

/-- The text of a row on one of its lines, column by column; it is empty where the row has no cell
or the cell has no more lines. -/
def rowText (row : Row) (line column : Nat) : String :=
  (linesAt row column)[line]?.getD ""

def lineTexts (labels : Option (List String)) (rows : List Row) : List (Nat → String) :=
  (labels.toList.map fun labels column => labels[column]?.getD "") ++
    rows.flatMap fun row => (List.range (rowHeight row)).map (rowText row)

def filledTexts (labels : Option (List String)) (rows : List Row) (texts : Nat → String) :
    List String :=
  (List.range (columns labels rows)).map fun column =>
    padRight (widthAt labels rows column) (texts column)

/-- The lines of a table as they are printed, without their line feeds. -/
def printedLines (labels : Option (List String)) (rows : List Row) : List String :=
  (Text.splitAtChar '\n' (write labels rows)).dropLast

/-- No label and no line of a cell breaks its line. -/
def Unbroken (labels : Option (List String)) (rows : List Row) : Prop :=
  ∀ text ∈ shownTexts labels rows, '\n' ∉ text.toList

instance (labels : Option (List String)) (rows : List Row) : Decidable (Unbroken labels rows) :=
  inferInstanceAs (Decidable (∀ text ∈ _, _))

section

variable {labels : Option (List String)} {rows : List Row}

theorem mem_linesAt_iff {row : Row} {column : Nat} {text : String} :
    text ∈ linesAt row column ↔ ∃ cell, row[column]? = some cell ∧ text ∈ cellLines cell := by
  rw [linesAt]
  cases row[column]? <;> simp

theorem bind_lines_eq (row : Row) (line column : Nat) :
    ((row[column]?.map cellLines).bind (·[line]?)).getD "" = rowText row line column := by
  rw [rowText, linesAt]
  cases row[column]? <;> rfl

theorem columns_le_iff {bound : Nat} :
    columns labels rows ≤ bound ↔
      (labels.getD []).length ≤ bound ∧ ∀ row ∈ rows, row.length ≤ bound := by
  rw [columns, columnCount, foldl_max_le_iff]
  cases labels <;> simp

theorem columnWidth_eq (labels : Option (List String)) (rows : List Row) (column : Nat) :
    columnWidth labels (rows.map (·.map cellLines)) column =
      widest (columnTexts labels rows column) := by
  refine eq_of_forall_ge_iff fun bound => ?_
  have label : ((labels.bind (·[column]?)).map String.length).getD 0 ≤ bound ↔
      ∀ text ∈ (labels.bind (·[column]?)).toList, text.length ≤ bound := by
    cases labels.bind (·[column]?) <;> simp
  have cells (row : Row) : widest (((row.map cellLines)[column]?).getD []) ≤ bound ↔
      ∀ text ∈ linesAt row column, text.length ≤ bound := by
    rw [widest_le_iff, List.getElem?_map, linesAt]
  rw [columnWidth, foldl_max_le_iff, widest_le_iff, columnTexts, List.forall_mem_append, label,
    List.forall_mem_map, List.forall_mem_flatMap]
  simp only [cells]

theorem height_eq (row : Row) : height (row.map cellLines) = rowHeight row := by
  refine eq_of_forall_ge_iff fun bound => ?_
  rw [height, foldl_max_le_iff, rowHeight]
  induction row with
  | nil => simp
  | cons cell row ih =>
    rw [List.map_cons, List.map_cons, List.foldr_cons, Nat.max_le, ← ih, List.forall_mem_cons]
    exact and_left_comm

theorem writeBlock_eq (widths : List Nat) (row : Row) :
    writeBlock widths (row.map cellLines) =
      String.join (((List.range (rowHeight row)).map (rowText row)).map fun texts =>
        writeLine widths ((List.range widths.length).map texts)) := by
  rw [writeBlock, height_eq, List.map_map]
  simp only [List.getElem?_map, bind_lines_eq]
  rfl

theorem writeBlocks_eq (widths : List Nat) (rows : List Row) :
    String.join ((rows.map (·.map cellLines)).map (writeBlock widths)) =
      String.join ((rows.flatMap fun row => (List.range (rowHeight row)).map (rowText row)).map
        fun texts => writeLine widths ((List.range widths.length).map texts)) := by
  induction rows with
  | nil => rfl
  | cons row rows ih =>
    rw [List.map_cons, List.map_cons, String.join_cons, ih, writeBlock_eq, List.flatMap_cons,
      List.map_append, String.join_append]

theorem write_eq (labels : Option (List String)) (rows : List Row) :
    write labels rows =
      String.join ((lineTexts labels rows).map fun texts =>
        String.join (filledTexts labels rows texts) ++ "\n") := by
  generalize known : (List.range (columns labels rows)).map
    (columnWidth labels (rows.map (·.map cellLines))) = widths
  have line (texts : Nat → String) :
      writeLine widths ((List.range widths.length).map texts) =
        String.join (filledTexts labels rows texts) ++ "\n" := by
    rw [← known, List.length_map, List.length_range, writeLine, List.zipWith_map,
      List.zipWith_self]
    simp only [columnWidth_eq]
    rfl
  have header : write labels rows =
      String.join ((labels.toList.map fun labels column => labels[column]?.getD "").map
        fun texts => writeLine widths ((List.range widths.length).map texts)) ++
      String.join ((rows.map (·.map cellLines)).map (writeBlock widths)) := by
    rw [← known]
    cases labels <;> simp [write, columns]
  rw [header, writeBlocks_eq, ← String.join_append, ← List.map_append]
  simp only [line]
  rfl

theorem rowText_mem_lineTexts {row : Row} (known : row ∈ rows) {line : Nat}
    (high : line < rowHeight row) : rowText row line ∈ lineTexts labels rows :=
  List.mem_append_right _ (List.mem_flatMap.mpr
    ⟨row, known, List.mem_map_of_mem (List.mem_range.mpr high)⟩)

theorem text_eq_empty_or_mem {texts : Nat → String} (line : texts ∈ lineTexts labels rows)
    (column : Nat) : texts column = "" ∨ texts column ∈ columnTexts labels rows column := by
  rw [columnTexts, List.mem_append, List.mem_flatMap]
  rcases List.mem_append.mp line with header | body
  · obtain ⟨names, given, rfl⟩ := List.mem_map.mp header
    obtain rfl := Option.mem_toList.mp given
    cases here : names[column]? with
    | none => exact .inl (by simp [here])
    | some label => exact .inr (.inl (by simp [here]))
  · obtain ⟨row, known, inRow⟩ := List.mem_flatMap.mp body
    obtain ⟨i, -, rfl⟩ := List.mem_map.mp inRow
    cases here : (linesAt row column)[i]? with
    | none => exact .inl (by simp [rowText, here])
    | some text =>
      refine .inr (.inr ⟨row, known, ?_⟩)
      simpa [rowText, here] using List.mem_of_getElem? here

theorem length_text_le {texts : Nat → String} (line : texts ∈ lineTexts labels rows)
    (column : Nat) : (texts column).length ≤ widest (columnTexts labels rows column) := by
  rcases text_eq_empty_or_mem line column with missing | member
  · rw [missing]
    exact Nat.zero_le _
  · exact length_le_widest member

theorem mem_shownTexts_of_mem_columnTexts {column : Nat} {text : String}
    (member : text ∈ columnTexts labels rows column) : text ∈ shownTexts labels rows := by
  rw [shownTexts, List.mem_append]
  rcases List.mem_append.mp member with label | line
  · obtain ⟨names, rfl, here⟩ := Option.bind_eq_some_iff.mp (Option.mem_toList.mp label)
    exact .inl (List.mem_of_getElem? here)
  · obtain ⟨row, known, inCell⟩ := List.mem_flatMap.mp line
    obtain ⟨cell, here, inside⟩ := mem_linesAt_iff.mp inCell
    exact .inr (List.mem_flatMap.mpr ⟨row, known, List.mem_flatMap.mpr
      ⟨cell, List.mem_of_getElem? here, inside⟩⟩)

theorem length_cellLines_le_rowHeight {row : Row} {cell : Cell} (member : cell ∈ row) :
    (cellLines cell).length ≤ rowHeight row := by
  have bound := Nat.le_refl (height (row.map cellLines))
  rw [height, foldl_max_le_iff] at bound
  rw [← height_eq]
  exact bound.2 _ (List.mem_map_of_mem member)

theorem exists_line_of_mem {text : String} (member : text ∈ shownTexts labels rows) :
    ∃ texts ∈ lineTexts labels rows, ∃ column < columns labels rows, texts column = text := by
  obtain ⟨labelCount, cellCount⟩ := columns_le_iff.mp (Nat.le_refl (columns labels rows))
  rcases List.mem_append.mp member with label | inRow
  · cases labels with
    | none => simp at label
    | some names =>
      obtain ⟨column, inside, rfl⟩ := List.getElem_of_mem label
      refine ⟨_, List.mem_append_left _ List.mem_cons_self, column, ?_, ?_⟩
      · exact Nat.lt_of_lt_of_le inside labelCount
      · have named : column < names.length := inside
        simp [named]
  · obtain ⟨row, known, inCell⟩ := List.mem_flatMap.mp inRow
    obtain ⟨cell, inside, line⟩ := List.mem_flatMap.mp inCell
    obtain ⟨i, lower, rfl⟩ := List.getElem_of_mem line
    have high : i < rowHeight row :=
      Nat.lt_of_lt_of_le lower (length_cellLines_le_rowHeight inside)
    obtain ⟨column, narrow, rfl⟩ := List.getElem_of_mem inside
    refine ⟨rowText row i, rowText_mem_lineTexts known high, column, ?_, ?_⟩
    · exact Nat.lt_of_lt_of_le narrow (cellCount row known)
    · simp [rowText, linesAt, narrow, lower]

theorem unbroken_iff :
    Unbroken labels rows ↔
      ∀ texts ∈ lineTexts labels rows, ∀ column < columns labels rows,
        '\n' ∉ (texts column).toList := by
  constructor
  · intro unbroken texts line column _
    rcases text_eq_empty_or_mem line column with missing | member
    · simp [missing]
    · exact unbroken _ (mem_shownTexts_of_mem_columnTexts member)
  · intro whole text member
    obtain ⟨texts, line, column, inside, rfl⟩ := exists_line_of_mem member
    exact whole texts line column inside

theorem length_padRight {width : Nat} {text : String} (fits : text.length ≤ width) :
    (padRight width text).length = width := by
  rw [padRight, String.length_ofList, List.length_append, List.length_replicate,
    String.length_toList]
  omega

/-- Every line is as wide as all columns together, counting the line feeds inside of texts. -/
theorem length_join_filledTexts {texts : Nat → String} (line : texts ∈ lineTexts labels rows) :
    (String.join (filledTexts labels rows texts)).length = (widths labels rows).sum := by
  rw [String.length_join, filledTexts, widths, List.map_map]
  refine congrArg List.sum (List.map_congr_left fun column _ => ?_)
  exact length_padRight (Nat.le_add_right_of_le (length_text_le line column))

theorem feed_mem_join_filledTexts_iff {texts : Nat → String} :
    '\n' ∈ (String.join (filledTexts labels rows texts)).toList ↔
      ∃ column < columns labels rows, '\n' ∈ (texts column).toList := by
  simp [filledTexts, padRight]

theorem printedLines_eq (labels : Option (List String)) (rows : List Row) :
    printedLines labels rows =
      (lineTexts labels rows).flatMap fun texts =>
        Text.splitAtChar '\n' (String.join (filledTexts labels rows texts)) := by
  have ended := Text.splitAtChar_join_ended '\n'
    ((lineTexts labels rows).map fun texts => String.join (filledTexts labels rows texts))
  rw [List.map_map] at ended
  rw [printedLines, write_eq]
  refine (congrArg List.dropLast ended).trans ?_
  rw [List.dropLast_concat, List.flatMap_map]

theorem printedLines_of_unbroken (unbroken : Unbroken labels rows) :
    printedLines labels rows =
      (lineTexts labels rows).map fun texts => String.join (filledTexts labels rows texts) := by
  rw [printedLines_eq, List.map_eq_flatMap]
  refine List.flatMap_congr fun texts line => Text.splitAtChar_eq_singleton fun feed => ?_
  obtain ⟨column, inside, broken⟩ := feed_mem_join_filledTexts_iff.mp feed
  exact unbroken_iff.mp unbroken texts line column inside broken

end

/-- All printed lines are as wide as the columns together, four more than its widest text for each
of them, exactly when no label and no line of a cell holds a line feed. -/
theorem length_printedLines_iff_unbroken (labels : Option (List String)) (rows : List Row) :
    (∀ line ∈ printedLines labels rows, line.length = (widths labels rows).sum) ↔
      Unbroken labels rows := by
  constructor
  · intro even
    refine unbroken_iff.mpr fun texts line column inside broken => ?_
    obtain ⟨piece, part, shorter⟩ := Text.exists_shorter_mem_splitAtChar
      (feed_mem_join_filledTexts_iff.mpr ⟨column, inside, broken⟩)
    have printed : piece ∈ printedLines labels rows := by
      rw [printedLines_eq]
      exact List.mem_flatMap.mpr ⟨texts, line, part⟩
    rw [even piece printed, length_join_filledTexts line] at shorter
    exact Nat.lt_irrefl _ shorter
  · intro unbroken line printed
    rw [printedLines_of_unbroken unbroken] at printed
    obtain ⟨texts, known, rfl⟩ := List.mem_map.mp printed
    exact length_join_filledTexts known

/-- A cell of two lines of text breaks its line, and what stands behind the feed is a line of its
own. -/
theorem printedLines_broken_cell :
    printedLines none [[.text "a\nb"]] = ["a", "b    "] ∧
      (widths none [[.text "a\nb"]]).sum = 7 ∧
      ¬ ∃ width, ∀ line ∈ printedLines none [[.text "a\nb"]], line.length = width := by
  refine ⟨rfl, rfl, ?_⟩
  rintro ⟨width, even⟩
  have first := even "a" (by decide +kernel)
  have second := even "b    " (by decide +kernel)
  rw [← first] at second
  cases second

end Layout

end Tabular
