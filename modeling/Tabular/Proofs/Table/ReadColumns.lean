import Mathlib.Data.List.Forall2
import Mathlib.Data.List.SplitLengths
import Tabular.Proofs.Table.PrintedLines

/-!
# Reading a table by column

Where no text breaks its line, a printed line can be cut at the columns again, and each piece is the
text of its column with blanks behind it. Down a column, the pieces of a row are the lines of its
cell, each of them once and in their order, and then nothing but blanks.
-/

namespace Tabular

theorem splitLengths_flatten {α : Type} {sizes : List Nat} {pieces : List (List α)}
    (fit : List.Forall₂ (fun size piece => piece.length = size) sizes pieces) :
    sizes.splitLengths pieces.flatten = pieces := by
  induction fit with
  | nil => rfl
  | cons here _ ih =>
    rw [List.splitLengths_cons, List.flatten_cons, List.take_left' here, List.drop_left' here, ih]

theorem map_range_getD {α : Type} {items : List α} {bound : Nat} (filler : α)
    (fits : items.length ≤ bound) :
    (List.range bound).map (fun i => items[i]?.getD filler) =
      items ++ List.replicate (bound - items.length) filler := by
  refine List.ext_getElem (by simp; omega) fun i inside _ => ?_
  rw [List.length_map, List.length_range] at inside
  rw [List.getElem_map, List.getElem_range, List.getElem_append]
  split
  · rename_i here
    simp [here]
  · rename_i beyond
    simp [List.getElem?_eq_none (Nat.le_of_not_lt beyond)]

namespace Layout

def cutAt (widths : List Nat) (line : String) : List String :=
  (widths.splitLengths line.toList).map String.ofList

/-- The texts of a cell down a row: its lines, and then none. -/
def stackedTexts (row : Row) (column : Nat) : List String :=
  linesAt row column ++ List.replicate (rowHeight row - (linesAt row column).length) ""

section

variable {labels : Option (List String)} {rows : List Row}

theorem length_linesAt_le (row : Row) (column : Nat) :
    (linesAt row column).length ≤ rowHeight row := by
  rw [linesAt]
  cases here : row[column]? with
  | none => exact Nat.zero_le _
  | some cell => exact length_cellLines_le_rowHeight (List.mem_of_getElem? here)

theorem map_rowText (row : Row) (column : Nat) :
    (List.range (rowHeight row)).map (fun line => rowText row line column) =
      stackedTexts row column :=
  map_range_getD "" (length_linesAt_le row column)

theorem cutAt_join_filledTexts {texts : Nat → String} (line : texts ∈ lineTexts labels rows) :
    cutAt (widths labels rows) (String.join (filledTexts labels rows texts)) =
      filledTexts labels rows texts := by
  have fit : List.Forall₂ (fun size piece => piece.length = size) (widths labels rows)
      ((filledTexts labels rows texts).map String.toList) := by
    rw [widths, filledTexts, List.map_map, List.forall₂_map_left_iff, List.forall₂_map_right_iff,
      List.forall₂_same]
    intro column _
    rw [Function.comp_apply, String.length_toList]
    exact length_padRight (Nat.le_add_right_of_le (length_text_le line column))
  rw [cutAt, String.toList_join, List.flatMap_def, splitLengths_flatten fit, List.map_map]
  simp

theorem getElem?_filledTexts (texts : Nat → String) {column : Nat}
    (inside : column < columns labels rows) :
    (filledTexts labels rows texts)[column]? =
      some (padRight (widthAt labels rows column) (texts column)) := by
  simp [filledTexts, inside]

/-- Down a column of a row stand the lines of the cell. -/
theorem map_cutAt_rowText {row : Row} (known : row ∈ rows) {column : Nat}
    (inside : column < columns labels rows) :
    (((List.range (rowHeight row)).map fun line =>
        String.join (filledTexts labels rows (rowText row line))).map fun line =>
          (cutAt (widths labels rows) line)[column]?) =
      (stackedTexts row column).map fun text =>
        some (padRight (widthAt labels rows column) text) := by
  rw [← map_rowText, List.map_map, List.map_map]
  refine List.map_congr_left fun line member => ?_
  have high : line < rowHeight row := List.mem_range.mp member
  rw [Function.comp_apply, cutAt_join_filledTexts (rowText_mem_lineTexts known high),
    getElem?_filledTexts _ inside]
  rfl

end

/-- A table can be read back by column. Where no label and no line of a cell holds a line feed, the
printed lines are those of the labels, one if there are some, and those of each row, as many as its
highest cell has and one at least. Each line is cut at the columns into the text of each column with
blanks behind it and nothing else. So down a column of a row stand the lines of its cell, each of
them once and in their order, and then blanks. -/
theorem cutAt_printedLines {labels : Option (List String)} {rows : List Row}
    (unbroken : Unbroken labels rows) :
    write labels rows = String.join ((printedLines labels rows).map (· ++ "\n")) ∧
    (labels.getD []).length ≤ columns labels rows ∧
    (∀ row ∈ rows, row.length ≤ columns labels rows) ∧
    (∀ line ∈ printedLines labels rows, String.join (cutAt (widths labels rows) line) = line) ∧
    ∃ header blocks, printedLines labels rows = header ++ List.flatten blocks ∧
      header.map (cutAt (widths labels rows)) =
        labels.toList.map (fun names => (List.range (columns labels rows)).map fun column =>
          padRight (widthAt labels rows column) (names[column]?.getD "")) ∧
      List.Forall₂ (fun row block => block.length = rowHeight row ∧
        ∀ column < columns labels rows,
          block.map (fun line => (cutAt (widths labels rows) line)[column]?) =
            (stackedTexts row column).map fun text =>
              some (padRight (widthAt labels rows column) text)) rows blocks := by
  have lines := printedLines_of_unbroken unbroken
  obtain ⟨labelCount, cellCount⟩ := columns_le_iff.mp (Nat.le_refl (columns labels rows))
  refine ⟨?_, labelCount, cellCount, fun line printed => ?_, labels.toList.map fun names =>
      String.join (filledTexts labels rows fun column => names[column]?.getD ""),
    rows.map fun row => (List.range (rowHeight row)).map fun line =>
      String.join (filledTexts labels rows (rowText row line)), ?_, ?_, ?_⟩
  · rw [write_eq, lines, List.map_map]
    rfl
  · rw [lines] at printed
    obtain ⟨texts, known, rfl⟩ := List.mem_map.mp printed
    rw [cutAt_join_filledTexts known]
  · rw [lines, lineTexts, List.map_append, List.map_map, List.map_flatMap, List.flatMap_def]
    simp only [List.map_map]
    rfl
  · rw [List.map_map]
    refine List.map_congr_left fun names given => ?_
    exact cutAt_join_filledTexts (List.mem_append_left _ (List.mem_map_of_mem given))
  · rw [List.forall₂_map_right_iff, List.forall₂_same]
    intro row known
    exact ⟨by simp, fun column inside => map_cutAt_rowText known inside⟩

/-- A set beside a text, a row without cells, a list, and more labels than cells. -/
theorem cutAt_printedLines_ragged :
    let labels := some ["a", "set", "c"]
    let rows : List Row := [[.text "x", .set ⟨["p", "longer"], by decide⟩], [],
      [.structured (.array [.int 1, .int 2])]]
    Unbroken labels rows ∧
      printedLines labels rows =
        ["a      set       c    ", "x      p              ", "       longer         ",
          "                      ", "- 1                   ", "- 2                   "] ∧
      (∀ line ∈ printedLines labels rows, String.join (cutAt (widths labels rows) line) = line) ∧
      ∃ header blocks, printedLines labels rows = header ++ List.flatten blocks ∧
        header.map (cutAt (widths labels rows)) = [["a      ", "set       ", "c    "]] ∧
        blocks.map List.length = [2, 1, 2] := by
  intro labels rows
  have unbroken : Unbroken labels rows := by decide +kernel
  obtain ⟨-, -, -, whole, header, blocks, parts, first, rest⟩ := cutAt_printedLines unbroken
  refine ⟨unbroken, by decide +kernel, whole, header, blocks, parts,
    first.trans (by decide +kernel), ?_⟩
  have heights : List.Forall₂ Eq (rows.map rowHeight) (blocks.map List.length) := by
    rw [List.forall₂_map_left_iff, List.forall₂_map_right_iff]
    exact rest.imp fun _ _ block => block.1.symm
  rw [List.forall₂_eq_eq_eq] at heights
  exact heights.symm.trans (by decide +kernel)

end Layout

end Tabular
