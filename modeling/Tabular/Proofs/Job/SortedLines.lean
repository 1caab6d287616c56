import Tabular.Proofs.Job.HeaderLine
import Tabular.Proofs.Table.SortedRows

/-!
# Sorted lines

A job that writes its rows as they are writes the same rows when it sorts them too, but in another
order and with one difference: what a key column reads as a number is written as that number. Where
the numerals of the key columns are spelled in this way, the lines only change places.
-/

namespace Tabular

namespace Sorting

/-- The texts of a row as they are written when some columns are keys: what reads as a number there
is spelled as the number, and all other text stays. -/
def respell (columns : List Nat) (texts : List String) : List String :=
  texts.mapIdx fun column s => if column ∈ columns then (Cell.infer s).render else s

theorem render_inferRow (columns : List Nat) (texts : List String) :
    (inferRow columns (texts.map Cell.text)).map Cell.render = respell columns texts := by
  refine List.ext_getElem (by simp [inferRow, respell]) fun column _ _ => ?_
  simp only [inferRow, respell, List.getElem_map, List.getElem_mapIdx, List.contains_iff_mem]
  split <;> rfl

theorem respell_eq_self {columns : List Nat} {texts : List String}
    (settled : ∀ column ∈ columns, ∀ s ∈ texts[column]?, (Cell.infer s).render = s) :
    respell columns texts = texts := by
  refine List.ext_getElem (by simp [respell]) fun column _ inside => ?_
  simp only [respell, List.getElem_mapIdx]
  split
  · rename_i key
    exact settled column key _ (List.getElem?_eq_getElem inside)
  · rfl

end Sorting

namespace Job

/-- Writes its rows on lines as they are: in the order of the input, and without further columns. -/
structure WritesRows (job : Job) : Prop where
  onLines : job.lineJoiner = none
  ungrouped : job.grouping = none
  unsorted : job.sorting = none
  noFormulas : job.formulas = []
  form : job.form = .lines

/-- The line of some texts. -/
def textLine (job : Job) (texts : List String) : String :=
  Delimited.writeFields job.joining
    (texts.map fun s => job.wrap.getD "" ++ s ++ job.wrap.getD "")

def selectedTexts (job : Job) (records : List (List String)) : List (List String) :=
  (job.selectedRecords records).map job.selection.record

/-- The columns that decide the order, among those of the first row. -/
def keyColumns (job : Job) (sorting : Sorting) (records : List (List String)) : List Nat :=
  sorting.keys.positionsInBounds (((job.selectedTexts records).head?.map List.length).getD 0)

def headerLine (job : Job) (records : List (List String)) : String :=
  if job.hidesLabels then ""
  else if job.needsAllRows then job.collectedHeader records
  else job.streamedHeader records

section

variable {job : Job}

theorem writeRow_eq_textLine (job : Job) (row : Row) :
    Delimited.writeRow job.joining job.wrap row = job.textLine (row.map Cell.render) := by
  rw [textLine, List.map_map]
  rfl

theorem writeRow_map_text (job : Job) (texts : List String) :
    Delimited.writeRow job.joining job.wrap (texts.map Cell.text) = job.textLine texts := by
  rw [writeRow_eq_textLine, List.map_map]
  exact congrArg job.textLine (List.map_id texts)

theorem dataLine_eq_textLine (noFormulas : job.formulas = []) (fields : List String) :
    job.dataLine fields = job.textLine (job.selection.record fields) := by
  rw [dataLine, noFormulas, Formula.extendRow_nil, rowOf, writeRow_map_text]

theorem headerLine_of_streams (streams : job.needsAllRows = false)
    (records : List (List String)) : job.headerLine records = job.streamedHeader records := by
  cases shown : job.hidesLabels <;> simp [headerLine, streamedHeader, streams, shown]

theorem transform_eq (ungrouped : job.grouping = none) (noFormulas : job.formulas = [])
    (table : Table) : job.transform table = job.sorting.elim table table.sort := by
  simp [transform, ungrouped, noFormulas]

theorem labels_transform (ungrouped : job.grouping = none) (noFormulas : job.formulas = [])
    (table : Table) : (job.transform table).labels = table.labels := by
  rw [transform_eq ungrouped noFormulas]
  cases job.sorting with
  | none => rfl
  | some sorting => rw [Option.elim_some, Table.sort_eq]

theorem shownLabels_of_noFormulas (noFormulas : job.formulas = []) (records : List (List String)) :
    job.shownLabels records = job.knownLabels records := by
  rw [shownLabels, noFormulas, Formula.extendLabels_nil, ite_self]

theorem finish_collect (onLines : job.lineJoiner = none) (ungrouped : job.grouping = none)
    (noFormulas : job.formulas = []) (form : job.form = .lines)
    (given : job.hidesLabels = false → job.headless = true → job.labels.isSome)
    (collects : job.needsAllRows = true) (records : List (List String)) :
    job.finish (job.collect records) =
      .write (job.headerLine records ++
        String.join ((job.transform (job.collect records)).rows.map
          (Delimited.writeRow job.joining job.wrap))) := by
  rw [finish, headerLine]
  cases shown : job.hidesLabels with
  | true =>
    rw [write_of_hidesLabels job shown onLines form, if_pos rfl, String.empty_append]
    rfl
  | false =>
    have labels : (job.transform (job.collect records)).labels = job.knownLabels records :=
      (labels_transform ungrouped noFormulas _).trans (labels_collect (given shown) records)
    rw [write_of_showsLabels job shown onLines form, labels, collects, collectedHeader,
      shownLabels_of_noFormulas noFormulas]
    rfl

theorem rows_collect_eq_texts (job : Job) (records : List (List String)) :
    (job.collect records).rows = (job.selectedTexts records).map (·.map Cell.text) := by
  rw [rows_collect_eq_map, selectedTexts, List.map_map]
  rfl

theorem typed_collect (job : Job) (records : List (List String)) :
    (job.collect records).typed = false := by
  unfold collect tableOf
  cases job.labels <;> rfl

theorem sortColumns_collect (sorting : Sorting) (records : List (List String)) :
    (job.collect records).sortColumns sorting = job.keyColumns sorting records := by
  rw [Table.sortColumns, Table.width, rows_collect_eq_texts, keyColumns]
  cases job.selectedTexts records <;> simp

/-- The rows that are sorted are written as the texts with the numbers of the key columns. -/
theorem writeRow_comparedRows (sorting : Sorting) (records : List (List String)) :
    ((job.collect records).comparedRows sorting).map (Delimited.writeRow job.joining job.wrap) =
      (job.selectedTexts records).map fun texts =>
        job.textLine (Sorting.respell (job.keyColumns sorting records) texts) := by
  rw [Table.comparedRows, typed_collect, sortColumns_collect, rows_collect_eq_texts]
  simp only [Bool.false_eq_true, if_false, List.map_map]
  refine List.map_congr_left fun texts _ => ?_
  rw [Function.comp_apply, Function.comp_apply, writeRow_eq_textLine, Sorting.render_inferRow]

theorem perm_sortedLines (sorting : Sorting) (records : List (List String)) :
    (((job.collect records).sort sorting).rows.map
        (Delimited.writeRow job.joining job.wrap)).Perm
      ((job.selectedTexts records).map fun texts =>
        job.textLine (Sorting.respell (job.keyColumns sorting records) texts)) := by
  rw [← writeRow_comparedRows, Table.sort_eq]
  exact (Sorting.mergeSort_perm _ _).map _

theorem run_writesRows (plain : job.WritesRows) (csv : job.mode = .csv)
    (given : job.hidesLabels = false → job.headless = true → job.labels.isSome) {text : String}
    (filled : text ≠ "") :
    job.run (.ofText text) =
      .write (job.headerLine (Delimited.records job.splitting (.ofText text)).1 ++
        String.join ((job.selectedTexts (Delimited.records job.splitting (.ofText text)).1).map
          job.textLine)) := by
  rw [run_ofText job csv filled]
  cases collects : job.needsAllRows with
  | true =>
    rw [runRecords_of_collecting collects, finish_collect plain.onLines plain.ungrouped
      plain.noFormulas plain.form given collects, transform_eq plain.ungrouped plain.noFormulas,
      plain.unsorted, Option.elim_none, rows_collect_eq_texts, List.map_map]
    simp only [Function.comp_def, writeRow_map_text]
  | false =>
    have forward := (needsAllRows_eq_false.mp collects).2.2.2.2
    have lines : job.dataLine = job.textLine ∘ job.selection.record :=
      funext (dataLine_eq_textLine plain.noFormulas)
    rw [runRecords_of_streaming collects, stream_eq forward, headerLine_of_streams collects,
      selectedTexts, List.map_map, lines]

def sortedBy (job : Job) (sorting : Sorting) : Job :=
  { job with sorting := some sorting }

@[simp] theorem needsAllRows_sortedBy (sorting : Sorting) :
    (job.sortedBy sorting).needsAllRows = true := by
  simp [needsAllRows, sortedBy]

theorem run_sortedBy (plain : job.WritesRows) (csv : job.mode = .csv)
    (given : job.hidesLabels = false → job.headless = true → job.labels.isSome) {text : String}
    (filled : text ≠ "") (sorting : Sorting) :
    (job.sortedBy sorting).run (.ofText text) =
      .write ((job.sortedBy sorting).headerLine
          (Delimited.records job.splitting (.ofText text)).1 ++
        String.join ((((job.sortedBy sorting).collect
          (Delimited.records job.splitting (.ofText text)).1).sort sorting).rows.map
            (Delimited.writeRow job.joining job.wrap))) := by
  have collects := @needsAllRows_sortedBy job sorting
  have finished := @finish_collect (job.sortedBy sorting) plain.onLines plain.ungrouped
    plain.noFormulas plain.form given collects (Delimited.records job.splitting (.ofText text)).1
  have sorts : (job.sortedBy sorting).transform = Table.sort sorting :=
    funext (@transform_eq (job.sortedBy sorting) plain.ungrouped plain.noFormulas)
  rw [sorts] at finished
  rw [run_ofText (job.sortedBy sorting) csv filled, runRecords_of_collecting collects]
  exact finished

/-- The line of labels does not depend on sorting, as far as the labels are in step with their place
where the rows would be written one by one. -/
theorem headerLine_sortedBy
    (given : job.hidesLabels = false → job.headless = true → job.labels.isSome)
    (sorting : Sorting) {records : List (List String)}
    (inStep : job.needsAllRows = true ∨ job.hidesLabels = true ∨ job.LabelsInStep records) :
    (job.sortedBy sorting).headerLine records = job.headerLine records := by
  have collected : (job.sortedBy sorting).headerLine records =
      if job.hidesLabels then "" else job.collectedHeader records := by
    rw [headerLine, needsAllRows_sortedBy, if_pos rfl]
    rfl
  rw [collected]
  cases shown : job.hidesLabels with
  | true => simp [headerLine, shown]
  | false =>
    cases collects : job.needsAllRows with
    | true => simp [headerLine, shown, collects]
    | false =>
      have steps : job.LabelsInStep records := by simpa [shown, collects] using inStep
      rw [headerLine_of_streams collects,
        (streamedHeader_eq_collectedHeader_iff (given shown) shown records).1.mpr steps]
      rfl

end

/-- Sorting does not alter data, but for the numerals in key columns. A command over records that
writes its rows as they are writes the same rows for every valid input when a sorting token stands
anywhere among its tokens. The lines come in another order, and in the key columns what reads as a
number is spelled as the number. So where the key columns hold no numerals but those that their
numbers are spelled with, the lines only change places. The line of labels is the same, as far as
the labels are in step with their place where the rows would be written one by one. -/
theorem run_insert_sort {before after : List String} {token : String} {sorting : Sorting}
    {job : Job} {input : Text.Input} {text : String}
    (accepted : ofTokens .csv (before ++ after) = .ok job)
    (sorts : Directive.read token = .ok (.sort sorting)) (plain : job.WritesRows)
    (valid : Text.text? input = some text) :
    ∃ sorted records sortedLines,
      ofTokens .csv (before ++ token :: after) = .ok sorted ∧
      (Delimited.records job.splitting input).1 = records ∧
      (input = [] → job.run input = .fail .noData ∧ sorted.run input = .fail .noData) ∧
      (input ≠ [] →
        job.run input = .write (job.headerLine records ++
          String.join ((job.selectedTexts records).map job.textLine)) ∧
        sorted.run input = .write (sorted.headerLine records ++ String.join sortedLines)) ∧
      sortedLines.Perm ((job.selectedTexts records).map fun texts =>
        job.textLine (Sorting.respell (job.keyColumns sorting records) texts)) ∧
      ((∀ texts ∈ job.selectedTexts records, ∀ column ∈ job.keyColumns sorting records,
          ∀ s ∈ texts[column]?, (Cell.infer s).render = s) →
        sortedLines.Perm ((job.selectedTexts records).map job.textLine)) ∧
      (job.needsAllRows = true ∨ job.hidesLabels = true ∨ job.LabelsInStep records →
        sorted.headerLine records = job.headerLine records) := by
  have csv : job.mode = .csv := mode_of_ofTokens accepted
  have given := fun shown => @isSome_labels_of_ofTokens _ _ job accepted shown
  have perm := @perm_sortedLines (job.sortedBy sorting) sorting
    (Delimited.records job.splitting input).1
  refine ⟨job.sortedBy sorting, _, _, ofTokens_insert_sort sorts accepted plain.unsorted, rfl, ?_,
    fun nonempty => ?_, perm, fun settled => ?_, headerLine_sortedBy given sorting⟩
  · rintro rfl
    exact ⟨rfl, rfl⟩
  · have filled : text ≠ "" := by
      rintro rfl
      exact nonempty (Text.eq_ofText_of_text? valid)
    rw [Text.eq_ofText_of_text? valid]
    exact ⟨run_writesRows plain csv given filled, run_sortedBy plain csv given filled sorting⟩
  · refine perm.trans (List.Perm.of_eq (List.map_congr_left fun texts member => ?_))
    exact congrArg job.textLine (Sorting.respell_eq_self (settled texts member))

/-- Keys of several kinds in a ragged input with two columns in reverse order, sorted downwards. -/
theorem run_insert_sort_ragged :
    let job : Job :=
      { ofMode .csv with
        splitting := .csv, selection := ⟨.ofIndices [1, 0], []⟩, wrap := some "'" }
    let input := Text.Input.ofText "n,k\nb,10\nc\na,9\nd,x\n"
    ofTokens .csv ["split:csv", "col[1,0]", "wrap:quote"] = .ok job ∧
      Directive.read "sort[0]:desc" = .ok (.sort ⟨.ofIndices [0], true⟩) ∧ job.WritesRows ∧
      ∃ sorted sortedLines,
        ofTokens .csv ["split:csv", "sort[0]:desc", "col[1,0]", "wrap:quote"] = .ok sorted ∧
        job.run input = .write ("k,n\n" ++
          String.join ["'10','b'\n", "'','c'\n", "'9','a'\n", "'x','d'\n"]) ∧
        sorted.run input = .write ("k,n\n" ++ String.join sortedLines) ∧
        sortedLines.Perm ["'10','b'\n", "'','c'\n", "'9','a'\n", "'x','d'\n"] := by
  intro job input
  have accepted : ofTokens .csv ["split:csv", "col[1,0]", "wrap:quote"] = .ok job := rfl
  have sorts : Directive.read "sort[0]:desc" = .ok (.sort ⟨.ofIndices [0], true⟩) := rfl
  have plain : job.WritesRows := ⟨rfl, rfl, rfl, rfl, rfl⟩
  obtain ⟨sorted, records, sortedLines, inserted, known, -, runs, -, settled, headers⟩ :=
    @run_insert_sort ["split:csv"] ["col[1,0]", "wrap:quote"] _ _ job input _ accepted sorts plain
      (Text.text?_ofText _)
  obtain ⟨written, sortedWritten⟩ := runs (by decide)
  have read : records = [["n", "k"], ["b", "10"], ["c"], ["a", "9"], ["d", "x"]] :=
    known.symm.trans (by decide +kernel)
  subst read
  have header : job.headerLine [["n", "k"], ["b", "10"], ["c"], ["a", "9"], ["d", "x"]] =
      "k,n\n" := by
    decide +kernel
  have lines : (job.selectedTexts [["n", "k"], ["b", "10"], ["c"], ["a", "9"], ["d", "x"]]).map
      job.textLine = ["'10','b'\n", "'','c'\n", "'9','a'\n", "'x','d'\n"] := by
    decide +kernel
  rw [header, lines] at written
  rw [headers (by decide +kernel), header] at sortedWritten
  have perm := settled (by decide +kernel)
  rw [lines] at perm
  exact ⟨accepted, sorts, plain, sorted, sortedLines, inserted, written, sortedWritten, perm⟩

/-- A number with leading zeros in a key column loses them. -/
theorem run_sort_drops_zeros :
    ∃ job sorted,
      ofTokens .csv ["-inhead"] = .ok job ∧ ofTokens .csv ["-inhead", "sort[0]"] = .ok sorted ∧
      job.WritesRows ∧
      job.run (.ofText "007\n") = .write (String.join ["007\n"]) ∧
      sorted.run (.ofText "007\n") = .write (String.join ["7\n"]) ∧
      ¬ ["7\n"].Perm ["007\n"] := by
  refine ⟨{ ofMode .csv with headless := true, hidesLabels := true },
    { ofMode .csv with
      headless := true, hidesLabels := true, sorting := some ⟨.ofIndices [0], false⟩ },
    rfl, rfl, ⟨rfl, rfl, rfl, rfl, rfl⟩, rfl, rfl, by decide⟩

end Job

end Tabular
