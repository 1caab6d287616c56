import Tabular.Job.Run
import Tabular.Proofs.Job.Commands
import Tabular.Proofs.Table.Sorting
import Tabular.Proofs.Text.Validity

/-!
# Streaming and collecting

A job that does not need all rows writes each of them as soon as it is read. Made to collect them
in a table first, it writes the same rows: the table holds the selected records in their order, its
formulas are those of the lines, and sorting by nothing keeps it as it is.
-/

namespace Tabular

theorem read_sortByNothing : Directive.read "sort[]" = .ok (.sort .byNothing) := by
  rfl

theorem join_map_ite {α : Type} (selected : α → Bool) (text : α → String) (items : List α) :
    String.join (items.map fun item => if selected item then text item else "") =
      String.join ((items.filter selected).map text) := by
  induction items with
  | nil => rfl
  | cons item items ih =>
    cases h : selected item <;> simp [h, String.join_cons, ih]

theorem Formula.extendRow_nil (row : Row) : Formula.extendRow [] row = row :=
  List.append_nil row

namespace Job

/-- Whether the record at an index becomes a row. -/
def takes (job : Job) (index : Nat) (length : Option Nat) : Bool :=
  (job.headless || index != 0) && job.rows.contains index length

def dataLine (job : Job) (fields : List String) : String :=
  Delimited.writeRow job.joining job.wrap (Formula.extendRow job.formulas (job.rowOf fields))

/-- The job that also sorts by nothing, for which it collects all rows. -/
def collecting (job : Job) : Job :=
  { job with sorting := some .byNothing }

section

variable {job : Job}

@[simp] theorem needsAllRows_collecting : job.collecting.needsAllRows = true := by
  simp [needsAllRows, collecting]

theorem needsAllRows_eq_false :
    job.needsAllRows = false ↔
      job.lineJoiner = none ∧ job.grouping = none ∧ job.sorting = none ∧ job.form = .lines ∧
        job.rows.needsLength = false := by
  simp [needsAllRows, Option.isSome_eq_false_iff, Option.isNone_iff_eq_none, and_assoc]

theorem streamedLine_of_hidesLabels (hidden : job.hidesLabels) (index : Nat)
    (fields : List String) :
    job.streamedLine index fields = if job.takes index none then job.dataLine fields else "" := by
  unfold streamedLine takes dataLine
  cases job.headless <;> by_cases first : index = 0 <;> simp [first, hidden]

theorem stream_of_hidesLabels (hidden : job.hidesLabels) (records : List (List String)) :
    job.stream records =
      String.join ((records.zipIdx.filter fun (_, index) => job.takes index none).map
        fun (fields, _) => job.dataLine fields) := by
  simp only [stream, hidden, Bool.true_or, if_true, String.empty_append,
    streamedLine_of_hidesLabels hidden]
  exact join_map_ite _ _ _

theorem rows_collect (job : Job) (records : List (List String)) :
    (job.collect records).rows =
      (records.zipIdx.filter fun (_, index) =>
        job.takes index (if job.rows.needsLength then some records.length else none)).map
          fun (fields, _) => job.rowOf fields := by
  simp only [collect, tableOf]
  split <;> rfl

theorem rows_transform_collecting (ungrouped : job.grouping = none) (table : Table) :
    (job.collecting.transform table).rows = table.rows.map (Formula.extendRow job.formulas) := by
  simp only [transform, collecting, ungrouped, Option.elim_none, Option.elim_some,
    Table.sort_byNothing]
  split
  · rename_i noFormulas
    rw [List.isEmpty_iff.mp noFormulas, funext Formula.extendRow_nil, List.map_id']
  · rfl

theorem write_of_hidesLabels (job : Job) (hidden : job.hidesLabels)
    (onLines : job.lineJoiner = none) (lines : job.form = .lines) (table : Table) :
    table.write job =
      .ok (String.join (table.rows.map (Delimited.writeRow job.joining job.wrap))) := by
  simp [Table.write, onLines, lines, hidden]

theorem records_ofText_snd (splitting : Splitting) (s : String) :
    (Delimited.records splitting (.ofText s)).2 = none := by
  cases splitting with
  | csv => rfl
  | blanks | literal => simp [Delimited.records, Text.validLines_lines_ofText]

theorem run_of_csv (input : Text.Input) (records : job.mode = .csv) (nonempty : input ≠ []) :
    job.run input = job.runRecords input := by
  simp [run, records, nonempty]

theorem run_ofText (job : Job) (records : job.mode = .csv) {s : String} (nonempty : s ≠ "") :
    job.run (.ofText s) = job.runRecords (.ofText s) := by
  refine run_of_csv _ records fun none => nonempty ?_
  rwa [Text.Input.ofText, List.map_eq_nil_iff, String.toList_eq_nil_iff] at none

theorem runRecords_of_streams (streams : job.needsAllRows = false) (input : Text.Input) :
    job.runRecords input =
      ⟨job.stream (Delimited.records job.splitting input).1,
        (Delimited.records job.splitting input).2⟩ := by
  simp [runRecords, streams]

theorem runRecords_of_streaming (streams : job.needsAllRows = false) (s : String) :
    job.runRecords (.ofText s) =
      .write (job.stream (Delimited.records job.splitting (.ofText s)).1) := by
  rw [runRecords_of_streams streams, records_ofText_snd]
  rfl

theorem runRecords_of_collecting (collects : job.needsAllRows) (s : String) :
    job.runRecords (.ofText s) =
      job.finish (job.collect (Delimited.records job.splitting (.ofText s)).1) := by
  have complete := records_ofText_snd job.splitting s
  simp only [runRecords, collects, if_true]
  rw [complete]

/-- Sorted by nothing, the collected rows are written as the streamed ones are. -/
theorem finish_collecting (streams : job.needsAllRows = false) (hidden : job.hidesLabels)
    (records : List (List String)) :
    job.collecting.finish (job.collecting.collect records) = .write (job.stream records) := by
  obtain ⟨onLines, ungrouped, -, lines, noLength⟩ := needsAllRows_eq_false.mp streams
  have collected : (job.collecting.collect records).rows =
      (records.zipIdx.filter fun (_, index) => job.takes index none).map
        fun (fields, _) => job.rowOf fields := by
    have forward : job.collecting.rows.needsLength = false := noLength
    rw [rows_collect, forward]
    rfl
  rw [finish, write_of_hidesLabels job.collecting hidden onLines lines,
    rows_transform_collecting ungrouped, collected, stream_of_hidesLabels hidden,
    List.map_map, List.map_map]
  rfl

end

/-- Collecting the rows in between does not show. A command over records that can write row by row
and hides the labels writes the same for every valid input when `sort[]` stands anywhere among its
tokens, which makes it collect all rows first. -/
theorem run_insert_sortByNothing {before after : List String} {job : Job} {input : Text.Input}
    {text : String} (accepted : ofTokens .csv (before ++ after) = .ok job)
    (streams : job.needsAllRows = false) (hidden : job.hidesLabels = true)
    (valid : Text.text? input = some text) (nonempty : input ≠ []) :
    ∃ collecting written, ofTokens .csv (before ++ "sort[]" :: after) = .ok collecting ∧
      collecting.needsAllRows = true ∧ job.run input = .write written ∧
      collecting.run input = .write written := by
  have unsorted : job.sorting = none := (needsAllRows_eq_false.mp streams).2.2.1
  have records : job.mode = .csv := mode_of_ofTokens accepted
  have filled : text ≠ "" := by
    rintro rfl
    exact nonempty (Text.eq_ofText_of_text? valid)
  rw [Text.eq_ofText_of_text? valid]
  refine ⟨job.collecting, job.stream (Delimited.records job.splitting (.ofText text)).1,
    ofTokens_insert_sort read_sortByNothing accepted unsorted, needsAllRows_collecting, ?_, ?_⟩
  · rw [run_ofText job records filled, runRecords_of_streaming streams]
  · rw [run_ofText job.collecting records filled,
      runRecords_of_collecting needsAllRows_collecting]
    exact finish_collecting streams hidden _

/-- Ragged records, a column range with edits, a row range, a formula and a wrapping. -/
theorem run_insert_sortByNothing_ragged :
    ∃ job collecting written,
      ofTokens .csv ["split:csv", "col[1,0]", "row[1:]", "tr..c0..pfx:x", "calc([0] + [1])",
        "wrap:quote", "-outhead"] = .ok job ∧
      job.needsAllRows = false ∧ job.hidesLabels = true ∧
      ofTokens .csv ["split:csv", "col[1,0]", "row[1:]", "sort[]", "tr..c0..pfx:x",
        "calc([0] + [1])", "wrap:quote", "-outhead"] = .ok collecting ∧
      collecting.needsAllRows = true ∧
      job.run (.ofText "a,b\n1,2\n3\n\n4,5,6") = .write written ∧
      collecting.run (.ofText "a,b\n1,2\n3\n\n4,5,6") = .write written := by
  have read : ((ofTokens .csv ["split:csv", "col[1,0]", "row[1:]", "tr..c0..pfx:x",
      "calc([0] + [1])", "wrap:quote", "-outhead"]).toOption.any fun job =>
        !job.needsAllRows && job.hidesLabels) = true := by
    decide +kernel
  cases accepted : ofTokens .csv ["split:csv", "col[1,0]", "row[1:]", "tr..c0..pfx:x",
      "calc([0] + [1])", "wrap:quote", "-outhead"] with
  | error fault => simp [accepted, Except.toOption] at read
  | ok job =>
    simp only [accepted, Except.toOption, Option.any_some, Bool.and_eq_true,
      Bool.not_eq_true'] at read
    obtain ⟨collecting, written, inserted, collects, streamed, collected⟩ :=
      @run_insert_sortByNothing ["split:csv", "col[1,0]", "row[1:]"]
        ["tr..c0..pfx:x", "calc([0] + [1])", "wrap:quote", "-outhead"] job
        (.ofText "a,b\n1,2\n3\n\n4,5,6") _ accepted read.1 read.2 (Text.text?_ofText _) (by decide)
    exact ⟨job, collecting, written, rfl, read.1, read.2, inserted, collects, streamed, collected⟩

end Job

end Tabular
