import Tabular.Proofs.Job.RowObjects
import Tabular.Proofs.Job.SortedLines
import Tabular.Proofs.Table.ReadColumns
import Tabular.Proofs.Table.Alignment

/-!
# Labels above their columns

The labels and the rows of a table are made apart from each other. Selecting, grouping and computing
give both of them the same columns, and sorting changes neither, so there is one label for each cell
of a row. As long as nothing is grouped or computed, a label and the cells below it come from one
and the same position of the records.
-/

namespace Tabular

namespace Selection

/-- The field at a position, which may lie outside the record; a missing field is empty. -/
def fieldAt (fields : List String) (position : Int) : String :=
  if position < 0 then "" else fields[position.toNat]?.getD ""

/-- A column of the rows. It shows the field at a position of the records as the edits leave it, or
what the edits add at one place. -/
structure Column where
  position : Int
  added : Option Nat
  deriving DecidableEq, Repr

def columnsAt (selection : Selection) (position : Int) : List Column :=
  ⟨position, none⟩ ::
    (List.range ((selection.editsAtPosition position).countP Edit.adds)).map (⟨position, some ·⟩)

/-- The columns of the rows that are made of records of some length. -/
def layout (selection : Selection) (length : Nat) : List Column :=
  (selection.columns.positions length).flatMap selection.columnsAt

def Column.textOf (selection : Selection) (column : Column) (field : String) : String :=
  let (word, added) := Edit.applyAll (selection.editsAtPosition column.position) field
  column.added.elim word fun place => added[place]?.getD ""

/-- The row has one cell for each column, and that holds what the column shows of the field at its
position, which sorting may have read as a number. -/
def Shows (selection : Selection) (columns : List Column) (fields : List String) (row : Row) :
    Prop :=
  List.Forall₂
    (fun column cell => ∃ s, s = column.textOf selection (fieldAt fields column.position) ∧
      (cell = .text s ∨ cell = Cell.infer s))
    columns row

theorem length_applyAll (edits : List Edit) (field : String) :
    (Edit.applyAll edits field).2.length = edits.countP Edit.adds := by
  induction edits generalizing field with
  | nil => rfl
  | cons edit edits ih =>
    unfold Edit.applyAll
    by_cases adds : edit.adds = true
    · rw [if_pos adds, List.countP_cons_of_pos adds]
      simp [ih]
    · rw [if_neg adds, List.countP_cons_of_neg adds, ih]

variable {selection : Selection}

/-- What the columns of a position show together is the edited field and all that was added. -/
theorem map_textOf_columnsAt (selection : Selection) (position : Int) (field : String) :
    (selection.columnsAt position).map (fun column => column.textOf selection field) =
      (Edit.applyAll (selection.editsAtPosition position) field).1 ::
        (Edit.applyAll (selection.editsAtPosition position) field).2 := by
  have added := @map_range_getD String
    (Edit.applyAll (selection.editsAtPosition position) field).2 _ "" (Nat.le_refl _)
  rw [Nat.sub_self, List.replicate_zero, List.append_nil, length_applyAll] at added
  rw [columnsAt, List.map_cons, List.map_map]
  exact congrArg (List.cons _) added

theorem position_of_mem_columnsAt {position : Int} {column : Column}
    (member : column ∈ selection.columnsAt position) : column.position = position := by
  rcases List.mem_cons.mp member with rfl | member
  · rfl
  · obtain ⟨place, -, rfl⟩ := List.mem_map.mp member
    rfl

theorem getD_select (fields : List String) (position : Int) :
    ((Range.inBounds? fields.length position).bind (fields[·]?)).getD "" =
      fieldAt fields position := by
  unfold Range.inBounds? fieldAt
  by_cases below : position < 0
  · rw [if_pos below, if_neg (by omega)]
    rfl
  · rw [if_neg below]
    by_cases inside : position < fields.length
    · rw [if_pos (by omega)]
      rfl
    · have beyond : fields.length ≤ position.toNat := by omega
      rw [if_neg (by omega), List.getElem?_eq_none beyond]
      rfl

theorem record_eq_map_layout (selection : Selection) (fields : List String) :
    selection.record fields =
      (selection.layout fields.length).map fun column =>
        column.textOf selection (fieldAt fields column.position) := by
  rw [record, Range.select, layout, List.flatMap_map, List.map_flatMap]
  refine List.flatMap_congr fun position _ => ?_
  dsimp only
  rw [getD_select]
  have here : (selection.columnsAt position).map (fun column =>
        column.textOf selection (fieldAt fields column.position)) =
      (selection.columnsAt position).map fun column =>
        column.textOf selection (fieldAt fields position) := by
    refine List.map_congr_left fun column member => ?_
    rw [position_of_mem_columnsAt member]
  rw [here, map_textOf_columnsAt]

theorem header_eq_map_layout (selection : Selection) (labels : List String) :
    selection.header labels =
      (selection.layout labels.length).map fun column => fieldAt labels column.position := by
  rw [header, Range.select, layout, List.flatMap_map, List.map_flatMap]
  refine List.flatMap_congr fun position _ => ?_
  have here : (selection.columnsAt position).map (fun column => fieldAt labels column.position) =
      (selection.columnsAt position).map fun _ => fieldAt labels position := by
    refine List.map_congr_left fun column member => ?_
    rw [position_of_mem_columnsAt member]
  dsimp only
  rw [getD_select, here, List.map_const']
  congr 1
  rw [columnsAt, List.length_cons, List.length_map, List.length_range]

theorem length_record_eq_length_header {fields labels : List String}
    (even : fields.length = labels.length) :
    (selection.record fields).length = (selection.header labels).length := by
  rw [record_eq_map_layout, header_eq_map_layout, List.length_map, List.length_map, even]

theorem shows_texts (selection : Selection) (fields : List String) :
    selection.Shows (selection.layout fields.length) fields
      ((selection.record fields).map Cell.text) := by
  unfold Shows
  rw [record_eq_map_layout, List.map_map, List.forall₂_map_right_iff, List.forall₂_same]
  intro column _
  exact ⟨_, rfl, .inl rfl⟩

theorem shows_of_rereadAt {fields : List String} {columns : List Nat} {row : Row}
    (reread : Sorting.RereadAt columns ((selection.record fields).map Cell.text) row) :
    selection.Shows (selection.layout fields.length) fields row := by
  have cells := reread.forall₂
  rw [record_eq_map_layout, List.map_map, List.forall₂_map_left_iff] at cells
  refine cells.imp fun column cell read => ⟨_, rfl, ?_⟩
  exact read

end Selection

namespace Job

theorem aligned_grouped {table : Table} (job : Job) (aligned : table.Aligned)
    (derived : table.explicitLabels = false) : (job.grouped table).Aligned := by
  unfold grouped
  cases job.grouping with
  | none => exact aligned
  | some grouping => exact Table.aligned_group derived grouping job.inner

theorem aligned_transform {table : Table} (job : Job) (aligned : table.Aligned)
    (derived : table.explicitLabels = false) : (job.transform table).Aligned := by
  have first := aligned_grouped job aligned derived
  have extended : (if job.formulas.isEmpty then job.grouped table
      else (job.grouped table).compute job.formulas).Aligned := by
    split
    · exact first
    · exact first.compute ((explicitLabels_grouped job table).trans derived) job.formulas
  rw [transform_eq_grouped]
  cases job.sorting with
  | none => exact extended
  | some sorting => exact extended.sort sorting

/-- The table that is written, whether its rows are collected first or written one by one. -/
def writtenTable (job : Job) (records : List (List String)) : Table :=
  if job.needsAllRows then job.transform (job.collect records)
  else
    { labels := if job.headless then [] else (records.head?.map job.streamedLabels).getD []
      rows := (job.selectedRecords records).map fun fields =>
        Formula.extendRow job.formulas (job.rowOf fields) }

/-- The text above rows that are written one by one, for labels that are not given. -/
def streamedText (job : Job) (records : List (List String)) : String :=
  (if job.hidesLabels || job.headless || records.isEmpty then ""
    else Delimited.writeFields job.joining (job.writtenTable records).labels) ++
    String.join ((job.writtenTable records).rows.map (Delimited.writeRow job.joining job.wrap))

variable {job : Job} {records : List (List String)} {width : Nat}

theorem stream_eq_streamedText (derived : job.labels = none) (streams : job.needsAllRows = false) :
    job.stream records = job.streamedText records := by
  have forward := (needsAllRows_eq_false.mp streams).2.2.2.2
  rw [stream_eq forward, streamedText, writtenTable, streams, if_neg Bool.false_ne_true,
    List.map_map]
  congr 1
  unfold streamedHeader
  cases job.hidesLabels <;> cases job.headless <;> cases records <;> simp [derived]

theorem mem_of_mem_selectedRecords {fields : List String}
    (member : fields ∈ job.selectedRecords records) : fields ∈ records := by
  obtain ⟨record, taken, rfl⟩ := List.mem_map.mp member
  exact List.fst_mem_of_mem_zipIdx (List.mem_of_mem_filter taken)

theorem labels_collect_of_derived (derived : job.labels = none) :
    (job.collect records).labels =
      if job.headless then [] else (records.head?.map job.selection.header).getD [] := by
  unfold collect tableOf
  rw [derived]

theorem length_rowOf_eq (even : ∀ record ∈ records, record.length = width) {first : List String}
    (labels : records.head? = some first) {fields : List String}
    (member : fields ∈ job.selectedRecords records) :
    (job.rowOf fields).length = (job.selection.header first).length := by
  have same : fields.length = first.length :=
    (even fields (mem_of_mem_selectedRecords member)).trans
      (even first (List.mem_of_mem_head? labels)).symm
  rw [rowOf, List.length_map]
  exact Selection.length_record_eq_length_header same

theorem aligned_collect (derived : job.labels = none)
    (even : ∀ record ∈ records, record.length = width) : (job.collect records).Aligned := by
  intro labelled row member
  rw [labels_collect_of_derived derived] at labelled ⊢
  rw [rows_collect_eq_map] at member
  obtain ⟨fields, selected, rfl⟩ := List.mem_map.mp member
  cases headless : job.headless with
  | true => exact absurd (if_pos headless) labelled
  | false =>
    cases first : records.head? with
    | none => simp [headless, first] at labelled
    | some header => exact length_rowOf_eq even first selected

theorem aligned_writtenTable (derived : job.labels = none)
    (even : ∀ record ∈ records, record.length = width) : (job.writtenTable records).Aligned := by
  unfold writtenTable
  cases collects : job.needsAllRows with
  | true =>
    apply aligned_transform job (aligned_collect derived even)
    rw [explicitLabels_collect, derived]
    rfl
  | false =>
    intro labelled row member
    obtain ⟨fields, selected, rfl⟩ := List.mem_map.mp member
    cases headless : job.headless with
    | true => simp [headless] at labelled
    | false =>
      cases first : records.head? with
      | none => simp [headless, first] at labelled
      | some header =>
        have length := length_rowOf_eq even first selected
        simp [streamedLabels, derived, Formula.extendRow, Formula.extendLabels, length]

/-- Without grouping and formulas the labels of the written table are fields of the first record,
each from the position of its column. -/
theorem labels_writtenTable (derived : job.labels = none) (ungrouped : job.grouping = none)
    (noFormulas : job.formulas = []) (reads : job.headless = false) {header : List String}
    (first : records.head? = some header) :
    (job.writtenTable records).labels =
      (job.selection.layout header.length).map fun column =>
        Selection.fieldAt header column.position := by
  rw [← Selection.header_eq_map_layout]
  unfold writtenTable
  cases collects : job.needsAllRows with
  | true =>
    rw [if_pos rfl, labels_transform ungrouped noFormulas, labels_collect_of_derived derived,
      reads, first]
    rfl
  | false =>
    simp [reads, first, streamedLabels, derived, noFormulas, Formula.extendLabels_nil]

/-- Without grouping and formulas each written row is made of one of the selected records, column by
column. -/
theorem rows_writtenTable (ungrouped : job.grouping = none) (noFormulas : job.formulas = [])
    (even : ∀ record ∈ records, record.length = width) :
    ∃ rows, rows.Perm (job.writtenTable records).rows ∧
      List.Forall₂ (job.selection.Shows (job.selection.layout width))
        (job.selectedRecords records) rows := by
  have lengths : ∀ fields ∈ job.selectedRecords records, fields.length = width := by
    intro fields member
    exact even fields (mem_of_mem_selectedRecords member)
  have plain : List.Forall₂ (job.selection.Shows (job.selection.layout width))
      (job.selectedRecords records) ((job.selectedRecords records).map job.rowOf) := by
    rw [List.forall₂_map_right_iff, List.forall₂_same]
    intro fields member
    rw [← lengths fields member]
    exact Selection.shows_texts job.selection fields
  unfold writtenTable
  cases collects : job.needsAllRows with
  | false =>
    refine ⟨_, .refl _, ?_⟩
    simpa [noFormulas, funext Formula.extendRow_nil] using plain
  | true =>
    rw [if_pos rfl, transform_eq ungrouped noFormulas]
    cases job.sorting with
    | none => exact ⟨_, .refl _, by rwa [Option.elim_none, rows_collect_eq_map]⟩
    | some sorting =>
      rw [Option.elim_some, Table.sort_eq]
      refine ⟨_, (Sorting.mergeSort_perm _ _).symm, ?_⟩
      have reread := Table.forall₂_rereadAt_comparedRows sorting (job.collect records)
      rw [rows_collect_eq_map, List.forall₂_map_left_iff] at reread
      refine ((List.forall₂_and_left _ _).mpr ⟨lengths, reread⟩).imp ?_
      rintro fields row ⟨rfl, read⟩
      exact Selection.shows_of_rereadAt read

/-- Labels stand above their columns. A command over records of one length that is given no labels
writes a table with one label for each cell of every row, or with no labels: row by row as they are
read, or all together behind the grouping, the formulas and the sorting, if the input has no flaw.
Without grouping and formulas a label and the cells below it come from the same position, the label
from the first record and each cell from that of its row. Nothing is written of an input without any
text. -/
theorem run_writes_aligned {job : Job} {input : Text.Input} {records : List (List String)}
    {flaw : Option Cause} {width : Nat} (csv : job.mode = .csv) (derived : job.labels = none)
    (read : Delimited.records job.splitting input = (records, flaw))
    (even : ∀ record ∈ records, record.length = width) :
    (input = [] → job.run input = .fail .noData) ∧
    (input ≠ [] → job.needsAllRows = false →
      job.run input = ⟨job.streamedText records, flaw⟩) ∧
    (input ≠ [] → job.needsAllRows = true →
      job.run input =
        flaw.elim (.ofResult ((job.writtenTable records).write job)) Outcome.fail) ∧
    (job.writtenTable records).Aligned ∧
    (job.grouping = none → job.formulas = [] →
      (job.headless = false → ∀ header ∈ records.head?,
        (job.writtenTable records).labels =
          (job.selection.layout width).map fun column =>
            Selection.fieldAt header column.position) ∧
      ∃ rows, rows.Perm (job.writtenTable records).rows ∧
        List.Forall₂ (job.selection.Shows (job.selection.layout width))
          (job.selectedRecords records) rows) := by
  refine ⟨fun empty => ?_, fun nonempty streams => ?_, fun nonempty collects => ?_,
    aligned_writtenTable derived even, fun ungrouped noFormulas =>
      ⟨fun reads header first => ?_, rows_writtenTable ungrouped noFormulas even⟩⟩
  · rw [empty]
    rfl
  · rw [run_of_csv input csv nonempty, runRecords_of_streams streams, read,
      stream_eq_streamedText derived streams]
  · rw [run_of_csv input csv nonempty, runRecords, read, writtenTable, if_pos collects]
    cases flaw <;> simp [collects, finish]
  · rw [← even header (List.mem_of_mem_head? first)]
    exact labels_writtenTable derived ungrouped noFormulas reads first

/-- Columns in another order, one of them from the end and one added by an edit: sorted in one
command, and in another one grouped by what was added, counted, and extended by a formula. -/
theorem run_writes_aligned_added :
    let input := Text.Input.ofText "k,b,n\nq,1,10\nr,2,9\nq,3,x\n"
    let records := [["k", "b", "n"], ["q", "1", "10"], ["r", "2", "9"], ["q", "3", "x"]]
    let sorted : Job :=
      { ofMode .csv with
        splitting := .csv
        selection := ⟨.ofIndices [2, -3], [(0, [{ lead := some "x", adds := true }])]⟩
        sorting := some ⟨.ofIndices [0], true⟩ }
    Delimited.records .csv input = (records, none) ∧
    (∀ record ∈ records, record.length = 3) ∧
    (sorted.selection.layout 3 = [⟨2, none⟩, ⟨0, none⟩, ⟨0, some 0⟩] ∧
      (sorted.writtenTable records).labels = ["n", "k", "k"] ∧
      ∃ rows, rows.Perm (sorted.writtenTable records).rows ∧
        List.Forall₂ (sorted.selection.Shows (sorted.selection.layout 3))
          (sorted.selectedRecords records) rows) ∧
    ∃ grouped, ofTokens .csv ["split:csv", "col[2,-3]", "tr..c0..pfx:x..add", "group[2]:count",
        "calc([1] + [3])"] = .ok grouped ∧
      (grouped.writtenTable records).labels = ["k", "n", "k", "count", "n + count"] ∧
      (grouped.writtenTable records).Aligned ∧
      grouped.run input = .ofResult ((grouped.writtenTable records).write grouped) := by
  intro input records sorted
  have nonempty : input ≠ [] := by decide
  have read : Delimited.records .csv input = (records, none) := Prod.ext (by decide +kernel) rfl
  have even : ∀ record ∈ records, record.length = 3 := by decide
  obtain ⟨labels, rows⟩ :=
    (@run_writes_aligned sorted input records none 3 rfl rfl read even).2.2.2.2 rfl rfl
  refine ⟨read, even, ⟨by decide, labels rfl _ rfl, rows⟩, ?_⟩
  have known : ((ofTokens .csv ["split:csv", "col[2,-3]", "tr..c0..pfx:x..add", "group[2]:count",
      "calc([1] + [3])"]).toOption.any fun job =>
        job.mode = .csv && job.labels.isNone && job.splitting = .csv && job.needsAllRows &&
          decide ((job.writtenTable records).labels = ["k", "n", "k", "count", "n + count"])) =
      true := by
    decide +kernel
  cases accepted : ofTokens .csv ["split:csv", "col[2,-3]", "tr..c0..pfx:x..add",
      "group[2]:count", "calc([1] + [3])"] with
  | error fault => simp [accepted, Except.toOption] at known
  | ok grouped =>
    simp only [accepted, Except.toOption, Option.any_some, Bool.and_eq_true, decide_eq_true_eq,
      Option.isNone_iff_eq_none] at known
    obtain ⟨⟨⟨⟨csv, derived⟩, splitting⟩, collects⟩, labels⟩ := known
    obtain ⟨-, -, collected, aligned, -⟩ := @run_writes_aligned grouped input records none 3 csv
      derived (splitting ▸ read) even
    exact ⟨grouped, rfl, labels, aligned, collected nonempty collects⟩

end Job

end Tabular
