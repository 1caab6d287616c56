import Tabular.Proofs.Job.AlignedColumns

/-!
# The line of labels over different data

The labels of a table are made of the first record. The rows have a say in them at one place only:
without rows nothing is grouped, and then the labels stay in the order of the selected columns. So
two inputs with the same first record give the same line of labels, unless the job groups and rows
are left for one of them only.
-/

namespace Tabular

def Grouping.labelsOver (grouping : Grouping) (labels : List String) : List String :=
  let keys := grouping.keys.positionsInBounds labels.length
  let values := (List.range labels.length).filter fun column => !keys.contains column
  grouping.labels labels keys values

theorem Grouping.labelsOver_ne_nil {grouping : Grouping} {labels : List String}
    (filled : labels ≠ []) : grouping.labelsOver labels ≠ [] := by
  have first : 0 < labels.length := List.length_pos_iff.mpr filled
  unfold labelsOver Grouping.labels
  apply List.append_ne_nil_of_left_ne_nil
  cases grouping.folds with
  | true => exact List.append_ne_nil_of_right_ne_nil _ (List.cons_ne_nil _ _)
  | false =>
    -- The first column is a key or it is none.
    by_cases key : 0 ∈ grouping.keys.positionsInBounds labels.length
    · apply List.append_ne_nil_of_left_ne_nil
      exact List.ne_nil_of_mem (List.mem_map_of_mem key)
    · have value : 0 ∈ (List.range labels.length).filter fun column =>
          !(grouping.keys.positionsInBounds labels.length).contains column := by
        simp [first, key]
      apply List.append_ne_nil_of_right_ne_nil
      exact List.ne_nil_of_mem (List.mem_map_of_mem value)

namespace Job

/-- The labels of grouped rows. Without rows nothing is grouped. -/
def groupedLabels (job : Job) (labels : List String) (filled : Bool) : List String :=
  if filled then job.grouping.elim labels fun grouping => grouping.labelsOver labels else labels

/-- The labels over the rows that the records below a first one become. -/
def labelsOver (job : Job) (header : List String) (filled : Bool) : List String :=
  Formula.extendLabels job.formulas (job.groupedLabels (job.selection.header header) filled)

/-- The line of labels over the rows. Where rows are collected and no column is selected, there is
none. -/
def lineOver (job : Job) (header : List String) (filled : Bool) : String :=
  if job.needsAllRows && (job.selection.header header).isEmpty then ""
  else Delimited.writeFields job.joining (job.labelsOver header filled)

variable {job : Job} {header : List String} {data : List (List String)}

theorem groupedLabels_ne_nil {labels : List String} (known : labels ≠ []) (filled : Bool) :
    job.groupedLabels labels filled ≠ [] := by
  unfold groupedLabels
  cases filled with
  | false => exact known
  | true =>
    cases job.grouping with
    | none => exact known
    | some grouping => exact Grouping.labelsOver_ne_nil known

theorem labels_transform_eq (job : Job) (table : Table) :
    (job.transform table).labels =
      if (job.grouped table).derivesLabels then
        Formula.extendLabels job.formulas (job.grouped table).labels
      else (job.grouped table).labels := by
  have extended : (if job.formulas.isEmpty then job.grouped table
      else (job.grouped table).compute job.formulas).labels =
        if (job.grouped table).derivesLabels then
          Formula.extendLabels job.formulas (job.grouped table).labels
        else (job.grouped table).labels := by
    by_cases noFormulas : job.formulas = []
    · rw [noFormulas, Formula.extendLabels_nil, ite_self]
      rfl
    · simp [noFormulas, Table.compute]
  rw [← extended, transform_eq_grouped]
  cases job.sorting with
  | none => rfl
  | some sorting => rw [Option.elim_some, Table.sort_eq]

/-- Of the rows the labels tell only whether there are any. -/
theorem labels_grouped {table : Table} (aligned : table.Aligned)
    (derived : table.explicitLabels = false) (known : table.labels ≠ []) :
    (job.grouped table).labels = job.groupedLabels table.labels (decide (table.rows ≠ [])) := by
  have derives : table.derivesLabels = true := by simp [Table.derivesLabels, derived, known]
  unfold grouped groupedLabels
  cases job.grouping with
  | none => rw [Option.elim_none, Option.elim_none, ite_self]
  | some grouping =>
    rw [Option.elim_some, Option.elim_some, Table.labels_group]
    by_cases none : table.rows = []
    · rw [if_neg (fun both => both.1 none), if_neg (by simp [none])]
    · have width : table.width = table.labels.length := by
        obtain ⟨first, rest, rows⟩ := List.exists_cons_of_ne_nil none
        have wide := aligned known first (rows ▸ List.mem_cons_self)
        rw [Table.width, rows, List.head?_cons, Option.map_some, Option.getD_some, wide]
      rw [if_pos ⟨none, derives⟩, if_pos (decide_eq_true none), Grouping.labelsOver,
        Table.groupValues, Table.groupKeys, width]

theorem labels_grouped_of_nil {table : Table} (bare : table.labels = []) :
    (job.grouped table).labels = [] := by
  unfold grouped
  cases job.grouping with
  | none => exact bare
  | some grouping =>
    rw [Option.elim_some, Table.labels_group, if_neg, bare]
    rintro ⟨-, derives⟩
    simp [Table.derivesLabels, bare] at derives

section

variable (derived : job.labels = none) (reads : job.headless = false)

include derived reads

theorem labels_collect_cons :
    (job.collect (header :: data)).labels = job.selection.header header := by
  rw [labels_collect_of_derived derived, reads]
  rfl

/-- The labels of the collected table depend on the data by whether there is a row. -/
theorem labels_transform_collect_cons
    (even : ∀ record ∈ data, record.length = header.length)
    (selected : job.selection.header header ≠ []) :
    (job.transform (job.collect (header :: data))).labels =
      job.labelsOver header (decide (job.selectedRecords (header :: data) ≠ [])) := by
  have labels : (job.collect (header :: data)).labels = job.selection.header header :=
    labels_collect_cons derived reads
  have explicit : (job.collect (header :: data)).explicitLabels = false := by
    rw [explicitLabels_collect, derived]
    rfl
  have aligned : (job.collect (header :: data)).Aligned :=
    aligned_collect derived (List.forall_mem_cons.mpr ⟨rfl, even⟩)
  have rows : decide ((job.collect (header :: data)).rows ≠ []) =
      decide (job.selectedRecords (header :: data) ≠ []) := by
    rw [decide_eq_decide, rows_collect_eq_map, Ne, List.map_eq_nil_iff]
  have known : (job.grouped (job.collect (header :: data))).labels =
      job.groupedLabels (job.selection.header header)
        (decide (job.selectedRecords (header :: data) ≠ [])) := by
    rw [← rows, ← labels]
    exact labels_grouped aligned explicit (labels ▸ selected)
  have derives : (job.grouped (job.collect (header :: data))).derivesLabels = true := by
    rw [Table.derivesLabels, explicitLabels_grouped, explicit, known,
      List.isEmpty_eq_false_iff.mpr (groupedLabels_ne_nil selected _)]
    rfl
  rw [labels_transform_eq, if_pos derives, known, labelsOver]

theorem labels_transform_collect_of_nil (bare : job.selection.header header = []) :
    (job.transform (job.collect (header :: data))).labels = [] := by
  have labels : (job.collect (header :: data)).labels = [] :=
    (labels_collect_cons derived reads).trans bare
  have known : (job.grouped (job.collect (header :: data))).labels = [] :=
    labels_grouped_of_nil labels
  rw [labels_transform_eq, known, if_neg]
  simp [Table.derivesLabels, known]

end

theorem run_eq_lineOver {input : Text.Input} (csv : job.mode = .csv) (form : job.form = .lines)
    (onLines : job.lineJoiner = none) (shown : job.hidesLabels = false)
    (derived : job.labels = none) (reads : job.headless = false)
    (even : ∀ record ∈ data, record.length = header.length)
    (read : Delimited.records job.splitting input = (header :: data, none)) :
    job.run input =
      .write (job.lineOver header (decide (job.selectedRecords (header :: data) ≠ [])) ++
        String.join ((job.writtenTable (header :: data)).rows.map
          (Delimited.writeRow job.joining job.wrap))) := by
  have nonempty : input ≠ [] := by
    rintro rfl
    have none : (Delimited.records job.splitting []).1 = [] := by cases job.splitting <;> rfl
    rw [read] at none
    cases none
  rw [run_of_csv input csv nonempty]
  cases collects : job.needsAllRows with
  | false =>
    have ungrouped := (needsAllRows_eq_false.mp collects).2.1
    have labels : (job.writtenTable (header :: data)).labels = job.labelsOver header
        (decide (job.selectedRecords (header :: data) ≠ [])) := by
      simp [writtenTable, collects, reads, streamedLabels, derived, labelsOver,
        groupedLabels, ungrouped]
    rw [runRecords_of_streams collects, read, stream_eq_streamedText derived collects, streamedText,
      shown, reads, labels, lineOver, collects]
    rfl
  | true =>
    have finished : job.runRecords input = job.finish (job.collect (header :: data)) := by
      rw [runRecords, read]
      simp only [collects, if_true]
    rw [finished, finish, write_of_showsLabels job shown onLines form, lineOver, collects,
      writtenTable, if_pos collects, Bool.true_and]
    by_cases bare : job.selection.header header = []
    · rw [labels_transform_collect_of_nil derived reads bare, bare]
      rfl
    · have labels := labels_transform_collect_cons derived reads even bare
      have filled : (job.transform (job.collect (header :: data))).labels ≠ [] := by
        rw [labels]
        exact List.append_ne_nil_of_left_ne_nil (groupedLabels_ne_nil bare _) _
      rw [if_pos filled, labels, if_neg]
      · rfl
      · simpa using bare

/-- The line of labels is that of the first record. A command over records that writes lines below
labels of their own writes, for every data below a first record, the line over the rows and then the
rows. That line depends on the command and on the first record alone, if nothing is grouped; if rows
are grouped, it depends on the data too, but only by whether a row is left for grouping. -/
theorem run_line_over_data {tokens : List String} {job : Job}
    (accepted : ofTokens .csv tokens = .ok job) (form : job.form = .lines)
    (onLines : job.lineJoiner = none) (shown : job.hidesLabels = false)
    (derived : job.labels = none) (header : List String) :
    (∀ data input, (∀ record ∈ data, record.length = header.length) →
      Delimited.records job.splitting input = (header :: data, none) →
        job.run input =
          .write (job.lineOver header (decide (job.selectedRecords (header :: data) ≠ [])) ++
            String.join ((job.writtenTable (header :: data)).rows.map
              (Delimited.writeRow job.joining job.wrap)))) ∧
    ∀ data other : List (List String),
      (job.grouping = none ∨
        (job.selectedRecords (header :: data) = [] ↔
          job.selectedRecords (header :: other) = [])) →
      job.lineOver header (decide (job.selectedRecords (header :: data) ≠ [])) =
        job.lineOver header (decide (job.selectedRecords (header :: other) ≠ [])) := by
  have csv : job.mode = .csv := mode_of_ofTokens accepted
  have reads : job.headless = false := by
    by_contra headless
    have given := isSome_labels_of_ofTokens accepted shown (by simpa using headless)
    simp [derived] at given
  constructor
  · intro data input even read
    exact run_eq_lineOver csv form onLines shown derived reads even read
  · rintro data other (ungrouped | same)
    · simp only [lineOver, labelsOver, groupedLabels, ungrouped, Option.elim_none, ite_self]
    · rw [decide_eq_decide.mpr (not_congr same)]

/-- Grouped by the second column and counted, with a formula over the columns in their new order. -/
theorem run_line_over_data_counted :
    ∃ job, ofTokens .csv ["split:csv", "group[1]:count", "calc([0] + [2])"] = .ok job ∧
      job.form = .lines ∧ job.lineJoiner = none ∧ job.hidesLabels = false ∧ job.labels = none ∧
      Delimited.records job.splitting (.ofText "a,b\n1,x\n2,x\n") =
        (["a", "b"] :: [["1", "x"], ["2", "x"]], none) ∧
      (∀ record ∈ [["1", "x"], ["2", "x"]], record.length = ["a", "b"].length) ∧
      job.lineOver ["a", "b"] true = "b,a,count,b + count\n" ∧
      job.run (.ofText "a,b\n1,x\n2,x\n") = .write ("b,a,count,b + count\n" ++ "x,3,2,x2\n") ∧
      job.lineOver ["a", "b"]
          (decide (job.selectedRecords (["a", "b"] :: [["1", "x"], ["2", "x"]]) ≠ [])) =
        job.lineOver ["a", "b"]
          (decide (job.selectedRecords (["a", "b"] :: [["7", "y"]]) ≠ [])) := by
  have known : ((ofTokens .csv ["split:csv", "group[1]:count", "calc([0] + [2])"]).toOption.any
      fun job => decide (job.form = .lines) && job.lineJoiner.isNone && !job.hidesLabels &&
        job.labels.isNone && decide (job.splitting = .csv) &&
        decide (job.lineOver ["a", "b"] true = "b,a,count,b + count\n") &&
        decide (job.selectedRecords (["a", "b"] :: [["1", "x"], ["2", "x"]]) ≠ []) &&
        decide (job.selectedRecords (["a", "b"] :: [["7", "y"]]) ≠ []) &&
        decide (String.join ((job.writtenTable (["a", "b"] :: [["1", "x"], ["2", "x"]])).rows.map
          (Delimited.writeRow job.joining job.wrap)) = "x,3,2,x2\n")) = true := by
    decide +kernel
  cases accepted : ofTokens .csv ["split:csv", "group[1]:count", "calc([0] + [2])"] with
  | error fault => simp [accepted, Except.toOption] at known
  | ok job =>
    simp only [accepted, Except.toOption, Option.any_some, Bool.and_eq_true, decide_eq_true_eq,
      Option.isNone_iff_eq_none, Bool.not_eq_true'] at known
    obtain ⟨⟨⟨⟨⟨⟨⟨⟨form, onLines⟩, shown⟩, derived⟩, splitting⟩, line⟩, some⟩, others⟩, rows⟩ :=
      known
    have read : Delimited.records job.splitting (.ofText "a,b\n1,x\n2,x\n") =
        (["a", "b"] :: [["1", "x"], ["2", "x"]], none) := by
      rw [splitting]
      exact Prod.ext (by decide +kernel) rfl
    have even : ∀ record ∈ [["1", "x"], ["2", "x"]], record.length = ["a", "b"].length := by
      decide
    obtain ⟨runs, same⟩ := run_line_over_data accepted form onLines shown derived ["a", "b"]
    have written := runs _ _ even read
    rw [decide_eq_true some, line, rows] at written
    refine ⟨job, rfl, form, onLines, shown, derived, read, even, line, written, same _ _ (.inr ?_)⟩
    exact iff_of_false some others

/-- Without data the labels of grouped columns stay where they were: the two lines of labels are
different for one and the same first record. -/
theorem run_line_without_data :
    ∃ job, ofTokens .csv ["split:csv", "group[1]"] = .ok job ∧
      job.form = .lines ∧ job.lineJoiner = none ∧ job.hidesLabels = false ∧ job.labels = none ∧
      Delimited.records job.splitting (.ofText "a,b\n") = ([["a", "b"]], none) ∧
      Delimited.records job.splitting (.ofText "a,b\n1,2\n") = ([["a", "b"], ["1", "2"]], none) ∧
      job.run (.ofText "a,b\n") = .write "a,b\n" ∧
      job.run (.ofText "a,b\n1,2\n") = .write "b,a\n2,1\n" ∧
      ¬"a,b\n".toList <+: "b,a\n2,1\n".toList := by
  refine ⟨{ ofMode .csv with splitting := .csv, grouping := some { keys := .ofIndices [1] } },
    rfl, rfl, rfl, rfl, rfl, rfl, rfl, rfl, rfl, by decide⟩

end Job

end Tabular
