import Tabular.Proofs.Job.RowSelection

/-!
# The line of labels

Above rows that are written one by one the labels come as soon as there is a place for them: in
front of everything where the input has none, and otherwise in the place of the first record. Above
collected rows they come when there are any. Where both happen the line is the same.
-/

namespace Tabular

theorem Formula.extendLabels_nil (labels : List String) :
    Formula.extendLabels [] labels = labels :=
  List.append_nil labels

theorem Delimited.writeFields_ne_empty (joining : Joining) (fields : List String) :
    writeFields joining fields ≠ "" := by
  intro empty
  have letters := congrArg String.toList empty
  cases joining <;> simp [writeFields, Csv.writeRecord] at letters

namespace Job

def knownLabels (job : Job) (records : List (List String)) : List String :=
  job.labels.getD ((records.head?.map job.selection.header).getD [])

/-- The labels with those of the formulas, which only follow labels that are not given. -/
def shownLabels (job : Job) (records : List (List String)) : List String :=
  if job.labels.isSome then job.knownLabels records
  else Formula.extendLabels job.formulas (job.knownLabels records)

/-- Rows that are written one by one have a place for labels exactly when there are labels. -/
def LabelsInStep (job : Job) (records : List (List String)) : Prop :=
  (job.headless = true ∨ records ≠ []) ↔ job.knownLabels records ≠ []

instance (job : Job) (records : List (List String)) : Decidable (job.LabelsInStep records) :=
  inferInstanceAs (Decidable (_ ↔ _))

/-- The line of labels above rows that are collected. -/
def collectedHeader (job : Job) (records : List (List String)) : String :=
  if job.knownLabels records ≠ [] then
    Delimited.writeFields job.joining (job.shownLabels records)
  else ""

/-- A command that reads no labels and shows some has been given them. -/
theorem isSome_labels_of_ofTokens {mode : Mode} {tokens : List String} {job : Job}
    (accepted : ofTokens mode tokens = .ok job) (shown : job.hidesLabels = false)
    (headless : job.headless = true) : job.labels.isSome := by
  obtain ⟨directives, -, rfl⟩ := ofTokens_eq_ok_iff.mp accepted
  generalize (ofMode mode).carryOut directives = read at shown headless ⊢
  unfold settleLabels at shown headless ⊢
  split at shown
  · cases shown
  · rename_i unsettled
    rw [if_neg unsettled] at headless ⊢
    by_contra absent
    apply unsettled
    simpa [headless] using absent

variable {job : Job}

theorem shownLabels_ne_nil {records : List (List String)}
    (known : job.knownLabels records ≠ []) : job.shownLabels records ≠ [] := by
  unfold shownLabels Formula.extendLabels
  split
  · exact known
  · exact List.append_ne_nil_of_left_ne_nil known _

theorem explicitLabels_collect (job : Job) (records : List (List String)) :
    (job.collect records).explicitLabels = job.labels.isSome := by
  unfold collect tableOf
  cases job.labels <;> rfl

theorem labels_transform_collecting (ungrouped : job.grouping = none) (table : Table) :
    (job.collecting.transform table).labels =
      if table.derivesLabels then Formula.extendLabels job.formulas table.labels
      else table.labels := by
  simp only [transform, collecting, ungrouped, Option.elim_none, Option.elim_some,
    Table.sort_byNothing]
  split
  · rename_i noFormulas
    rw [List.isEmpty_iff.mp noFormulas, Formula.extendLabels_nil, ite_self]
  · rfl

theorem write_of_showsLabels (job : Job) (shown : job.hidesLabels = false)
    (onLines : job.lineJoiner = none) (lines : job.form = .lines) (table : Table) :
    table.write job =
      .ok ((if table.labels ≠ [] then Delimited.writeFields job.joining table.labels else "") ++
        String.join (table.rows.map (Delimited.writeRow job.joining job.wrap))) := by
  by_cases none : table.labels = [] <;> simp [Table.write, onLines, lines, shown, none]

section

variable (given : job.headless = true → job.labels.isSome)

include given

theorem streamedHeader_eq (shown : job.hidesLabels = false) (records : List (List String)) :
    job.streamedHeader records =
      if job.headless = true ∨ records ≠ [] then
        Delimited.writeFields job.joining (job.shownLabels records)
      else "" := by
  unfold streamedHeader shownLabels knownLabels
  cases headless : job.headless with
  | true =>
    obtain ⟨labels, known⟩ := Option.isSome_iff_exists.mp (given headless)
    simp [shown, known]
  | false =>
    cases records with
    | nil => simp [shown]
    | cons first rest => cases known : job.labels <;> simp [shown, known, streamedLabels]

theorem labels_collect (records : List (List String)) :
    (job.collect records).labels = job.knownLabels records := by
  unfold collect tableOf knownLabels
  cases known : job.labels with
  | some labels => rfl
  | none =>
    have reads : job.headless = false := by
      by_contra headless
      simpa [known] using given (by simpa using headless)
    simp [reads]

theorem labels_transform_collect (ungrouped : job.grouping = none)
    (records : List (List String)) :
    (job.collecting.transform (job.collecting.collect records)).labels =
      if job.knownLabels records ≠ [] then job.shownLabels records else [] := by
  have known : (job.collecting.collect records).labels = job.knownLabels records :=
    @labels_collect job.collecting given records
  have explicit : (job.collecting.collect records).explicitLabels = job.labels.isSome :=
    explicitLabels_collect job.collecting records
  rw [labels_transform_collecting ungrouped, Table.derivesLabels, known, explicit, shownLabels]
  by_cases none : job.knownLabels records = []
  · simp [none]
  · cases job.labels.isSome <;> simp [none]

/-- Sorted by nothing, the collected rows are written as the streamed ones are, behind a line of
labels of their own. -/
theorem finish_collecting_eq (streams : job.needsAllRows = false) (shown : job.hidesLabels = false)
    (records : List (List String)) :
    job.collecting.finish (job.collecting.collect records) =
      .write (job.collectedHeader records ++
        String.join ((job.selectedRecords records).map job.dataLine)) := by
  obtain ⟨onLines, ungrouped, -, form, -⟩ := needsAllRows_eq_false.mp streams
  have rows : (job.collecting.transform (job.collecting.collect records)).rows =
      (job.selectedRecords records).map (Formula.extendRow job.formulas ∘ job.rowOf) := by
    have collected : (job.collecting.collect records).rows =
        (job.selectedRecords records).map job.rowOf := rows_collect_eq_map job.collecting records
    rw [rows_transform_collecting ungrouped, collected, List.map_map]
  rw [finish, write_of_showsLabels job.collecting shown onLines form,
    labels_transform_collect given ungrouped, rows, List.map_map, collectedHeader]
  by_cases known : job.knownLabels records = []
  · rw [if_neg (not_not_intro known), if_neg (not_not_intro rfl), if_neg (not_not_intro known)]
    rfl
  · rw [if_pos known, if_pos (shownLabels_ne_nil known), if_pos known]
    rfl

/-- The two lines are one line that is written under two conditions. -/
theorem streamedHeader_eq_collectedHeader_iff (shown : job.hidesLabels = false)
    (records : List (List String)) :
    (job.streamedHeader records = job.collectedHeader records ↔ job.LabelsInStep records) ∧
      ((job.streamedHeader records = "" ↔ job.collectedHeader records = "") ↔
        job.LabelsInStep records) := by
  have filled := Delimited.writeFields_ne_empty job.joining (job.shownLabels records)
  rw [streamedHeader_eq given shown, collectedHeader, LabelsInStep]
  by_cases place : job.headless = true ∨ records ≠ [] <;>
    by_cases known : job.knownLabels records = [] <;> simp [place, known, filled, filled.symm]

end

/-- Collecting the rows in between shows in the labels only, and there exactly when they are not in
step with their place. A command over records that can write row by row writes the same rows for
every valid input when `sort[]` stands anywhere among its tokens. If it shows its labels, the two
lines of labels are the same, or both missing, exactly when there are labels and a place for them or
neither of the two. -/
theorem run_header_insert_sortByNothing {before after : List String} {job : Job}
    {input : Text.Input} {text : String} (accepted : ofTokens .csv (before ++ after) = .ok job)
    (streams : job.needsAllRows = false) (shown : job.hidesLabels = false)
    (valid : Text.text? input = some text) (nonempty : input ≠ []) :
    ∃ collecting streamed collected lines,
      ofTokens .csv (before ++ "sort[]" :: after) = .ok collecting ∧
      collecting.needsAllRows = true ∧
      job.run input = .write (streamed ++ lines) ∧
      collecting.run input = .write (collected ++ lines) ∧
      (job.apply .hideLabels).run input = .write lines ∧
      (collecting.apply .hideLabels).run input = .write lines ∧
      (streamed = collected ↔
        job.LabelsInStep (Delimited.records job.splitting input).1) ∧
      ((streamed = "" ↔ collected = "") ↔
        job.LabelsInStep (Delimited.records job.splitting input).1) := by
  obtain ⟨onLines, ungrouped, unsorted, form, forward⟩ := needsAllRows_eq_false.mp streams
  have csv : job.mode = .csv := mode_of_ofTokens accepted
  have given := isSome_labels_of_ofTokens accepted shown
  have filled : text ≠ "" := by
    rintro rfl
    exact nonempty (Text.eq_ofText_of_text? valid)
  rw [Text.eq_ofText_of_text? valid]
  generalize known : (Delimited.records job.splitting (.ofText text)).1 = records
  have streamsHidden : (job.apply .hideLabels).needsAllRows = false := streams
  have hidden : (job.apply .hideLabels).stream records =
      String.join ((job.selectedRecords records).map job.dataLine) :=
    @stream_eq (job.apply .hideLabels) forward records
  refine ⟨job.collecting, job.streamedHeader records, job.collectedHeader records,
    String.join ((job.selectedRecords records).map job.dataLine),
    ofTokens_insert_sort read_sortByNothing accepted unsorted, needsAllRows_collecting, ?_, ?_,
    ?_, ?_, (streamedHeader_eq_collectedHeader_iff given shown records).1,
    (streamedHeader_eq_collectedHeader_iff given shown records).2⟩
  · rw [run_ofText job csv filled, runRecords_of_streaming streams, known, stream_eq forward]
  · rw [run_ofText job.collecting csv filled, runRecords_of_collecting needsAllRows_collecting,
      ← finish_collecting_eq given streams shown, ← known]
    rfl
  · rw [run_ofText (job.apply .hideLabels) csv filled, runRecords_of_streaming streamsHidden,
      ← hidden, ← known]
    rfl
  · have commutes : job.collecting.apply .hideLabels = (job.apply .hideLabels).collecting := rfl
    rw [commutes, run_ofText (job.apply .hideLabels).collecting csv filled,
      runRecords_of_collecting needsAllRows_collecting, ← hidden, ← known]
    exact finish_collecting streamsHidden rfl _

/-- A column range and a formula with a label of its own, above records of which none is empty. -/
theorem run_header_insert_sortByNothing_formula :
    ∃ job collecting header lines,
      ofTokens .csv ["col[1:]", "calc([0] * 2)", "row[1:]"] = .ok job ∧
      job.needsAllRows = false ∧ job.hidesLabels = false ∧
      ofTokens .csv ["col[1:]", "calc([0] * 2)", "row[1:]", "sort[]"] = .ok collecting ∧
      collecting.needsAllRows = true ∧
      job.run (.ofText "a b\n1 2\n") = .write (header ++ lines) ∧
      collecting.run (.ofText "a b\n1 2\n") = .write (header ++ lines) := by
  have read : ((ofTokens .csv ["col[1:]", "calc([0] * 2)", "row[1:]"]).toOption.any fun job =>
      !job.needsAllRows && !job.hidesLabels && decide (job.LabelsInStep
        (Delimited.records job.splitting (.ofText "a b\n1 2\n")).1)) = true := by
    decide +kernel
  cases accepted : ofTokens .csv ["col[1:]", "calc([0] * 2)", "row[1:]"] with
  | error fault => simp [accepted, Except.toOption] at read
  | ok job =>
    simp only [accepted, Except.toOption, Option.any_some, Bool.and_eq_true,
      Bool.not_eq_true', decide_eq_true_eq] at read
    obtain ⟨⟨streams, shown⟩, inStep⟩ := read
    obtain ⟨collecting, streamed, collected, lines, inserted, collects, written, sorted, -, -,
        same, -⟩ :=
      @run_header_insert_sortByNothing ["col[1:]", "calc([0] * 2)", "row[1:]"] [] job
        (.ofText "a b\n1 2\n") _ accepted streams shown (Text.text?_ofText _) (by decide)
    rw [← same.mpr inStep] at sorted
    exact ⟨job, collecting, streamed, lines, rfl, streams, shown, inserted, collects, written,
      sorted⟩

/-- The labels of a command are not in step where the input has no records: given labels have no
place then unless the rows are collected. -/
theorem run_omits_given_labels :
    ∃ job collecting,
      ofTokens .csv ["head[a,b]", "split:csv"] = .ok job ∧
      job.needsAllRows = false ∧ job.hidesLabels = false ∧
      ofTokens .csv ["head[a,b]", "split:csv", "sort[]"] = .ok collecting ∧
      job.run (.ofText "\n") = .write "" ∧ collecting.run (.ofText "\n") = .write "a,b\n" := by
  refine ⟨{ ofMode .csv with labels := some ["a", "b"], splitting := .csv },
    { ofMode .csv with labels := some ["a", "b"], splitting := .csv, sorting := some .byNothing },
    ?_, ?_, ?_, ?_, ?_, ?_⟩
  · rfl
  · decide
  · decide
  · rfl
  · rfl
  · rfl

end Job

end Tabular
