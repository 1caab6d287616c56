import Tabular.Proofs.Csv.RoundTrip
import Tabular.Proofs.Document.FlatObjects
import Tabular.Proofs.Job.RequestedLabels
import Tabular.Proofs.Job.RowSelection

/-!
# From CSV to JSON and back

A table that is written as JSON and read again at its labels is the same table: the objects hold
every field under its label, and the keys put the fields back into the order of the labels.
-/

namespace Tabular

namespace Range

theorem positions_all (length : Nat) :
    Range.all.positions length = (List.range length).map fun place : Nat => (place : Int) := by
  simp [Range.all, positions, positionsBy, integersFrom]

theorem mem_positionsInBounds_all {place length : Nat} (inside : place < length) :
    place ∈ Range.all.positionsInBounds length :=
  (mem_positionsInBounds_iff inside).mpr (by simp [Range.all, Span.names, inside])

theorem select_all {α : Type} (items : List α) :
    Range.all.select items = items.zipIdx.map fun (item, place) => (some item, (place : Int)) := by
  rw [select, positions_all, List.map_map]
  refine List.ext_getElem (by simp) fun place inside _ => ?_
  have inside : place < items.length := by simpa using inside
  simp [inBounds?, inside]

end Range

namespace Selection

theorem editsAtPosition_all (position : Int) : Selection.all.editsAtPosition position = [] := by
  rw [editsAtPosition]
  split <;> rfl

theorem record_all (fields : List String) : Selection.all.record fields = fields := by
  have columns : Selection.all.columns = Range.all := rfl
  simp only [record, columns, Range.select_all, List.flatMap_map, editsAtPosition_all,
    Edit.applyAll, Option.getD_some]
  exact List.map_eq_flatMap.symm.trans (List.zipIdx_map_fst 0 fields)

theorem header_all (labels : List String) : Selection.all.header labels = labels := by
  have columns : Selection.all.columns = Range.all := rfl
  simp only [header, columns, Range.select_all, List.flatMap_map, editsAtPosition_all,
    List.countP_nil, Nat.zero_add, List.replicate_one, Option.getD_some]
  exact List.map_eq_flatMap.symm.trans (List.zipIdx_map_fst 0 labels)

end Selection

/-- Rows that are no wider than the labels of the table become objects under these: no column lacks
a label, so no name is made up for one. -/
theorem Table.write_of_narrow {job : Job} (onLines : job.lineJoiner = none)
    (json : job.form = .json) (flat : job.levels = 0) {table : Table}
    (derived : table.explicitLabels = false)
    (narrow : ∀ row ∈ table.rows, row.length ≤ table.labels.length) :
    table.write job =
      .ok ((Json.array (table.rows.map (Nesting.objectOf table.labels))).compact ++ "\n") := by
  simp only [Table.write, onLines, json, flat, derived, Nesting.document_of_narrow narrow]
  rfl

namespace Job

variable {job : Job}

theorem selectedRecords_of_all (allRows : job.rows = .all) (labeled : job.headless = false)
    (first : List String) (rest : List (List String)) :
    job.selectedRecords (first :: rest) = rest := by
  have data : ∀ item ∈ rest.zipIdx 1, ((job.headless || item.2 != 0) &&
      decide (item.2 ∈ job.rows.positionsInBounds (first :: rest).length)) = true := by
    intro item member
    have low := List.le_snd_of_mem_zipIdx member
    have high := List.snd_lt_add_of_mem_zipIdx member
    have inside : item.2 < (first :: rest).length := by
      rw [List.length_cons]
      omega
    simp only [allRows, Range.mem_positionsInBounds_all inside, decide_true, Bool.and_true,
      Bool.or_eq_true, bne_iff_ne]
    exact .inr (by omega)
  rw [selectedRecords, List.zipIdx_cons, List.filter_cons, if_neg (by simp [labeled]),
    Nat.zero_add, List.filter_eq_self.mpr data]
  exact List.zipIdx_map_fst 1 rest

def repeatCsv : Job :=
  { ofMode .csv with splitting := .csv }

def csvToJson : Job :=
  { repeatCsv with form := .json }

/-- Writes what documents hold at some keys as CSV. -/
def jsonToCsv (keys : List String) : Job :=
  { ofMode .json with keys := some keys, form := .lines }

theorem ofTokens_repeatCsv : ofTokens .csv ["split:csv"] = .ok repeatCsv :=
  rfl

theorem ofTokens_csvToJson : ofTokens .csv ["split:csv", "out..json"] = .ok csvToJson :=
  rfl

theorem ofTokens_jsonToCsv {labels : List String} (keyLabels : KeyLabels labels) :
    ofTokens .json [Directive.keysToken labels, "out..csv"] = .ok (jsonToCsv labels) :=
  ofTokens_eq_ok_iff.mpr ⟨[.keys labels, .output .lines none],
    .cons (Directive.read_keysToken keyLabels) (.cons rfl .nil), rfl⟩

def csvText (labels : List String) (rows : List (List String)) : String :=
  String.join ((labels :: rows).map (Delimited.writeFields .csv))

def jsonText (labels : List String) (rows : List (List String)) : String :=
  (Json.array (rows.map (Nesting.recordObject labels))).compact ++ "\n"

variable {labels : List String} {rows : List (List String)} {input : Text.Input}

theorem csvText_eq (labels : List String) (rows : List (List String)) :
    csvText labels rows = Delimited.writeFields .csv labels ++
      String.join ((rows.map (List.map Cell.text)).map (Delimited.writeRow .csv none)) := by
  have lines : Delimited.writeRow .csv none ∘ List.map Cell.text = Delimited.writeFields .csv := by
    funext fields
    rw [Function.comp_apply, Delimited.writeRow_none, List.map_map]
    exact congrArg _ (List.map_id fields)
  rw [csvText, List.map_cons, String.join_cons, List.map_map, lines]

theorem streamedHeader_repeatCsv (labels : List String) (rows : List (List String)) :
    repeatCsv.streamedHeader (labels :: rows) = Delimited.writeFields .csv labels := by
  have shown : repeatCsv.streamedLabels labels = labels :=
    (List.append_nil _).trans (Selection.header_all labels)
  have header : repeatCsv.streamedHeader (labels :: rows) =
      Delimited.writeFields .csv (repeatCsv.streamedLabels labels) := rfl
  rw [header, shown]

theorem rowOf_repeatCsv : repeatCsv.rowOf = List.map Cell.text := by
  funext fields
  rw [rowOf, show repeatCsv.selection = .all from rfl, Selection.record_all]

theorem runRecords_repeatCsv (read : Delimited.records .csv input = (labels :: rows, none)) :
    repeatCsv.runRecords input = .write (csvText labels rows) := by
  have lines : repeatCsv.dataLine = Delimited.writeRow .csv none ∘ List.map Cell.text := by
    funext fields
    rw [dataLine, rowOf_repeatCsv]
    exact congrArg _ (Formula.extendRow_nil _)
  have splitting : repeatCsv.splitting = .csv := rfl
  rw [runRecords_of_streams rfl, splitting, read, stream_eq rfl, streamedHeader_repeatCsv, lines,
    selectedRecords_of_all rfl rfl, csvText_eq, List.map_map]
  rfl

theorem collect_csvToJson (labels : List String) (rows : List (List String)) :
    csvToJson.collect (labels :: rows) = { labels, rows := rows.map (List.map Cell.text) } := by
  have shape : csvToJson.collect (labels :: rows) =
      { labels := Selection.all.header labels
        rows := (csvToJson.collect (labels :: rows)).rows } := rfl
  have cells : csvToJson.rowOf = List.map Cell.text := rowOf_repeatCsv
  rw [shape, rows_collect_eq_map, selectedRecords_of_all rfl rfl, Selection.header_all, cells]

theorem runRecords_csvToJson (read : Delimited.records .csv input = (labels :: rows, none))
    (wide : ∀ fields ∈ rows, fields.length = labels.length) :
    csvToJson.runRecords input = .write (jsonText labels rows) := by
  have narrow : ∀ row ∈ rows.map (List.map Cell.text), row.length ≤ labels.length := by
    simpa using fun fields member => (wide fields member).le
  have written : Table.write csvToJson { labels, rows := rows.map (List.map Cell.text) } =
      .ok (jsonText labels rows) := by
    rw [Table.write_of_narrow rfl rfl rfl rfl narrow, List.map_map]
    rfl
  have splitting : csvToJson.splitting = .csv := rfl
  have collects : csvToJson.needsAllRows = true := rfl
  simp only [runRecords, splitting, read, collects, if_true, collect_csvToJson]
  exact congrArg Outcome.ofResult written

theorem readJson_jsonText (labels : List String) (rows : List (List String)) :
    Document.readJson (jsonText labels rows) = .ok (rows.map (Nesting.recordObject labels)) := by
  have textual : Json.Textual Json.depthLimit
      (.array (rows.map (Nesting.recordObject labels))) := by
    refine .array fun item member => ?_
    obtain ⟨fields, -, rfl⟩ := List.mem_map.mp member
    exact Nesting.textual_recordObject labels fields 125
  have objects : (rows.map (Nesting.recordObject labels)).filter Json.isObject =
      rows.map (Nesting.recordObject labels) := by
    refine List.filter_eq_self.mpr fun item member => ?_
    obtain ⟨fields, -, rfl⟩ := List.mem_map.mp member
    rfl
  rw [Document.readJson, jsonText, Json.read_compact textual]
  exact congrArg Except.ok objects

theorem jsonText_visible (labels : List String) (rows : List (List String)) :
    Text.isBlankText (jsonText labels rows) = false := by
  have bracket : '[' ∈ (jsonText labels rows).toList := by
    rw [jsonText, String.toList_append, Json.compact, String.toList_ofList]
    refine List.mem_append_left _ ?_
    cases rows with
    | nil =>
      rw [List.map_nil]
      decide
    | cons => exact List.mem_cons_self
  exact List.all_eq_false.mpr ⟨'[', bracket, by decide⟩

theorem run_of_json (documents : job.mode = .json) {s : String}
    (visible : Text.isBlankText s = false) {read : List Json}
    (valid : Document.readJson s = .ok read) : job.run (.ofText s) = job.runDocuments read := by
  have nonempty : (Text.Input.ofText s).isEmpty = false := by
    cases chars : s.toList with
    | nil => simp [Text.isBlankText, chars] at visible
    | cons c cs => rw [Text.Input.ofText, chars, List.map_cons, List.isEmpty_cons]
  rw [run, nonempty, if_neg Bool.false_ne_true, documents]
  simp only [runText, Text.text?_ofText, visible, Bool.false_eq_true, if_false, readDocuments,
    documents, valid]

theorem run_jsonToCsv (keyLabels : KeyLabels labels)
    (wide : ∀ fields ∈ rows, fields.length = labels.length) :
    (jsonToCsv labels).run (.ofText (jsonText labels rows)) = .write (csvText labels rows) := by
  have flattened : (rows.map (Nesting.recordObject labels)).flatMap
      (Document.flatten (KeyTree.ofKeys labels) labels) = rows.map (List.map Cell.text) := by
    rw [List.flatMap_map, List.map_eq_flatMap]
    refine List.flatMap_congr fun fields member => ?_
    exact Document.flatten_recordObject keyLabels.filled keyLabels.distinct keyLabels.named
      (fun label known => (keyLabels.plain label known).2.2) (wide fields member)
  rw [run_of_json rfl (jsonText_visible labels rows) (readJson_jsonText labels rows), csvText_eq,
    ← flattened]
  -- Without labels the job would list the key paths instead.
  obtain ⟨first, more, rfl⟩ := List.exists_cons_of_ne_nil keyLabels.filled
  rfl

theorem records_csvText (filled : labels ≠ [])
    (unmarked : ∀ label ∈ labels.head?, label.toList.head? ≠ some '\ufeff')
    (wide : ∀ fields ∈ rows, fields.length = labels.length) :
    Delimited.records .csv (.ofText (csvText labels rows)) = (labels :: rows, none) := by
  have widths : ∀ fields ∈ labels :: rows, fields ≠ [] := by
    refine List.forall_mem_cons.mpr ⟨filled, fun fields member empty => filled ?_⟩
    rw [← List.length_eq_zero_iff, ← wide fields member, empty, List.length_nil]
  rw [Delimited.records, csvText, Text.Input.ofText, Delimited.toList_join_writeFields,
    Csv.records_writeRecords widths (by simpa using unmarked)]

/-- A table of texts survives the way through JSON. However it is spelled as CSV, the documents that
are made from its records give its own text when they are asked for at the labels, and so does a job
that only repeats the records. The labels may come in any order, and the cells may hold anything. -/
theorem run_csv_through_json (keyLabels : KeyLabels labels)
    (unmarked : ∀ label ∈ labels.head?, label.toList.head? ≠ some '\ufeff')
    (wide : ∀ fields ∈ rows, fields.length = labels.length) :
    ∃ repeating nesting flattening,
      ofTokens .csv ["split:csv"] = .ok repeating ∧
      ofTokens .csv ["split:csv", "out..json"] = .ok nesting ∧
      ofTokens .json ["keys[" ++ ",".intercalate labels ++ "]", "out..csv"] = .ok flattening ∧
      Delimited.records .csv (.ofBytes (csvText labels rows).toUTF8.toList) =
        (labels :: rows, none) ∧
      ∀ input, Delimited.records .csv input = (labels :: rows, none) →
        nesting.run input = .write (jsonText labels rows) ∧
        repeating.run input = .write (csvText labels rows) ∧
        flattening.run (.ofBytes (jsonText labels rows).toUTF8.toList) = repeating.run input := by
  refine ⟨repeatCsv, csvToJson, jsonToCsv labels, ofTokens_repeatCsv, ofTokens_csvToJson,
    ofTokens_jsonToCsv keyLabels, ?_, fun input read => ?_⟩
  · rw [Text.ofBytes_toUTF8]
    exact records_csvText keyLabels.filled unmarked wide
  · have nonempty : input ≠ [] := by
      rintro rfl
      exact absurd (congrArg Prod.fst read) (List.cons_ne_nil _ _).symm
    have repeated : repeatCsv.run input = .write (csvText labels rows) := by
      rw [run_of_csv input rfl nonempty, runRecords_repeatCsv read]
    refine ⟨?_, repeated, ?_⟩
    · rw [run_of_csv input rfl nonempty, runRecords_csvToJson read wide]
    · rw [Text.ofBytes_toUTF8, run_jsonToCsv keyLabels wide, repeated]

/-- Labels out of order, cells that look like JSON or hold quotes, line ends and control characters,
and a text with other quotes and line ends than the job itself would write. -/
theorem run_csv_through_json_quotes :
    let labels := ["size", "an [id", "\""]
    let rows := [["1,5", "", "\"\n\\"], ["null", "\u0000\t", "\ufeff "]]
    let text := "size,\"an [id\",\"\"\"\"\r\n" ++
      "\"1,5\",,\"\"\"\n\\\"\r\n\"null\",\u0000\t,\ufeff "
    let documents :=
      "[\x7b\"\\\"\":\"\\\"\\n\\\\\",\"an [id\":\"\",\"size\":\"1,5\"\x7d," ++
      "\x7b\"\\\"\":\"\ufeff \",\"an [id\":\"\\u0000\\t\",\"size\":\"null\"\x7d]\n"
    KeyLabels labels ∧
    (∀ label ∈ labels.head?, label.toList.head? ≠ some '\ufeff') ∧
    (∀ fields ∈ rows, fields.length = labels.length) ∧
    Delimited.records .csv (.ofText text) = (labels :: rows, none) ∧
    ∃ repeating nesting flattening,
      ofTokens .csv ["split:csv"] = .ok repeating ∧
      ofTokens .csv ["split:csv", "out..json"] = .ok nesting ∧
      ofTokens .json ["keys[size,an [id,\"]", "out..csv"] = .ok flattening ∧
      nesting.run (.ofText text) = .write documents ∧
      flattening.run (.ofBytes documents.toUTF8.toList) = repeating.run (.ofText text) := by
  intro labels rows text documents
  have keyLabels : KeyLabels labels :=
    ⟨by decide, by decide, by decide, by decide, by decide +kernel⟩
  have unmarked : ∀ label ∈ labels.head?, label.toList.head? ≠ some '\ufeff' := by decide
  have wide : ∀ fields ∈ rows, fields.length = labels.length := by decide
  have read : Delimited.records .csv (.ofText text) = (labels :: rows, none) :=
    Prod.ext (by decide +kernel) rfl
  have spelled : jsonText labels rows = documents := by decide +kernel
  obtain ⟨repeating, nesting, flattening, repeats, nests, flattens, -, runs⟩ :=
    run_csv_through_json keyLabels unmarked wide
  obtain ⟨nested, -, flattened⟩ := runs _ read
  rw [spelled] at nested flattened
  exact ⟨keyLabels, unmarked, wide, read,
    ⟨repeating, nesting, flattening, repeats, nests, flattens, nested, flattened⟩⟩

end Job

end Tabular
