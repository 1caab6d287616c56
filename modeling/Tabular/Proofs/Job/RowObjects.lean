import Tabular.Proofs.Decimal.Digits
import Tabular.Proofs.Document.FlatObjects
import Tabular.Proofs.Job.HeaderLine
import Tabular.Proofs.Table.Unnesting

/-!
# Rows as flat objects

Without levels each row becomes an object with its cells under the labels, and under names by
position where there are no labels. The object holds the whole row if and only if no two of these
names are the same, since a cell takes the place of an earlier one of its name.
-/

namespace Tabular

/-- The object has a member for each cell of the row, and no other members. -/
structure Json.HoldsRow (object : Json) (row : Row) : Prop where
  members : object.members.length = row.length
  cells : ∀ cell ∈ row, ∃ name, (name, cell.toJson) ∈ object.members

namespace Nesting

variable {labels names : List String} {rows : List Row} {row : Row}

def positionalName (column : Nat) : String :=
  "col" ++ Decimal.natText column

theorem positionalName_injective : Function.Injective positionalName := by
  intro first second same
  apply Decimal.natText_injective
  apply String.toList_injective
  have letters := congrArg String.toList same
  rw [positionalName, positionalName, String.toList_append, String.toList_append] at letters
  exact List.append_cancel_left letters

theorem positionalNames_eq (labels : List String) (width : Nat) :
    positionalNames labels width =
      labels ++ (List.range' labels.length (width - labels.length)).map positionalName :=
  rfl

theorem take_positionalNames {width : Nat} (wide : row.length ≤ width) :
    (positionalNames labels width).take row.length =
      positionalNames (labels.take row.length) row.length := by
  rw [positionalNames_eq, positionalNames_eq, List.take_append, ← List.map_take, List.length_take]
  obtain named | beyond := Nat.le_total row.length labels.length
  · rw [Nat.min_eq_left named, Nat.sub_self, Nat.sub_eq_zero_of_le named]
    rfl
  · rw [Nat.min_eq_right beyond]
    congr 2
    exact List.ext_getElem (by simp; omega) fun place _ _ => by simp

theorem nodup_positionalNames_iff {width : Nat} :
    (positionalNames labels width).Nodup ↔ labels.Nodup ∧
      ∀ column, labels.length ≤ column → column < width → positionalName column ∉ labels := by
  have apart : ((List.range' labels.length (width - labels.length)).map positionalName).Nodup :=
    (List.nodup_range' ..).map positionalName_injective
  rw [positionalNames_eq, List.nodup_append']
  constructor
  · rintro ⟨distinct, -, disjoint⟩
    refine ⟨distinct, fun column behind inside member => disjoint member ?_⟩
    exact List.mem_map_of_mem (List.mem_range'_1.mpr ⟨behind, by omega⟩)
  · rintro ⟨distinct, unused⟩
    refine ⟨distinct, apart, fun name member later => ?_⟩
    obtain ⟨column, place, rfl⟩ := List.mem_map.mp later
    obtain ⟨behind, inside⟩ := List.mem_range'_1.mp place
    exact unused column behind (by omega) member

theorem map_fst_zip_cells (wide : row.length ≤ names.length) :
    (List.zip names (row.map Cell.toJson)).map Prod.fst = names.take row.length := by
  have same : (names.take row.length).length ≤ (row.map Cell.toJson).length := by
    rw [List.length_take, List.length_map]
    exact Nat.min_le_left ..
  rw [List.zip_eq_zip_take_min, List.length_map, Nat.min_eq_right wide, ← List.map_take,
    List.take_length, List.map_fst_zip same]

/-- An object holds the row that it was made of if the names of the cells are distinct, and only
then. -/
theorem holdsRow_objectOf_iff (wide : row.length ≤ names.length) :
    (objectOf names row).HoldsRow row ↔ (names.take row.length).Nodup := by
  have members : (objectOf names row).members =
      Keyed.sorted (List.zip names (row.map Cell.toJson)) := rfl
  have count : (List.zip names (row.map Cell.toJson)).length = row.length := by
    rw [List.length_zip, List.length_map, Nat.min_eq_right wide]
  rw [← map_fst_zip_cells wide]
  constructor
  · intro holds
    apply Keyed.length_sorted_eq_iff.mp
    rw [count, ← members, holds.members]
  · intro distinct
    refine ⟨?_, fun cell known => ?_⟩
    · rw [members, Keyed.length_sorted_eq_iff.mpr distinct, count]
    · have values : (List.zip names (row.map Cell.toJson)).map Prod.snd = row.map Cell.toJson :=
        List.map_snd_zip (by simpa using wide)
      have value : cell.toJson ∈ row.map Cell.toJson := List.mem_map_of_mem known
      rw [← values] at value
      obtain ⟨⟨name, _⟩, pair, rfl⟩ := List.mem_map.mp value
      exact ⟨name, members ▸ (Keyed.perm_sorted distinct).mem_iff.mpr pair⟩

theorem holdsRow_of_document_iff (member : row ∈ rows) :
    (objectOf (positionalNames labels (rows.foldl (fun n row => max n row.length) 0)) row).HoldsRow
        row ↔
      (labels.take row.length).Nodup ∧ ∀ column, labels.length ≤ column → column < row.length →
        positionalName column ∉ labels := by
  have wide : row.length ≤ rows.foldl (fun n row => max n row.length) 0 :=
    (Layout.foldl_max_le_iff _).mp (Nat.le_refl _) |>.2 row member
  have named : row.length ≤ (positionalNames labels
      (rows.foldl (fun n row => max n row.length) 0)).length := by
    rw [positionalNames_eq, List.length_append, List.length_map, List.length_range']
    omega
  rw [holdsRow_objectOf_iff named, take_positionalNames wide, nodup_positionalNames_iff,
    List.length_take]
  refine and_congr_right fun _ => ⟨fun unused column behind inside => ?_,
    fun unused column behind inside => ?_⟩
  · have whole : labels.take row.length = labels := List.take_of_length_le (by omega)
    have absent := unused column (by omega) inside
    rwa [whole] at absent
  · have beyond : labels.length ≤ column := by omega
    exact fun known => unused column beyond inside (List.mem_of_mem_take known)

end Nesting

theorem Table.explicitLabels_group (grouping : Grouping) (joiner : String) (table : Table) :
    (table.group grouping joiner).explicitLabels = table.explicitLabels := by
  unfold group
  split <;> rfl

theorem Table.explicitLabels_sort (sorting : Sorting) (table : Table) :
    (table.sort sorting).explicitLabels = table.explicitLabels := by
  unfold sort
  split <;> rfl

namespace Job

variable {job : Job}

/-- The table after the first stage. -/
def grouped (job : Job) (table : Table) : Table :=
  job.grouping.elim table fun grouping => table.group grouping job.inner

theorem transform_eq_grouped (job : Job) (table : Table) :
    job.transform table =
      let extended :=
        if job.formulas.isEmpty then job.grouped table
        else (job.grouped table).compute job.formulas
      job.sorting.elim extended extended.sort := rfl

theorem explicitLabels_grouped (job : Job) (table : Table) :
    (job.grouped table).explicitLabels = table.explicitLabels := by
  unfold grouped
  cases job.grouping with
  | none => rfl
  | some grouping => exact Table.explicitLabels_group grouping job.inner table

theorem explicitLabels_transform (job : Job) (table : Table) :
    (job.transform table).explicitLabels = table.explicitLabels := by
  rw [transform_eq_grouped, ← explicitLabels_grouped job table]
  cases job.sorting with
  | none => simp only [Option.elim_none]; split <;> rfl
  | some sorting => simp only [Option.elim_some, Table.explicitLabels_sort]; split <;> rfl

def rowObjects (table : Table) : List Json :=
  table.rows.map (Nesting.objectOf (Nesting.positionalNames table.labels
    (table.rows.foldl (fun n row => max n row.length) 0)))

theorem finish_of_flat (json : job.form = .json) (flat : job.levels = 0)
    (onLines : job.lineJoiner = none) {table : Table} (derived : table.explicitLabels = false) :
    job.finish table =
      .write ((Json.array (rowObjects (job.transform table))).compact ++ "\n") := by
  have kept : (job.transform table).explicitLabels = false :=
    (explicitLabels_transform job table).trans derived
  simp only [finish, Table.write, onLines, json, flat, kept, Nesting.document_flat]
  rfl

/-- A command over records that writes flat JSON without given labels writes one object for each row
of its table. The object holds the row, with a member for each cell and no others, if and only if
the labels above the cells of the row are distinct and none of them is the name that a column
without a label gets by its position. Otherwise a cell takes the place of another one. -/
theorem run_holds_rows_iff {tokens : List String} {input : Text.Input}
    {records : List (List String)} {flaw : Option Cause}
    (accepted : ofTokens .csv tokens = .ok job) (json : job.form = .json)
    (flat : job.levels = 0) (unnamed : job.labels = none) (onLines : job.lineJoiner = none)
    (read : Delimited.records job.splitting input = (records, flaw)) :
    let table := job.transform (job.collect records)
    (input = [] → job.run input = .fail .noData) ∧
    (input ≠ [] → ∀ cause, flaw = some cause → job.run input = .fail cause) ∧
    (input ≠ [] → flaw = none → ∃ objects,
      job.run input = .write ((Json.array objects).compact ++ "\n") ∧
      List.Forall₂ (fun (object : Json) (row : Row) =>
        object.HoldsRow row ↔ (table.labels.take row.length).Nodup ∧
          ∀ column, table.labels.length ≤ column → column < row.length →
            Nesting.positionalName column ∉ table.labels) objects table.rows) := by
  intro table
  have csv : job.mode = .csv := mode_of_ofTokens accepted
  have collects : job.needsAllRows = true := by
    simp [needsAllRows, json]
  refine ⟨?_, ?_, ?_⟩
  · rintro rfl
    rfl
  · intro nonempty cause flawed
    rw [run_of_csv input csv nonempty, runRecords, read, flawed]
    simp only [collects, if_true]
  · intro nonempty complete
    have derived : (job.collect records).explicitLabels = false := by
      rw [explicitLabels_collect, unnamed]
      rfl
    refine ⟨rowObjects table, ?_, ?_⟩
    · rw [run_of_csv input csv nonempty, runRecords, read, complete]
      simp only [collects, if_true]
      exact finish_of_flat json flat onLines derived
    · rw [rowObjects, List.forall₂_map_left_iff, List.forall₂_same]
      intro row member
      exact Nesting.holdsRow_of_document_iff member

def addingToJson : Job :=
  { ofMode .csv with
    splitting := .csv
    selection := ⟨.all, [(1, [{ tail := some "x", adds := true }])]⟩
    form := .json }

/-- An added field has the label of the field before it. The wide row is not held, and the short
one, which has no second field, is. -/
theorem run_holds_rows_iff_adding :
    let tokens := ["split:csv", "tr..c1..sfx:x..add", "out..json"]
    let input := Text.Input.ofText "a,b\n1,2,3\n4\n"
    let records := [["a", "b"], ["1", "2", "3"], ["4"]]
    let table := addingToJson.transform (addingToJson.collect records)
    ofTokens .csv tokens = .ok addingToJson ∧ addingToJson.form = .json ∧
    addingToJson.levels = 0 ∧ addingToJson.labels = none ∧ addingToJson.lineJoiner = none ∧
    Delimited.records addingToJson.splitting input = (records, none) ∧ input ≠ [] ∧
    table.labels = ["a", "b", "b"] ∧
    table.rows = [[.text "1", .text "2", .text "2x", .text "3"], [.text "4"]] ∧
    ∃ objects, addingToJson.run input = .write ((Json.array objects).compact ++ "\n") ∧
      List.Forall₂ (fun (object : Json) (row : Row) =>
        object.HoldsRow row ↔ (table.labels.take row.length).Nodup ∧
          ∀ column, table.labels.length ≤ column → column < row.length →
            Nesting.positionalName column ∉ table.labels) objects table.rows := by
  intro tokens input records table
  have accepted : ofTokens .csv tokens = .ok addingToJson := rfl
  have read : Delimited.records addingToJson.splitting input = (records, none) :=
    Prod.ext (by decide +kernel) rfl
  have nonempty : input ≠ [] := by decide
  exact ⟨accepted, rfl, rfl, rfl, rfl, read, nonempty, by decide +kernel, rfl,
    (run_holds_rows_iff accepted rfl rfl rfl rfl read).2.2 nonempty rfl⟩

/-- The one object of the run has the added field under the label and not the field itself. -/
theorem run_loses_cell :
    ∃ job table, ofTokens .csv ["split:csv", "tr..c0..pfx:x..add", "out..json"] = .ok job ∧
      job.form = .json ∧ job.levels = 0 ∧ job.labels = none ∧
      job.transform (job.collect [["a"], ["1"]]) = table ∧
      table.rows = [[.text "1", .text "x1"]] ∧
      job.run (.ofText "a\n1\n") =
        .write ((Json.array [.object [("a", .string "x1")]]).compact ++ "\n") ∧
      ¬ (Json.object [("a", .string "x1")]).HoldsRow [.text "1", .text "x1"] := by
  let job : Job :=
    { ofMode .csv with
      splitting := .csv
      selection := ⟨.all, [(0, [{ lead := some "x", adds := true }])]⟩
      form := .json }
  refine ⟨job, _, rfl, rfl, rfl, rfl, rfl, rfl, ?_, ?_⟩
  · have read : Delimited.records .csv (.ofText "a\n1\n") = ([["a"], ["1"]], none) :=
      Prod.ext (by decide +kernel) rfl
    have objects : rowObjects (job.transform (job.collect [["a"], ["1"]])) =
        [.object [("a", .string "x1")]] := rfl
    rw [run_of_csv _ rfl (by decide), ← objects]
    simp only [runRecords, show job.splitting = .csv from rfl, read]
    exact finish_of_flat rfl rfl rfl rfl
  · intro holds
    exact absurd holds.members (by decide)

end Job

end Tabular
