import Tabular.Proofs.Decimal.Digits
import Tabular.Proofs.Job.Conversion
import Tabular.Proofs.Job.FailedRuns
import Tabular.Proofs.Job.RowObjects
import Tabular.Proofs.Job.SortedLines
import Tabular.Proofs.Table.Descending
import Tabular.Proofs.Table.SeparateGroups

/-!
# Sorted numbers

A column of numbers is sorted in two ways. Rows of text are sorted by the numbers that the texts
spell. Behind a grouping the cells carry their types, and the keys of the groups are texts, so they
are sorted as texts, and there `10` comes before `9`.
-/

namespace Tabular

namespace Decimal

theorem isDigit_of_mem_natText {n : Nat} {c : Char} (member : c ∈ (natText n).toList) :
    c.isDigit = true := by
  rw [natText, String.toList_ofList] at member
  exact isDigit_of_mem_natChars member

theorem toList_natText_ne_nil (n : Nat) : (natText n).toList ≠ [] := by
  rw [natText, String.toList_ofList]
  exact Nat.toDigits_ne_nil

theorem readInt?_natText (n : Nat) : readInt? (natText n).toList = some (n : Int) := by
  obtain ⟨c, cs, spelled⟩ := List.exists_cons_of_ne_nil (toList_natText_ne_nil n)
  have digit : c.isDigit = true := isDigit_of_mem_natText (spelled ▸ List.mem_cons_self)
  have read : readNat? (c :: cs) = some n := by
    rw [← spelled, natText, String.toList_ofList, readNat?_natChars]
  rw [spelled, readInt?_of_readSign (readSign_of_isDigit digit) read, if_neg Bool.false_ne_true]

end Decimal

theorem Cell.infer_natText {n : Nat} (small : n < 2 ^ 63) :
    Cell.infer (Decimal.natText n) = .int (Int64.ofInt n) := by
  have read : Decimal.readWord? (Decimal.natText n).toList = some (Int64.ofInt n) := by
    rw [Decimal.readWord?, Decimal.readInt?_natText, Option.bind_some,
      (Decimal.word?_of_small small).1]
  simp only [Cell.infer, read]

theorem Cell.render_int_of_small {n : Nat} (small : n < 2 ^ 63) :
    (Cell.int (Int64.ofInt n)).render = Decimal.natText n := by
  rw [render, Decimal.wordText, (Decimal.word?_of_small small).2, Decimal.intText,
    Decimal.intChars, if_neg (by omega)]
  rfl

theorem Text.words_natText (n : Nat) : Text.words (Decimal.natText n) = [Decimal.natText n] := by
  have whole : piecesBy isBlank (Decimal.natText n).toList = [(Decimal.natText n).toList] := by
    rw [piecesBy_eq_splitOnP]
    apply List.splitOnP_eq_singleton
    intro c member
    exact isBlank_of_isDigit (Decimal.isDigit_of_mem_natText member)
  have filled := List.isEmpty_eq_false_iff.mpr (Decimal.toList_natText_ne_nil n)
  rw [words, whole]
  simp [filled]

theorem Delimited.writeFields_natText (n : Nat) :
    writeFields .csv [Decimal.natText n] = Decimal.natText n ++ "\n" := by
  have bare : (Decimal.natText n).toList.any Csv.needsQuotes = false := by
    rw [List.any_eq_false]
    intro c member quoted
    have digit := Decimal.isDigit_of_mem_natText member
    simp only [Csv.needsQuotes, Bool.or_eq_true, beq_iff_eq] at quoted
    rcases quoted with ((rfl | rfl) | rfl) | rfl <;> cases digit
  have filled := List.isEmpty_eq_false_iff.mpr (Decimal.toList_natText_ne_nil n)
  apply String.toList_injective
  rw [writeFields, String.toList_ofList, String.toList_append, List.map_singleton,
    Csv.writeRecord, Csv.writeFields, Csv.writeField, bare]
  simp [filled]

namespace Sorting

section Keys

variable {κ : Type} [LinearOrder κ]

def byKey (key : Nat → κ) (numbers : List Nat) : List Nat :=
  mergeSort (compareOn key) numbers

variable {key : Nat → κ} {numbers : List Nat}

theorem byKey_perm (key : Nat → κ) (numbers : List Nat) : (byKey key numbers).Perm numbers :=
  mergeSort_perm _ numbers

theorem pairwise_byKey (injective : Function.Injective key) (distinct : numbers.Nodup) :
    (byKey key numbers).Pairwise fun m n => key m < key n := by
  have sorted := @pairwise_mergeSort Nat (compareOn key) inferInstance numbers
  refine (sorted.and ((byKey_perm key numbers).nodup_iff.mpr distinct)).imp ?_
  rintro m n ⟨below, different⟩
  apply lt_of_le_of_ne
  · exact compare_le_iff_le.mp (Ordering.isLE_iff_ne_gt.mp below)
  · intro same
    exact different (injective same)

end Keys

/-- The texts of some numbers come in the order of the numbers exactly when of any two numbers the
smaller one has the smaller text. -/
theorem byKey_natText_eq_iff {numbers : List Nat} (distinct : numbers.Nodup) :
    byKey Decimal.natText numbers = byKey id numbers ↔
      ∀ m ∈ numbers, ∀ n ∈ numbers, m < n → Decimal.natText m < Decimal.natText n := by
  have byText := pairwise_byKey Decimal.natText_injective distinct
  have byNumber := pairwise_byKey Function.injective_id distinct
  have perm := byKey_perm id numbers
  constructor
  · intro same m inside n there less
    rw [same] at byText
    let alike (m n : Nat) : Prop :=
      (m < n ∧ Decimal.natText m < Decimal.natText n) ∨
        (n < m ∧ Decimal.natText n < Decimal.natText m)
    have symmetric : Std.Symm alike := ⟨fun _ _ => Or.symm⟩
    have pairs : (byKey id numbers).Pairwise alike := (byNumber.and byText).imp .inl
    have ordered := pairs.forall (perm.mem_iff.mpr inside) (perm.mem_iff.mpr there) less.ne
    obtain ⟨-, kept⟩ | ⟨more, -⟩ := ordered
    · exact kept
    · exact absurd more (lt_asymm less)
  · intro kept
    have perm : (byKey Decimal.natText numbers).Perm (byKey id numbers) :=
      (byKey_perm _ _).trans (byKey_perm _ _).symm
    have sorted : (byKey id numbers).Pairwise
        (fun m n => Decimal.natText m < Decimal.natText n) := by
      refine byNumber.imp_of_mem ?_
      intro m n inside there less
      exact kept m ((byKey_perm _ _).mem_iff.mp inside) n ((byKey_perm _ _).mem_iff.mp there) less
    exact perm.eq_of_pairwise (fun m n _ _ before behind => absurd behind (lt_asymm before))
      byText sorted

end Sorting

namespace Job

/-- Sorts by the first column, which is the only one. -/
def sortsFirst : Job :=
  { ofMode .csv with
    selection := ⟨.ofIndices [0], []⟩
    sorting := some { keys := .ofIndices [0] } }

def groupsFirst : Job :=
  { sortsFirst with grouping := some { keys := .ofIndices [0] } }

theorem ofTokens_sortsFirst : ofTokens .csv ["col[0]", "sort[0]"] = .ok sortsFirst := rfl

theorem ofTokens_groupsFirst :
    ofTokens .csv ["col[0]", "group[0]", "sort[0]"] = .ok groupsFirst := rfl

def textRows (numbers : List Nat) : List Row :=
  numbers.map fun n => [.text (Decimal.natText n)]

def numberLines (numbers : List Nat) : String :=
  String.join (numbers.map fun n => Decimal.natText n ++ "\n")

variable {label : String} {numbers : List Nat}

theorem header_sortsFirst (fields : List String) :
    sortsFirst.selection.header fields = [fields[0]?.getD ""] := by
  have plain : sortsFirst.selection.editsAtPosition 0 = [] := rfl
  have first : (Range.ofIndices [0]).select fields = [(fields[0]?, 0)] := by
    cases fields with
    | nil => rfl
    | cons field fields => simp [Range.select, Range.ofIndices, Range.positions, Range.positionsBy,
        Range.resolve, Range.inBounds?]
  have columns : sortsFirst.selection.columns = .ofIndices [0] := rfl
  simp [Selection.header, columns, first, plain]

theorem collect_sortsFirst (fields : List String) (numbers : List Nat) :
    sortsFirst.collect (fields :: numbers.map fun n => [Decimal.natText n]) =
      { labels := [fields[0]?.getD ""], rows := textRows numbers } := by
  have shape (records : List (List String)) : sortsFirst.collect (fields :: records) =
      { labels := sortsFirst.selection.header fields
        rows := (sortsFirst.collect (fields :: records)).rows } := rfl
  rw [shape, rows_collect_eq_map, selectedRecords_of_all rfl rfl, header_sortsFirst, List.map_map]
  rfl

theorem rows_sort_textRows (label : String) (small : ∀ n ∈ numbers, n < 2 ^ 63) :
    (Table.sort { keys := .ofIndices [0] } { labels := [label], rows := textRows numbers }).rows =
      (Sorting.byKey id numbers).map fun n : Nat => [.int (Int64.ofInt n)] := by
  rw [Table.sort_eq]
  cases numbers with
  | nil => rfl
  | cons n numbers =>
    have columns : Table.sortColumns { keys := .ofIndices [0] }
        { labels := [label], rows := textRows (n :: numbers) } = [0] := rfl
    have compared : Table.comparedRows { keys := .ofIndices [0] }
        { labels := [label], rows := textRows (n :: numbers) } =
          (n :: numbers).map fun n : Nat => [.int (Int64.ofInt n)] := by
      rw [Table.comparedRows, if_neg Bool.false_ne_true, columns, textRows, List.map_map]
      apply List.map_congr_left
      intro m member
      rw [← Cell.infer_natText (small m member)]
      rfl
    rw [columns, compared, Sorting.order_singleton]
    refine (Sorting.mergeSort_map _ _ _).trans (congrArg _ (Sorting.sortHalves_congr ?_))
    refine List.pairwise_of_forall_mem_list ?_
    intro earlier first later second
    have words : Sorting.orderAt false 0 [.int (Int64.ofInt later)] [.int (Int64.ofInt earlier)] =
        compare (Int64.ofInt later).toInt (Int64.ofInt earlier).toInt := rfl
    refine words.trans ?_
    rw [(Decimal.word?_of_small (small later second)).2,
      (Decimal.word?_of_small (small earlier first)).2, ← cmp_eq_compare,
      Nat.strictMono_cast.cmp_map_eq, cmp_eq_compare]
    rfl

theorem rows_sort_typed (label : String) (numbers : List Nat) :
    (Table.sort { keys := .ofIndices [0] }
      { labels := [label], rows := textRows numbers, keyCount := 1, typed := true }).rows =
        textRows (Sorting.byKey Decimal.natText numbers) := by
  rw [Table.sort_eq]
  cases numbers with
  | nil => rfl
  | cons n numbers =>
    have columns : Table.sortColumns { keys := .ofIndices [0] }
        { labels := [label], rows := textRows (n :: numbers), keyCount := 1, typed := true } =
          [0] := rfl
    rw [columns, Table.comparedRows, if_pos rfl, Sorting.order_singleton]
    exact Sorting.mergeSort_map _ _ _

/-- Different numbers make groups of one row each, and these are the rows as they were. -/
theorem rows_group_textRows (label : String) (distinct : numbers.Nodup) :
    (Table.group { keys := .ofIndices [0] } ","
      { labels := [label], rows := textRows numbers }).rows = textRows numbers := by
  cases numbers with
  | nil => rfl
  | cons n numbers =>
    rw [Table.rows_group_eq_map_joinedKeys]
    have joined (n : Nat) :
        Group.joinedKey [0] [.text (Decimal.natText n)] = Decimal.natText n :=
      String.intercalate_singleton
    have keys : Table.groupKeys { keys := .ofIndices [0] }
        { labels := [label], rows := textRows (n :: numbers) } = [0] := rfl
    have values : Table.groupValues { keys := .ofIndices [0] }
        { labels := [label], rows := textRows (n :: numbers) } = [] := rfl
    have texts : Table.joinedKeys { keys := .ofIndices [0] }
        { labels := [label], rows := textRows (n :: numbers) } =
          (n :: numbers).map Decimal.natText := by
      have apart : ((n :: numbers).map Decimal.natText).Nodup :=
        distinct.map Decimal.natText_injective
      rw [Table.joinedKeys, keys, textRows, List.map_map, ← Keyed.eraseDups_eq_self apart]
      exact congrArg List.eraseDups (List.map_congr_left fun n _ => joined n)
    rw [texts, List.map_map]
    apply List.map_congr_left
    intro m member
    have only : (Table.onlyKey { keys := .ofIndices [0] }
        { labels := [label], rows := textRows (n :: numbers) } (Decimal.natText m)).rows =
          [[.text (Decimal.natText m)]] := by
      have filtered (k : Nat) : decide (Group.joinedKey [0] [.text (Decimal.natText k)] =
          Decimal.natText m) = decide (k = m) := by
        rw [joined, decide_eq_decide]
        exact Decimal.natText_injective.eq_iff
      rw [Table.onlyKey, keys, textRows, List.filter_map]
      simp only [Function.comp_def, filtered]
      rw [List.filter_eq, List.count_eq_one_of_mem distinct member]
      rfl
    rw [Function.comp_apply, keys, values, only]
    rfl

theorem transform_groupsFirst (label : String) (distinct : numbers.Nodup) :
    (groupsFirst.transform { labels := [label], rows := textRows numbers }).labels = [label] ∧
      (groupsFirst.transform { labels := [label], rows := textRows numbers }).rows =
        textRows (Sorting.byKey Decimal.natText numbers) := by
  have stages (table : Table) : groupsFirst.transform table =
      (table.group { keys := .ofIndices [0] } ",").sort { keys := .ofIndices [0] } := rfl
  have kept := rows_group_textRows label distinct
  cases numbers with
  | nil => exact ⟨rfl, rfl⟩
  | cons n numbers =>
    have grouped : Table.group { keys := .ofIndices [0] } ","
        { labels := [label], rows := textRows (n :: numbers) } =
          { labels := [label], rows := textRows (n :: numbers), keyCount := 1, typed := true } := by
      have shape (table : Table) (rows : List Row)
          (known : (Table.group { keys := .ofIndices [0] } "," table).rows = rows) :
          Table.group { keys := .ofIndices [0] } "," table =
            { Table.group { keys := .ofIndices [0] } "," table with rows } := by
        rw [← known]
      exact shape _ _ kept
    rw [stages, grouped, rows_sort_typed, Table.sort_eq]
    exact ⟨rfl, rfl⟩

theorem numberLines_injective : Function.Injective numberLines := by
  intro first second same
  have pieces (numbers : List Nat) :
      Text.splitAtChar '\n' (numberLines numbers) = numbers.map Decimal.natText ++ [""] := by
    have ended := Text.splitAtChar_join_ended '\n' (numbers.map Decimal.natText)
    have whole (n : Nat) : Text.splitAtChar '\n' (Decimal.natText n) = [Decimal.natText n] := by
      apply Text.splitAtChar_eq_singleton
      intro feed
      cases Decimal.isDigit_of_mem_natText feed
    rw [List.map_map, List.flatMap_map] at ended
    simp only [whole] at ended
    exact ended.trans (congrArg (· ++ _) List.map_eq_flatMap.symm)
  have texts := (pieces first).symm.trans ((congrArg _ same).trans (pieces second))
  exact List.map_injective_iff.mpr Decimal.natText_injective (List.append_cancel_right texts)

theorem join_textRows (numbers : List Nat) :
    String.join ((textRows numbers).map (Delimited.writeRow .csv none)) = numberLines numbers := by
  rw [textRows, List.map_map]
  refine congrArg String.join (List.map_congr_left fun n _ => ?_)
  rw [Function.comp_apply, Delimited.writeRow_none]
  exact Delimited.writeFields_natText n

theorem join_words (small : ∀ n ∈ numbers, n < 2 ^ 63) :
    String.join ((numbers.map fun n : Nat => [Cell.int (Int64.ofInt n)]).map
      (Delimited.writeRow .csv none)) = numberLines numbers := by
  rw [List.map_map]
  refine congrArg String.join (List.map_congr_left fun n member => ?_)
  rw [Function.comp_apply, Delimited.writeRow_none, List.map_singleton,
    Cell.render_int_of_small (small n member), Delimited.writeFields_natText]

theorem run_eq_finish (job : Job) (csv : job.mode = .csv) (blanks : job.splitting = .blanks)
    (collects : job.needsAllRows = true) (selects : job.collect = sortsFirst.collect)
    {line : String} {input : Text.Input}
    (lines : Text.validLines input.lines = (line :: numbers.map Decimal.natText, false)) :
    job.run input =
      job.finish { labels := [(Text.words line)[0]?.getD ""], rows := textRows numbers } := by
  have nonempty : input ≠ [] := by
    rintro rfl
    cases lines
  have read : Delimited.records .blanks input =
      (Text.words line :: numbers.map fun n => [Decimal.natText n], none) := by
    rw [Delimited.records_of_lines (by decide), lines, List.map_cons, List.map_map]
    simp only [Function.comp_def, Delimited.splitLine, Text.words_natText]
    rfl
  rw [run_of_csv input csv nonempty, runRecords, blanks, read]
  simp only [collects, if_true, selects, collect_sortsFirst]

theorem finish_sortsFirst (label : String) (small : ∀ n ∈ numbers, n < 2 ^ 63) :
    sortsFirst.finish { labels := [label], rows := textRows numbers } =
      .write (Delimited.writeFields .csv [label] ++ numberLines (Sorting.byKey id numbers)) := by
  have inside : ∀ n ∈ Sorting.byKey id numbers, n < 2 ^ 63 := fun n member =>
    small n ((Sorting.byKey_perm id numbers).mem_iff.mp member)
  have labels : (sortsFirst.transform { labels := [label], rows := textRows numbers }).labels =
      [label] := labels_transform rfl rfl _
  have rows : (sortsFirst.transform { labels := [label], rows := textRows numbers }).rows =
      (Sorting.byKey id numbers).map fun n : Nat => [.int (Int64.ofInt n)] :=
    rows_sort_textRows label small
  rw [finish, write_of_showsLabels sortsFirst rfl rfl rfl, labels, rows,
    if_pos (List.cons_ne_nil _ _), ← join_words inside]
  rfl

theorem finish_groupsFirst (label : String) (distinct : numbers.Nodup) :
    groupsFirst.finish { labels := [label], rows := textRows numbers } =
      .write (Delimited.writeFields .csv [label] ++
        numberLines (Sorting.byKey Decimal.natText numbers)) := by
  obtain ⟨labels, rows⟩ := transform_groupsFirst label distinct
  rw [finish, write_of_showsLabels groupsFirst rfl rfl rfl, labels, rows,
    if_pos (List.cons_ne_nil _ _), ← join_textRows]
  rfl

/-- A column of different numbers is written with its lines in the order of the numbers, if it is
sorted as it was read, and in the order of the texts of the numbers, if it is grouped before. The
two runs are the same exactly when of any two of the numbers the smaller one has the smaller
text. -/
theorem run_sorts_numbers {line : String} {numbers : List Nat} {input : Text.Input}
    (small : ∀ n ∈ numbers, n < 2 ^ 63) (distinct : numbers.Nodup)
    (lines : Text.validLines input.lines = (line :: numbers.map Decimal.natText, false)) :
    ∃ sorted grouped label byNumber byText,
      ofTokens .csv ["col[0]", "sort[0]"] = .ok sorted ∧
      ofTokens .csv ["col[0]", "group[0]", "sort[0]"] = .ok grouped ∧
      sorted.run input = .write (label ++ numberLines byNumber) ∧
      grouped.run input = .write (label ++ numberLines byText) ∧
      byNumber.Perm numbers ∧ byNumber.Pairwise (· < ·) ∧
      byText.Perm numbers ∧
      byText.Pairwise (fun m n => Decimal.natText m < Decimal.natText n) ∧
      (grouped.run input = sorted.run input ↔
        ∀ m ∈ numbers, ∀ n ∈ numbers, m < n → Decimal.natText m < Decimal.natText n) := by
  have sorted := run_eq_finish sortsFirst rfl rfl rfl rfl lines
  have grouped := run_eq_finish groupsFirst rfl rfl rfl rfl lines
  rw [finish_sortsFirst _ small] at sorted
  rw [finish_groupsFirst _ distinct] at grouped
  refine ⟨sortsFirst, groupsFirst, _, _, _, ofTokens_sortsFirst, ofTokens_groupsFirst, sorted,
    grouped, Sorting.byKey_perm id numbers, Sorting.pairwise_byKey Function.injective_id distinct,
    Sorting.byKey_perm Decimal.natText numbers,
    Sorting.pairwise_byKey Decimal.natText_injective distinct, ?_⟩
  rw [sorted, grouped, ← Sorting.byKey_natText_eq_iff distinct]
  constructor
  · intro same
    have written := congrArg Outcome.written same
    exact numberLines_injective (String.append_right_inj _ |>.mp written)
  · intro same
    rw [same]

/-- The smaller one of two numbers may have the larger text. -/
theorem run_sorts_numbers_ten :
    (∀ n ∈ [9, 10, 100], n < 2 ^ 63) ∧ [9, 10, 100].Nodup ∧
    Text.validLines (Text.Input.ofText "size\n9\n10\n100\n").lines =
      ("size" :: [9, 10, 100].map Decimal.natText, false) ∧
    ∃ sorted grouped label byNumber byText,
      ofTokens .csv ["col[0]", "sort[0]"] = .ok sorted ∧
      ofTokens .csv ["col[0]", "group[0]", "sort[0]"] = .ok grouped ∧
      sorted.run (.ofText "size\n9\n10\n100\n") = .write (label ++ numberLines byNumber) ∧
      grouped.run (.ofText "size\n9\n10\n100\n") = .write (label ++ numberLines byText) ∧
      byNumber.Perm [9, 10, 100] ∧ byNumber.Pairwise (· < ·) ∧
      byText.Perm [9, 10, 100] ∧
      byText.Pairwise (fun m n => Decimal.natText m < Decimal.natText n) ∧
      (grouped.run (.ofText "size\n9\n10\n100\n") = sorted.run (.ofText "size\n9\n10\n100\n") ↔
        ∀ m ∈ [9, 10, 100], ∀ n ∈ [9, 10, 100], m < n → Decimal.natText m < Decimal.natText n) := by
  have small : ∀ n ∈ [9, 10, 100], n < 2 ^ 63 := by decide
  have distinct : [9, 10, 100].Nodup := by decide
  have lines : Text.validLines (Text.Input.ofText "size\n9\n10\n100\n").lines =
      ("size" :: [9, 10, 100].map Decimal.natText, false) := by decide +kernel
  exact ⟨small, distinct, lines, run_sorts_numbers small distinct lines⟩

/-- `10` is written above `9` behind a grouping. -/
theorem run_sorts_numbers_apart :
    ∃ sorted grouped,
      ofTokens .csv ["col[0]", "sort[0]"] = .ok sorted ∧
      ofTokens .csv ["col[0]", "group[0]", "sort[0]"] = .ok grouped ∧
      Text.validLines (Text.Input.ofText "n\n9\n10\n").lines =
        ("n" :: [9, 10].map Decimal.natText, false) ∧
      sorted.run (.ofText "n\n9\n10\n") = .write "n\n9\n10\n" ∧
      grouped.run (.ofText "n\n9\n10\n") = .write "n\n10\n9\n" := by
  refine ⟨sortsFirst, groupsFirst, rfl, rfl, by decide +kernel, ?_, ?_⟩
  · rfl
  · rfl

end Job

end Tabular
