import Tabular.Proofs.Job.Streaming
import Tabular.Proofs.Range.WordLengths

/-!
# The rows of a job

Which records become rows does not depend on how the job goes through them: written one by one or
collected in a table, they are the records at the positions of the row range, in their order.
-/

namespace Tabular

namespace Job

/-- The records at the positions of the row range, in their order. The first record is no row when
it holds the labels. -/
def selectedRecords (job : Job) (records : List (List String)) : List (List String) :=
  (records.zipIdx.filter fun (_, index) =>
    (job.headless || index != 0) &&
      decide (index ∈ job.rows.positionsInBounds records.length)).map Prod.fst

/-- The line of labels above rows that are written one by one. -/
def streamedHeader (job : Job) (records : List (List String)) : String :=
  if job.hidesLabels then ""
  else if job.headless then (job.labels.map (Delimited.writeFields job.joining)).getD ""
  else (records.head?.map fun fields =>
    Delimited.writeFields job.joining (job.streamedLabels fields)).getD ""

theorem contains_eq_of_mem_zipIdx (range : Range) {records : List (List String)}
    {record : List String × Nat} (member : record ∈ records.zipIdx) :
    range.contains record.2 (some records.length) =
      decide (record.2 ∈ range.positionsInBounds records.length) := by
  have inside := List.snd_lt_of_mem_zipIdx member
  exact Range.contains_some (by omega)

section

variable {job : Job}

/-- It does not matter that the length of the records is left out where the range does not need
it. -/
theorem filter_takes (records : List (List String)) :
    (records.zipIdx.filter fun (_, index) =>
      job.takes index (if job.rows.needsLength then some records.length else none)).map Prod.fst =
      job.selectedRecords records := by
  refine congrArg (List.map Prod.fst) (List.filter_congr fun record member => ?_)
  have selected := contains_eq_of_mem_zipIdx job.rows member
  simp only [takes, ← selected]
  split
  · rfl
  · rename_i forward
    rw [Range.contains_none (by simpa using forward) _ records.length]

theorem rows_collect_eq_map (job : Job) (records : List (List String)) :
    (job.collect records).rows = (job.selectedRecords records).map job.rowOf := by
  rw [rows_collect, ← filter_takes, List.map_map]
  rfl

theorem join_streamedLine {items : List (List String × Nat)}
    (data : ∀ item ∈ items, (job.headless || item.2 != 0) = true) :
    String.join (items.map fun (fields, index) => job.streamedLine index fields) =
      String.join ((items.filter fun (_, index) => job.takes index none).map
        fun (fields, _) => job.dataLine fields) := by
  rw [← join_map_ite]
  refine congrArg String.join (List.map_congr_left fun item member => ?_)
  have noLabels : (item.2 = 0 && !job.headless) = false := by
    have shown := data item member
    revert shown
    cases job.headless <;> simp
  simp only [streamedLine, noLabels, takes, data item member, Bool.true_and, dataLine]
  simp

/-- Behind the labels there is one line for each record that is taken. -/
theorem stream_eq_filter (records : List (List String)) :
    job.stream records =
      job.streamedHeader records ++
        String.join ((records.zipIdx.filter fun (_, index) => job.takes index none).map
          fun (fields, _) => job.dataLine fields) := by
  cases headless : job.headless with
  | true =>
    have lines := @join_streamedLine job records.zipIdx (by simp [headless])
    rw [stream, lines, streamedHeader]
    simp [headless]
  | false =>
    cases records with
    | nil => simp [stream, streamedHeader, headless]
    | cons first rest =>
      have lines := @join_streamedLine job (rest.zipIdx 1) fun item member => by
        have := List.le_snd_of_mem_zipIdx member
        simp [Nat.ne_of_gt this]
      have label : job.takes 0 none = false := by simp [takes, headless]
      rw [stream, List.zipIdx_cons, List.map_cons, String.join_cons, lines]
      simp [streamedHeader, headless, label, streamedLine]

theorem stream_eq (forward : job.rows.needsLength = false) (records : List (List String)) :
    job.stream records =
      job.streamedHeader records ++
        String.join ((job.selectedRecords records).map job.dataLine) := by
  have selected := @filter_takes job records
  rw [forward] at selected
  rw [stream_eq_filter, ← selected, List.map_map]
  rfl

theorem runRecords_eq_join (input : Text.Input) (streams : job.needsAllRows = false) :
    job.runRecords input =
      ⟨job.streamedHeader (Delimited.records job.splitting input).1 ++
        String.join ((job.selectedRecords (Delimited.records job.splitting input).1).map
          job.dataLine), (Delimited.records job.splitting input).2⟩ := by
  have forward := (needsAllRows_eq_false.mp streams).2.2.2.2
  rw [← stream_eq forward]
  exact runRecords_of_streams streams input

end

/-- All ways to use a range agree for the lengths that a signed word can hold. A position is tested
with the length as it is listed, and without the length too if no index is negative; an excluded
span gives the other positions in ascending order; and a range of words, as every range is that was
read, has the positions that it has in a list of that length. So a job over records makes rows of
the records at the positions of its row range, in their order and without the record of the labels,
both when it writes rows as they come and when it collects them before they are grouped, extended
and sorted. A flaw of the input stops the first kind of job behind the records before it and the
second kind before its first row. -/
theorem run_selects_positions :
    (∀ (range : Range) (length p : UInt64),
      (length.toNat < 2 ^ 63 → p < length →
        (range.wordContains p (some length) = true ↔
          p.toNat ∈ range.wordPositionsInBounds length)) ∧
      (range.needsLength = false →
        range.wordContains p none = range.wordContains p (some length))) ∧
    (∀ (span : Span) (length : UInt64),
      (Range.wordPositions ⟨span, true⟩ length).Pairwise (· < ·) ∧
      (length.toNat < 2 ^ 63 → ∀ i : Int, i ∈ Range.wordPositions ⟨span, true⟩ length ↔
        ∃ p < length.toNat, i = p ∧ p ∉ Range.wordPositionsInBounds ⟨span, false⟩ length)) ∧
    (∀ spec : String, (Range.read spec).HoldsWords) ∧
    (∀ (range : Range) (length : UInt64), range.HoldsWords → length.toNat < 2 ^ 63 →
      range.wordPositionsInBounds length = range.positionsInBounds length.toNat ∧
      ∀ p < length,
        range.wordContains p (some length) = range.contains p.toNat (some length.toNat)) ∧
    ∀ (job : Job) (input : Text.Input), job.mode = .csv →
      ∀ records flaw, Delimited.records job.splitting input = (records, flaw) →
        (input = [] → job.run input = .fail .noData) ∧
        (input ≠ [] → job.needsAllRows = false →
          job.run input = ⟨job.streamedHeader records ++
            String.join ((job.selectedRecords records).map job.dataLine), flaw⟩) ∧
        (input ≠ [] → job.needsAllRows = true →
          job.run input = flaw.elim (job.finish (job.collect records)) Outcome.fail) ∧
        (job.collect records).rows = (job.selectedRecords records).map job.rowOf := by
  refine ⟨fun range length p => ⟨fun small inside => ?_, ?_⟩, fun span length => ⟨?_, ?_⟩,
    Range.holdsWords_read, ?_, ?_⟩
  · rw [Range.wordContains_some small inside, decide_eq_true_eq]
  · exact fun forward => Range.wordContains_none forward p length
  · exact Range.pairwise_positionsBy_excluded span _ _
  · exact fun small i => Range.mem_wordPositions_excluded small
  · exact fun range length words small => ⟨Range.wordPositionsInBounds_eq words small,
      fun p inside => Range.wordContains_eq words small inside⟩
  · intro job input csv records flaw read
    refine ⟨?_, fun nonempty streams => ?_, fun nonempty collects => ?_,
      rows_collect_eq_map job records⟩
    · rintro rfl
      rfl
    · rw [run_of_csv input csv nonempty, runRecords_eq_join input streams, read]
    · rw [run_of_csv input csv nonempty, runRecords, read]
      cases flaw <;> simp [collects]

/-- Positions that come back and lie out of order, with and without negative indices, in a job that
streams and in one that collects. -/
theorem run_selects_positions_reversed :
    let backward : Range := ⟨.listed [3, -4, 3], true⟩
    let forward : Range := ⟨.interval (some 1) none, true⟩
    let input := Text.Input.ofText "h\na\n\nb c\nd"
    let records := [["h"], ["a"], [], ["b", "c"], ["d"]]
    let streaming : Job := { ofMode .csv with rows := ⟨.listed [3, 1, 3], false⟩ }
    let collecting : Job := { ofMode .csv with rows := ⟨.interval (some (-4)) (some 3), true⟩ }
    (backward.wordContains 2 (some 5) = true ∧ 2 ∈ backward.wordPositionsInBounds 5 ∧
      backward.wordContains 1 (some 5) = false ∧ 1 ∉ backward.wordPositionsInBounds 5) ∧
    (forward.needsLength = false ∧ forward.wordContains 0 none = true ∧
      forward.wordContains 0 (some 5) = true) ∧
    (backward.wordPositions 5 = [0, 2, 4] ∧
      Range.wordPositionsInBounds ⟨backward.span, false⟩ 5 = [3, 1, 3] ∧
      (∀ i : Int, i ∈ backward.wordPositions 5 ↔
        ∃ p : Nat, p < 5 ∧ i = p ∧ p ∉ Range.wordPositionsInBounds ⟨backward.span, false⟩ 5)) ∧
    (backward.HoldsWords ∧ backward.positionsInBounds 5 = [0, 2, 4]) ∧
    (streaming.needsAllRows = false ∧ streaming.selectedRecords records = [["a"], ["b", "c"]] ∧
      streaming.run input = ⟨"h\na\nb,c\n", none⟩) ∧
    (collecting.needsAllRows = true ∧ collecting.selectedRecords records = [["b", "c"], ["d"]] ∧
      collecting.run input = ⟨"h\nb,c\nd\n", none⟩ ∧
      (collecting.collect records).rows = [[.text "b", .text "c"], [.text "d"]]) := by
  intro backward forward input records streaming collecting
  have small : (5 : UInt64).toNat < 2 ^ 63 := by decide
  have selected := run_selects_positions.1 backward 5
  have second : 2 ∈ backward.wordPositionsInBounds 5 := by decide
  have first : 1 ∉ backward.wordPositionsInBounds 5 := by decide
  have noLength : forward.needsLength = false := by decide
  have known : forward.wordContains 0 (some 5) = true := by decide
  have words : backward.HoldsWords := by
    unfold Range.HoldsWords Range.IsWord
    decide
  have nonempty : input ≠ [] := by decide
  have read : Delimited.records .blanks input = (records, none) :=
    Prod.ext (by decide +kernel) rfl
  have streams : streaming.needsAllRows = false := by decide
  have collects : collecting.needsAllRows = true := by decide
  have lines : streaming.streamedHeader records ++
      String.join ((streaming.selectedRecords records).map streaming.dataLine) = "h\na\nb,c\n" := by
    decide +kernel
  have written : (collecting.finish (collecting.collect records)).written = "h\nb,c\nd\n" := by
    decide +kernel
  have failure : (collecting.finish (collecting.collect records)).failure = none := by
    decide +kernel
  have runs := run_selects_positions.2.2.2.2
  refine ⟨⟨((selected 2).1 small (by decide)).mpr second, second, ?_, first⟩,
    ⟨noLength, ?_, known⟩,
    ⟨by decide, by decide, (run_selects_positions.2.1 backward.span 5).2 small⟩,
    ⟨words, ?_⟩, ⟨streams, by decide +kernel, ?_⟩, ⟨collects, by decide +kernel, ?_, ?_⟩⟩
  · rw [← Bool.not_eq_true, (selected 1).1 small (by decide)]
    exact first
  · rw [(run_selects_positions.1 forward 5 0).2 noLength, known]
  · have same := (run_selects_positions.2.2.2.1 backward 5 words small).1
    exact same.symm.trans (by decide)
  · rw [(runs streaming input rfl records none read).2.1 nonempty streams]
    exact congrArg (Outcome.mk · none) lines
  · exact ((runs collecting input rfl records none read).2.2.1 nonempty collects).trans
      (congr (congrArg Outcome.mk written) failure)
  · rw [(runs collecting input rfl records none read).2.2.2]
    rfl

/-- From the first length that no signed word can hold, no position is listed although each is
contained; and a job that collects rows writes none of the selected records in front of a flaw. -/
theorem run_loses_selected :
    (Range.all.wordContains 0 (some 0x8000000000000000) = true ∧
      Range.all.wordPositionsInBounds 0x8000000000000000 = []) ∧
    ∃ streaming collecting : Job,
      ofTokens .csv ["-inhead", "row[0]"] = .ok streaming ∧
      ofTokens .csv ["-inhead", "row[0]", "sort[0]"] = .ok collecting ∧
      collecting.selectedRecords [["b"]] = [["b"]] ∧
      let input := Text.Input.ofText "b\n" ++ .stray 0xff :: Text.Input.ofText "\n"
      Delimited.records .blanks input = ([["b"]], some .invalidText) ∧
      streaming.run input = ⟨"b\n", some .invalidText⟩ ∧
      collecting.run input = .fail .invalidText := by
  exact ⟨⟨by decide, by decide⟩,
    { ofMode .csv with headless := true, hidesLabels := true, rows := .ofIndices [0] },
    { ofMode .csv with
      headless := true, hidesLabels := true, rows := .ofIndices [0]
      sorting := some ⟨.ofIndices [0], false⟩ },
    rfl, rfl, by decide +kernel, Prod.ext (by decide +kernel) rfl, rfl, rfl⟩

end Job

end Tabular
