import Tabular.Delimited.Record
import Tabular.Delimited.Writer
import Tabular.Proofs.Text.Encoding

/-!
# Written records are read back

What is written as CSV is read as the same records. Quotes go around exactly those fields in which
the reader would stop or would meet a quote, and a record is never written as an empty line, which
it would pass over.

The reader is followed along the written text: behind a field it holds the characters of that field,
behind a comma the fields before it, and behind a line end nothing.
-/

namespace Tabular

namespace Csv

open Text

section

variable {position : Position} {read : List Mark} {fields : List (List Mark)}

theorem step_of_not_needsQuotes (outside : position ∉ [.quoted, .behindQuote]) {c : Char}
    (plain : needsQuotes c = false) :
    State.step ⟨position, read, fields⟩ (.char c) = (⟨.bare, .char c :: read, fields⟩, none) := by
  simp only [needsQuotes, Bool.or_eq_false_iff, beq_eq_false_iff_ne] at plain
  obtain ⟨⟨⟨comma, quote⟩, carriageReturn⟩, lineFeed⟩ := plain
  cases position <;> simp_all [State.step, State.add]

theorem recordsFrom_bare {field : List Char} (plain : ∀ c ∈ field, needsQuotes c = false)
    (rest : List Mark) :
    recordsFrom ⟨.bare, read, fields⟩ (field.map Mark.char ++ rest) =
      recordsFrom ⟨.bare, (field.map Mark.char).reverse ++ read, fields⟩ rest := by
  induction field generalizing read with
  | nil => rfl
  | cons c field ih =>
    obtain ⟨first, others⟩ := List.forall_mem_cons.mp plain
    rw [List.map_cons, List.cons_append, recordsFrom, step_of_not_needsQuotes (by decide) first]
    simp [ih others]

/-- Between quotes every character counts, and two quotes are one. -/
theorem recordsFrom_doubleQuotes (field : List Char) (rest : List Mark) :
    recordsFrom ⟨.quoted, read, fields⟩ ((doubleQuotes field).map Mark.char ++ rest) =
      recordsFrom ⟨.quoted, (field.map Mark.char).reverse ++ read, fields⟩ rest := by
  induction field generalizing read with
  | nil => rfl
  | cons c field ih =>
    have unfolded : doubleQuotes (c :: field) =
        (if c = '"' then ['"', '"'] else [c]) ++ doubleQuotes field := List.flatMap_cons
    rw [unfolded]
    by_cases quote : c = '"'
    · subst quote
      simpa [recordsFrom, State.step, State.add] using ih
    · simpa [recordsFrom, State.step, State.add, quote] using ih

end

/-- Where the reader is behind a field that it began to read at a position. -/
def behindField (position : Position) (field : List Char) : Position :=
  if field.any needsQuotes then .behindQuote else if field.isEmpty then position else .bare

section

variable {position : Position} {fields : List (List Mark)}

theorem recordsFrom_quoted (starts : position ∈ [.recordStart, .fieldStart]) (field : List Char)
    (rest : List Mark) :
    recordsFrom ⟨position, [], fields⟩
      (('"' :: doubleQuotes field ++ ['"']).map Mark.char ++ rest) =
      recordsFrom ⟨.behindQuote, (field.map Mark.char).reverse, fields⟩ rest := by
  have opened : State.step ⟨position, [], fields⟩ (.char '"') = (⟨.quoted, [], fields⟩, none) := by
    cases position <;> simp_all [State.step]
  rw [List.cons_append, List.map_cons, List.cons_append, recordsFrom, opened]
  simp [recordsFrom_doubleQuotes, recordsFrom, State.step]

theorem recordsFrom_writeField (starts : position ∈ [.recordStart, .fieldStart])
    (field : List Char) (rest : List Mark) :
    recordsFrom ⟨position, [], fields⟩ ((writeField field).map Mark.char ++ rest) =
      recordsFrom ⟨behindField position field, (field.map Mark.char).reverse, fields⟩ rest := by
  unfold writeField behindField
  split
  · exact recordsFrom_quoted starts field rest
  · rename_i plain
    cases field with
    | nil => rfl
    | cons c field =>
      have plain : ∀ x ∈ c :: field, needsQuotes x = false := by simpa using plain
      obtain ⟨first, others⟩ := List.forall_mem_cons.mp plain
      have outside : position ∉ [.quoted, .behindQuote] := by
        cases position <;> simp_all
      rw [List.map_cons, List.cons_append, recordsFrom, step_of_not_needsQuotes outside first]
      simp [recordsFrom_bare others]

theorem behindField_ne_quoted (starts : position ∈ [.recordStart, .fieldStart])
    (field : List Char) : behindField position field ≠ .quoted := by
  unfold behindField
  split
  · decide
  · split
    · rintro rfl
      simp at starts
    · decide

theorem behindField_ne_recordStart {field : List Char}
    (written : position = .recordStart → field ≠ []) :
    behindField position field ≠ .recordStart := by
  unfold behindField
  split
  · decide
  · split
    · rename_i empty
      exact fun start => written start (List.isEmpty_iff.mp empty)
    · decide

theorem recordsFrom_comma (unquoted : position ≠ .quoted) (field : List Mark) (rest : List Mark) :
    recordsFrom ⟨position, field.reverse, fields⟩ (.char ',' :: rest) =
      recordsFrom ⟨.fieldStart, [], field :: fields⟩ rest := by
  cases position <;> simp_all [recordsFrom, State.step, State.endField]

theorem recordsFrom_lineFeed (unquoted : position ≠ .quoted) (begun : position ≠ .recordStart)
    (field : List Mark) (rest : List Mark) :
    recordsFrom ⟨position, field.reverse, fields⟩ (.char '\n' :: rest) =
      (fields.reverse ++ [field]) :: recordsFrom .start rest := by
  cases position <;> simp_all [recordsFrom, State.step, State.record]

end

theorem writeFields_cons_cons (field next : List Char) (more : List (List Char)) :
    writeFields (field :: next :: more) = writeField field ++ ',' :: writeFields (next :: more) :=
  rfl

theorem writeField_eq_nil {field : List Char} : writeField field = [] ↔ field = [] := by
  unfold writeField
  split
  · rename_i quoted
    constructor
    · simp
    · rintro rfl
      simp at quoted
  · rfl

theorem recordsFrom_writeFields {position : Position}
    (starts : position ∈ [.recordStart, .fieldStart]) (field : List Char)
    (more : List (List Char)) (read : List (List Mark)) (rest : List Mark)
    (written : position = .recordStart → writeFields (field :: more) ≠ []) :
    recordsFrom ⟨position, [], read⟩
      ((writeFields (field :: more)).map Mark.char ++ .char '\n' :: rest) =
      (read.reverse ++ (field :: more).map (List.map Mark.char)) :: recordsFrom .start rest := by
  induction more generalizing position field read with
  | nil =>
    have begun : behindField position field ≠ .recordStart :=
      behindField_ne_recordStart fun start empty =>
        written start (writeField_eq_nil.mpr empty)
    rw [writeFields, recordsFrom_writeField starts,
      recordsFrom_lineFeed (behindField_ne_quoted starts field) begun]
    rfl
  | cons next more ih =>
    have behindComma := ih (by decide : Position.fieldStart ∈ [.recordStart, .fieldStart]) next
      (field.map Mark.char :: read) (by simp)
    rw [writeFields_cons_cons, List.map_append, List.append_assoc, recordsFrom_writeField starts,
      List.map_cons, List.cons_append, recordsFrom_comma (behindField_ne_quoted starts field),
      behindComma]
    simp

theorem recordsFrom_writeRecord {fields : List (List Char)} (filled : fields ≠ [])
    (rest : List Mark) :
    recordsFrom .start ((writeRecord fields).map Mark.char ++ rest) =
      fields.map (List.map Mark.char) :: recordsFrom .start rest := by
  obtain ⟨field, more, rfl⟩ := List.exists_cons_of_ne_nil filled
  rw [writeRecord, List.map_append, List.append_assoc]
  by_cases empty : writeFields (field :: more) = []
  · -- Only a single empty field is written as nothing, and then quotes stand for it.
    cases more with
    | nil =>
      obtain rfl := writeField_eq_nil.mp empty
      rfl
    | cons next more => simp [writeFields_cons_cons] at empty
  · rw [if_neg (by simpa using empty)]
    exact recordsFrom_writeFields (by decide) field more [] rest fun _ => empty

theorem recordsFrom_writeRecords {records : List (List (List Char))}
    (filled : ∀ fields ∈ records, fields ≠ []) :
    recordsFrom .start ((records.flatMap writeRecord).map Mark.char) =
      records.map (List.map (List.map Mark.char)) := by
  induction records with
  | nil => rfl
  | cons fields records ih =>
    obtain ⟨first, others⟩ := List.forall_mem_cons.mp filled
    rw [List.flatMap_cons, List.map_append, recordsFrom_writeRecord first, ih others, List.map_cons]

theorem dropByteOrderMark_eq_self {input : Input}
    (unmarked : input.head? ≠ some (.char '\ufeff')) : dropByteOrderMark input = input := by
  unfold dropByteOrderMark
  split
  · simp at unmarked
  · rfl

theorem head?_writeRecord (field : List Char) (more : List (List Char)) :
    ∃ c, (writeRecord (field :: more)).head? = some c ∧
      (c = '"' ∨ c = ',' ∨ field.head? = some c) := by
  cases field with
  | nil => cases more <;> simp [writeRecord, writeFields, writeField]
  | cons c field =>
    have nonempty : writeField (c :: field) ≠ [] := mt writeField_eq_nil.mp (List.cons_ne_nil _ _)
    obtain ⟨first, rest, spelled⟩ := List.exists_cons_of_ne_nil nonempty
    refine ⟨first, by cases more <;> simp [writeRecord, writeFields, spelled], ?_⟩
    unfold writeField at spelled
    split at spelled
    · exact .inl (List.head_eq_of_cons_eq spelled).symm
    · exact .inr (.inr (congrArg List.head? spelled))

@[simp] theorem fieldText?_map_char (field : List Char) :
    fieldText? (field.map Mark.char) = some (String.ofList field) := by
  simp [fieldText?, text?]

theorem recordTexts?_map_char (fields : List String) :
    recordTexts? ((fields.map String.toList).map (List.map Mark.char)) = some fields := by
  induction fields with
  | nil => rfl
  | cons field fields ih =>
    rw [recordTexts?] at ih
    simp only [List.map_cons, recordTexts?, List.mapM_cons, fieldText?_map_char]
    rw [ih]
    simp

/-- Records are read from their text when no byte order mark stands in front. -/
theorem records_writeRecords {records : List (List String)}
    (filled : ∀ fields ∈ records, fields ≠ [])
    (unmarked : ∀ fields ∈ records.head?, ∀ field ∈ fields.head?,
      field.toList.head? ≠ some '\ufeff') :
    Csv.records (((records.map (List.map String.toList)).flatMap writeRecord).map Mark.char) =
      records := by
  have begins : (((records.map (List.map String.toList)).flatMap writeRecord).map
      Mark.char).head? ≠ some (.char '\ufeff') := by
    cases records with
    | nil => simp
    | cons fields records =>
      obtain ⟨field, more, rfl⟩ := List.exists_cons_of_ne_nil (filled fields List.mem_cons_self)
      obtain ⟨c, first, known⟩ := head?_writeRecord field.toList (more.map String.toList)
      have other : c ≠ '\ufeff' := by
        rintro rfl
        rcases known with quote | comma | marked
        · exact absurd quote (by decide)
        · exact absurd comma (by decide)
        · exact unmarked (field :: more) rfl field rfl marked
      simp [first, other]
  have filled : ∀ fields ∈ records.map (List.map String.toList), fields ≠ [] := by
    simpa using filled
  rw [Csv.records, dropByteOrderMark_eq_self begins, recordsFrom_writeRecords filled,
    List.map_map, List.filterMap_map]
  simp only [Function.comp_def, recordTexts?_map_char, List.filterMap_some]

end Csv

namespace Delimited

theorem writeRow_none (joining : Joining) (row : Row) :
    writeRow joining none row = writeFields joining (row.map Cell.render) := by
  have bare : wrapped none = Cell.render := by
    funext cell
    simp [wrapped]
  rw [writeRow, bare]

theorem toList_join_writeFields (records : List (List String)) :
    (String.join (records.map (writeFields .csv))).toList =
      (records.map (List.map String.toList)).flatMap Csv.writeRecord := by
  induction records with
  | nil => rfl
  | cons fields records ih => simp [String.join_cons, ih, writeFields]

/-- What is written as CSV without a wrapping is read as the same records, whatever their texts
hold: commas, quotes, line ends, blanks or nothing. Only a byte order mark in front would be
dropped. Rows of text are written like labels. -/
theorem records_writeRow {records : List (List String)} (filled : ∀ fields ∈ records, fields ≠ [])
    (unmarked : ∀ fields ∈ records.head?, ∀ field ∈ fields.head?,
      field.toList.head? ≠ some '\ufeff') :
    let written := String.join (records.map fun fields => writeRow .csv none (fields.map Cell.text))
    written = String.join (records.map (writeFields .csv)) ∧
      Delimited.records .csv (Text.Input.ofBytes written.toUTF8.toList) = (records, none) := by
  intro written
  have asLabels : written = String.join (records.map (writeFields .csv)) := by
    refine congrArg String.join (List.map_congr_left fun fields _ => ?_)
    rw [writeRow_none, List.map_map]
    exact congrArg _ (List.map_id fields)
  refine ⟨asLabels, ?_⟩
  rw [Delimited.records, Text.ofBytes_toUTF8, asLabels, Text.Input.ofText, toList_join_writeFields,
    Csv.records_writeRecords filled unmarked]

/-- A record of one empty field, fields over several lines, and quotes beside delimiters. -/
theorem records_writeRow_quotes :
    let records := [["a,b", "", "\"x\""], [""], ["1\r\n\r2", "\",\""], ["", " "], ["é\ufeff"]]
    let written := String.join (records.map fun fields => writeRow .csv none (fields.map Cell.text))
    (∀ fields ∈ records, fields ≠ []) ∧
    (∀ fields ∈ records.head?, ∀ field ∈ fields.head?, field.toList.head? ≠ some '\ufeff') ∧
    written = "\"a,b\",,\"\"\"x\"\"\"\n\"\"\n\"1\r\n\r2\",\"\"\",\"\"\"\n, \né\ufeff\n" ∧
    Delimited.records .csv (Text.Input.ofBytes written.toUTF8.toList) = (records, none) := by
  intro records written
  have filled : ∀ fields ∈ records, fields ≠ [] := by decide
  have unmarked : ∀ fields ∈ records.head?, ∀ field ∈ fields.head?,
      field.toList.head? ≠ some '\ufeff' := by
    decide
  exact ⟨filled, unmarked, by decide +kernel, (records_writeRow filled unmarked).2⟩

end Delimited

end Tabular
