import Tabular.Proofs.Document.SingleKey
import Tabular.Proofs.Job.Conversion
import Tabular.Proofs.Json.Integers
import Tabular.Proofs.Text.Validity

/-!
# Numbers of documents

A document that is asked for one key and written as JSON shows what it holds there. An integer comes
out in the digits in which it went in, as long as a word holds it. Cells know no larger integers:
these become the floats nearest to them, and a zero with a sign is a float from the start.
-/

namespace Tabular

namespace Json

theorem readLeaf_of_isBlank {cs : List Char} (blanks : ∀ c ∈ cs, Text.isBlank c = true) :
    ∃ stop, readLeaf cs = .error stop := by
  cases cs with
  | nil => exact ⟨_, rfl⟩
  | cons c cs =>
    have blank := blanks c List.mem_cons_self
    have noDigit : ¬c.isDigit = true := by
      intro digit
      rw [Text.isBlank_of_isDigit digit] at blank
      cases blank
    unfold readLeaf
    dsimp only
    split
    · exact absurd blank (by decide)
    · exact absurd blank (by decide)
    · exact absurd blank (by decide)
    · exact absurd blank (by decide)
    · exact absurd blank (by decide)
    · rw [if_neg noDigit]
      exact ⟨_, rfl⟩

theorem isBlankText_eq_false_of_read {s : String} {value : Json} (valid : read s = .ok value) :
    Text.isBlankText s = false := by
  refine Bool.eq_false_iff.mpr fun blank => ?_
  have blanks : ∀ c ∈ skipSpace s.toList, Text.isBlank c = true := fun c member =>
    List.all_eq_true.mp blank c ((List.dropWhile_sublist _).subset member)
  have failed : ∃ stop, readValue depthLimit s.toList = .error stop := by
    rw [depthLimit, readValue]
    split
    · rename_i start
      exact absurd (blanks '[' (start ▸ List.mem_cons_self)) (by decide)
    · rename_i start
      exact absurd (blanks '\x7b' (start ▸ List.mem_cons_self)) (by decide)
    · exact readLeaf_of_isBlank blanks
  obtain ⟨stop, failed⟩ := failed
  rw [read, readWhole, failed] at valid
  cases valid

end Json

namespace Cell

variable {n : Int}

theorem toJson_ofJson_int (low : -2 ^ 63 ≤ n) (high : n < 2 ^ 63) :
    (ofJson (.int n)).toJson = .int n := by
  have word : Decimal.word? n = some (Int64.ofInt n) := if_pos (by omega)
  rw [ofJson, word, toJson, Decimal.toInt_of_word?_eq_some word]

theorem toJson_ofJson_large (low : 2 ^ 63 ≤ n) (high : n < 2 ^ 64) :
    (ofJson (.int n)).toJson = .float (Float.ofInt n) ∧
      Decimal.Denotes (Float.ofInt n) (Decimal.rounded n) := by
  obtain ⟨m, rfl⟩ := Int.eq_ofNat_of_zero_le (show 0 ≤ n by omega)
  have noWord : Decimal.word? (m : Int) = none := if_neg (by omega)
  have inside : Decimal.InRange ((m : Int) : ℚ) :=
    Decimal.inRange_of_abs_le 64 (abs_le.mpr ⟨by omega, by omega⟩) (by decide)
  have denotes : Decimal.Denotes (Float.ofInt m) (Decimal.rounded m) := Decimal.denotes_ofNat inside
  refine ⟨?_, denotes⟩
  rw [ofJson, noWord, toJson, Json.ofFloat, if_pos denotes.isFinite]

variable {number : Json.IntegerText}

theorem compact_of_word (ordinary : ¬number.IsNegativeZero) (low : -2 ^ 63 ≤ number.value)
    (high : number.value < 2 ^ 63) : (ofJson number.json).toJson.compact = number.text := by
  rw [Json.IntegerText.json, if_neg ordinary, toJson_ofJson_int low high,
    Json.IntegerText.text_eq_intText ordinary]
  rfl

theorem toJson_of_large (low : 2 ^ 63 ≤ number.value) (high : number.value < 2 ^ 64) :
    (ofJson number.json).toJson = .float (Float.ofInt number.value) ∧
      Decimal.Denotes (Float.ofInt number.value) (Decimal.rounded number.value) := by
  have ordinary : ¬number.IsNegativeZero := by
    rintro ⟨-, zero⟩
    have size := Json.IntegerText.natAbs_value number
    omega
  rw [Json.IntegerText.json, if_neg ordinary]
  exact toJson_ofJson_large low high

theorem toJson_of_negativeZero (zero : number.IsNegativeZero) :
    (ofJson number.json).toJson = .float (-(Float.ofInt 0)) := by
  rw [Json.IntegerText.json, if_pos zero]
  rfl

theorem compact_eq_text_iff (low : -2 ^ 63 ≤ number.value) (high : number.value < 2 ^ 64) :
    (ofJson number.json).toJson.compact = number.text ↔
      number.value < 2 ^ 63 ∧ number.text ≠ "-0" := by
  rw [ne_eq, ← Json.IntegerText.isNegativeZero_iff]
  constructor
  · intro same
    refine ⟨?_, fun zero => ?_⟩
    · by_contra large
      rw [(toJson_of_large (by omega) high).1] at same
      exact Json.compact_float_ne_text _ number same
    · rw [toJson_of_negativeZero zero] at same
      exact Json.compact_float_ne_text _ number same
  · rintro ⟨small, ordinary⟩
    exact compact_of_word ordinary low small

end Cell

namespace Job

/-- Writes what documents hold at a key as JSON. -/
def keyToJson (key : String) : Job :=
  { ofMode .json with keys := some [key], form := .json }

theorem ofTokens_keyToJson {key : String} (keyLabels : KeyLabels [key]) :
    ofTokens .json ["keys[" ++ key ++ "]", "out..json"] = .ok (keyToJson key) := by
  have token := Directive.read_keysToken keyLabels
  rw [Directive.keysToken, String.intercalate_singleton] at token
  exact ofTokens_eq_ok_iff.mpr
    ⟨[.keys [key], .output .json none], .cons token (.cons rfl .nil), rfl⟩

def keyText (key : String) (values : List Json) : String :=
  (Json.array (values.map fun value => .object [(key, (Cell.ofJson value).toJson)])).compact ++ "\n"

theorem keyText_singleton (key : String) (value : Json) :
    keyText key [value] = "[\x7b" ++ String.ofList (Json.quoted key) ++ ":" ++
      (Cell.ofJson value).toJson.compact ++ "\x7d]\n" := by
  apply String.toList_injective
  simp [keyText, Json.compact, Json.chars, Json.itemChars, Json.memberChars]

variable {name text : String} {members : List (String × Json)}

theorem write_keyToJson (key : String) (values : List Json) :
    Table.write (keyToJson key)
      { labels := [key], rows := values.map fun value => [Cell.ofJson value], typed := true } =
        .ok (keyText key values) := by
  have narrow : ∀ row ∈ values.map fun value => [Cell.ofJson value],
      row.length ≤ [key].length := by
    simp
  rw [Table.write_of_narrow rfl rfl rfl rfl narrow, List.map_map]
  rfl

/-- What a document holds at a name is written under this name. A list has one object for each of
its elements. -/
theorem run_keyToJson {value : Json} (keyLabels : KeyLabels [name])
    (valid : Json.read text = .ok (.object members))
    (held : Document.member? name members = some value) :
    (keyToJson name).run (.ofText text) = .write (keyText name value.items) := by
  have visible := Json.isBlankText_eq_false_of_read valid
  have documents : Document.readJson text = .ok [.object members] := by
    rw [Document.readJson, valid]
    rfl
  have names : KeyPath.split name = [name] :=
    KeyPath.split_of_not_mem (keyLabels.plain name List.mem_cons_self).2.2
  have named : (KeyPath.split name).head? ≠ some "" := by
    rw [names]
    simpa using keyLabels.named name List.mem_cons_self
  have reached : Document.valueAt? (KeyPath.split name) (.object members) = some value := by
    rw [names, Document.valueAt?, held]
    rfl
  have rows : Document.flatten (KeyTree.ofKeys [name]) [name] (.object members) =
      value.items.map fun item => [Cell.ofJson item] := by
    rw [Document.flatten_ofKeys_singleton named,
      (Document.lookup_and_found_of_reached reached).2]
  calc (keyToJson name).run (.ofText text)
      = (keyToJson name).runDocuments [.object members] := run_of_json rfl visible documents
    _ = .ofResult (Table.write (keyToJson name)
          { labels := [name]
            rows := [Json.object members].flatMap (Document.flatten (.ofKeys [name]) [name])
            typed := true }) := rfl
    _ = .write (keyText name value.items) := by
      rw [List.flatMap_singleton, rows, write_keyToJson]
      rfl

/-- An integer of 64 bits, with or without a sign, that a document holds at a name is written in the
same digits exactly if a word holds it and it is no zero with a sign. A larger one becomes the
nearest float, in the fewest digits that show it. -/
theorem run_writes_integer_iff {number : Json.IntegerText} {value : Json}
    (keyLabels : KeyLabels [name]) (valid : Json.read text = .ok (.object members))
    (held : Document.member? name members = some value)
    (written : Json.read number.text = .ok value)
    (low : -2 ^ 63 ≤ number.value) (high : number.value < 2 ^ 64) :
    ∃ job shown, ofTokens .json ["keys[" ++ name ++ "]", "out..json"] = .ok job ∧
      (∀ input, Text.text? input = some text →
        job.run input = .write ("[\x7b" ++ String.ofList (Json.quoted name) ++ ":" ++ shown ++
          "\x7d]\n")) ∧
      (shown = number.text ↔ number.value < 2 ^ 63 ∧ number.text ≠ "-0") ∧
      (2 ^ 63 ≤ number.value → ∃ x, Decimal.Denotes x (Decimal.rounded number.value) ∧
        shown = Json.floatStyle.write x) ∧
      (number.text = "-0" → shown = "-0.0") := by
  obtain rfl : number.json = value := by
    rw [Json.IntegerText.read_text low high] at written
    exact Except.ok.inj written
  have alone : number.json.items = [number.json] := by
    unfold Json.IntegerText.json
    split <;> rfl
  refine ⟨keyToJson name, (Cell.ofJson number.json).toJson.compact, ofTokens_keyToJson keyLabels,
    fun input text => ?_, Cell.compact_eq_text_iff low high, fun large => ?_, fun signed => ?_⟩
  · rw [Text.eq_ofText_of_text? text, run_keyToJson keyLabels valid held, alone,
      keyText_singleton]
  · obtain ⟨float, nearest⟩ := Cell.toJson_of_large large high
    refine ⟨_, nearest, ?_⟩
    rw [float, Json.compact, Json.chars, String.ofList_toList]
  · rw [Cell.toJson_of_negativeZero (Json.IntegerText.isNegativeZero_iff.mpr signed)]
    rfl

/-- The least word, between other members. -/
theorem run_writes_integer_iff_least :
    let number : Json.IntegerText :=
      ⟨true, "9223372036854775808".toList, List.all_eq_true.mp (by decide), by decide, by decide⟩
    let members := [("id", Json.bool true), ("k", .int (-9223372036854775808)),
      ("tags", .array [.int 7])]
    KeyLabels ["k"] ∧
    Json.read "\x7b\"tags\":[7], \"k\": -9223372036854775808, \"id\":true\x7d" =
      .ok (.object members) ∧
    Document.member? "k" members = some (.int (-9223372036854775808)) ∧
    Json.read number.text = .ok (.int (-9223372036854775808)) ∧
    -2 ^ 63 ≤ number.value ∧ number.value < 2 ^ 64 ∧
    ∃ job, ofTokens .json ["keys[k]", "out..json"] = .ok job ∧
      job.run (.ofText "\x7b\"tags\":[7], \"k\": -9223372036854775808, \"id\":true\x7d") =
        .write "[\x7b\"k\":-9223372036854775808\x7d]\n" := by
  have valid : Json.read "\x7b\"tags\":[7], \"k\": -9223372036854775808, \"id\":true\x7d" =
      .ok (.object [("id", .bool true), ("k", .int (-9223372036854775808)),
        ("tags", .array [.int 7])]) := rfl
  intro number members
  have keyLabels : KeyLabels ["k"] :=
    ⟨by decide, by decide, by decide, by decide, by decide⟩
  have held : Document.member? "k" members = some (.int (-9223372036854775808)) := rfl
  have low : -2 ^ 63 ≤ number.value := by decide
  have high : number.value < 2 ^ 64 := by decide
  have written : Json.read number.text = .ok (.int (-9223372036854775808)) :=
    Json.IntegerText.read_text low high
  obtain ⟨job, shown, accepted, runs, same, -⟩ :=
    run_writes_integer_iff keyLabels valid held written low high
  have digits : shown = "-9223372036854775808" := same.mpr ⟨by decide, by decide⟩
  refine ⟨keyLabels, valid, held, written, low, high, job, accepted, ?_⟩
  rw [runs _ (Text.text?_ofText _), digits]
  rfl

/-- The largest integer of 64 bits does not keep its digits. -/
theorem run_rounds_integer :
    Json.read "\x7b\"k\":18446744073709551615\x7d" =
      .ok (.object [("k", .int 18446744073709551615)]) ∧
    ∃ job, ofTokens .json ["keys[k]", "out..json"] = .ok job ∧
      job.run (.ofText "\x7b\"k\":18446744073709551615\x7d") =
        .write "[\x7b\"k\":1.8446744073709552e+19\x7d]\n" ∧
      job.run (.ofText "\x7b\"k\":18446744073709551615\x7d") ≠
        .write "[\x7b\"k\":18446744073709551615\x7d]\n" := by
  have keyLabels : KeyLabels ["k"] :=
    ⟨by decide, by decide, by decide, by decide, by decide⟩
  have valid : Json.read "\x7b\"k\":18446744073709551615\x7d" =
      .ok (.object [("k", .int 18446744073709551615)]) := rfl
  have shown : Json.floatStyle.write (Float.ofInt 18446744073709551615) =
      "1.8446744073709552e+19" := by decide +kernel
  have large : (Cell.ofJson (.int 18446744073709551615)).toJson =
      .float (Float.ofInt 18446744073709551615) :=
    (Cell.toJson_ofJson_large (by decide) (by decide)).1
  have compact : (Cell.ofJson (.int 18446744073709551615)).toJson.compact =
      "1.8446744073709552e+19" := by
    rw [large, Json.compact, Json.chars, String.ofList_toList, shown]
  have run : (keyToJson "k").run (.ofText "\x7b\"k\":18446744073709551615\x7d") =
      .write "[\x7b\"k\":1.8446744073709552e+19\x7d]\n" := by
    have held : Document.member? "k" [("k", Json.int 18446744073709551615)] =
        some (.int 18446744073709551615) := rfl
    have single : (Json.int 18446744073709551615).items = [.int 18446744073709551615] := rfl
    rw [run_keyToJson keyLabels valid held, single, keyText_singleton, compact]
    rfl
  have accepted : ofTokens .json ["keys[k]", "out..json"] = .ok (keyToJson "k") := rfl
  refine ⟨valid, keyToJson "k", accepted, run, ?_⟩
  rw [run]
  exact fun same => absurd (congrArg Outcome.written same) (by decide)

end Job

end Tabular
